import DirectImports.Text.Basic

/-! Replacements of spans of a text. Of overlapping fixes the first in the order of their spans
is kept; the kept ones are applied from the back, so that offsets before them stay valid. -/

namespace DirectImports

structure Fix where
  span : Span
  replacement : Text
deriving DecidableEq, Repr

def Span.precedes (a b : Span) : Bool :=
  a.start < b.start || (a.start == b.start && a.stop ≤ b.stop)

def sortFixes (fixes : List Fix) : List Fix :=
  fixes.mergeSort fun a b => a.span.precedes b.span

structure Selection where
  kept : List Fix
  skipped : List Fix
deriving DecidableEq, Repr

/-- Keeps a fix unless it starts before `last`, where the fix kept before it ends. -/
def selectFrom (last : Nat) : List Fix → Selection
  | [] => ⟨[], []⟩
  | fix :: fixes =>
    if fix.span.start < last then
      let selection := selectFrom last fixes
      { selection with skipped := fix :: selection.skipped }
    else
      let selection := selectFrom fix.span.stop fixes
      { selection with kept := fix :: selection.kept }

def select (fixes : List Fix) : Selection :=
  selectFrom 0 (sortFixes fixes)

/-- Applies fixes from the last to the first; nothing if a span does not fit the text. -/
def applyInReverse (source : Text) : List Fix → Option Text
  | [] => some source
  | fix :: later => (applyInReverse source later).bind (fix.span.replace fix.replacement)

def applyFixes (source : Text) (fixes : List Fix) : Option Text :=
  applyInReverse source (select fixes).kept

end DirectImports
