/-! Text as a list of characters. Offsets count the bytes of its UTF-8 form; a cut is
possible only between two characters. -/

namespace DirectImports

abbrev Text := List Char

/-- Whether a text comes no later than another in the order of code points. -/
def textPrecedes : Text → Text → Bool
  | [], _ => true
  | _ :: _, [] => false
  | a :: as, b :: bs => if a = b then textPrecedes as bs else a.toNat < b.toNat

def byteLength : Text → Nat
  | [] => 0
  | c :: text => c.utf8Size + byteLength text

/-- The two sides of a byte offset; nothing inside a character or beyond the end. -/
def cutAt : Nat → Text → Option (Text × Text)
  | 0, text => some ([], text)
  | _ + 1, [] => none
  | n + 1, c :: text =>
    if c.utf8Size ≤ n + 1 then
      (cutAt (n + 1 - c.utf8Size) text).map fun (before, after) => (c :: before, after)
    else none

structure Span where
  start : Nat
  stop : Nat
deriving DecidableEq, Repr

def Span.shift (span : Span) (offset : Nat) : Span :=
  ⟨offset + span.start, offset + span.stop⟩

def Span.split (span : Span) (text : Text) : Option (Text × Text × Text) := do
  if span.stop < span.start then none
  let (before, rest) ← cutAt span.start text
  let (inside, after) ← cutAt (span.stop - span.start) rest
  return (before, inside, after)

def Span.slice (span : Span) (text : Text) : Option Text :=
  (span.split text).map fun (_, inside, _) => inside

def Span.replace (span : Span) (replacement text : Text) : Option Text :=
  (span.split text).map fun (before, _, after) => before ++ replacement ++ after

theorem byteLength_append (a b : Text) : byteLength (a ++ b) = byteLength a + byteLength b := by
  induction a with
  | nil => simp [byteLength]
  | cons c a ih => simp [byteLength, ih, Nat.add_assoc]

theorem cutAt_append (a b : Text) : cutAt (byteLength a) (a ++ b) = some (a, b) := by
  induction a with
  | nil => simp [byteLength, cutAt]
  | cons c a ih =>
    have hc := c.utf8Size_pos
    obtain ⟨n, hn⟩ : ∃ n, c.utf8Size + byteLength a = n + 1 :=
      ⟨c.utf8Size + byteLength a - 1, by omega⟩
    have hr : n + 1 - c.utf8Size = byteLength a := by omega
    have hl : c.utf8Size ≤ n + 1 := by omega
    simp only [byteLength, hn, List.cons_append, cutAt, hl, if_true, hr, ih, Option.map_some]

end DirectImports
