import DirectImports.Failure
import DirectImports.Fix
import DirectImports.Import.Direct
import DirectImports.Import.Source

/-! The rule: an import from a barrel that binds exports by name should import each from the
module of its own. -/

namespace DirectImports

structure Diagnostic where
  span : Span
  message : Text
  fix : Option Fix
deriving DecidableEq, Repr

inductive RuleKind where
  | problem
  | suggestion
  | layout
deriving DecidableEq, Repr

inductive Fixable where
  | code
  | whitespace
deriving DecidableEq, Repr

structure RuleDescription where
  name : Text
  kind : RuleKind
  description : Text
  isRecommended : Bool
  fixable : Option Fixable

def barrelRule : RuleDescription where
  name := "debarrel".toList
  kind := .suggestion
  description := "Transform barrel imports into direct imports".toList
  isRecommended := false
  fixable := some .code

def barrelMessage : Text :=
  "Barrel imports should be transformed into direct imports".toList

/-- What a handler reports of a declaration; nothing when a custom function gives no answer. -/
abbrev Handler := ImportDeclaration → Option (List Diagnostic)

/-- The pattern whose barrel a declaration imports named bindings from. -/
def RuleOptions.barrelOf? (options : RuleOptions) (declaration : ImportDeclaration) :
    Option BarrelPattern := do
  let pattern ← options.match? (← declaration.source)
  if declaration.specifiers.any Specifier.isNamed then return pattern else none

/-- Reports an import from a barrel together with its direct imports. -/
def RuleOptions.handler (options : RuleOptions) : Handler := fun declaration =>
  match options.barrelOf? declaration with
  | none => some []
  | some pattern =>
    (declaration.replacement pattern).map fun replacement =>
      [⟨declaration.span, barrelMessage, replacement.map (Fix.mk declaration.span)⟩]

def RuleOptions.handlers (options : RuleOptions) : List Handler :=
  [options.handler]

def dispatch (handlers : List Handler) (declaration : ImportDeclaration) :
    Option (List Diagnostic) :=
  (handlers.mapM fun (handler : Handler) => handler declaration).map List.flatten

def dispatchAll (handlers : List Handler) (declarations : List ImportDeclaration) :
    Option (List Diagnostic) :=
  (declarations.mapM (dispatch handlers)).map List.flatten

/-- The import declarations of a file; its path tells the language. A text that cannot be read is
given up at its first error. -/
def importDeclarations (path source : Text) : Except Failure (List ImportDeclaration) :=
  match importDeclarations? (Language.ofPath path) source with
  | some declarations => return declarations
  | none => throw (.unparsable path 1)

def lintSource (options : RuleOptions) (path source : Text) :
    Except Failure (List Diagnostic) := do
  match dispatchAll options.handlers (← importDeclarations path source) with
  | some diagnostics => return diagnostics
  | none => throw .aborted

def fixesOf (diagnostics : List Diagnostic) : List Fix :=
  diagnostics.filterMap Diagnostic.fix

def fixSource (options : RuleOptions) (path source : Text) : Except Failure Text := do
  match applyFixes source (fixesOf (← lintSource options path source)) with
  | some fixed => return fixed
  | none => throw .aborted

end DirectImports
