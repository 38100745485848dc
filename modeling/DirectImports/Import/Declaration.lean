import DirectImports.Text.Basic

/-! Import declarations: what they bind, and from which module. -/

namespace DirectImports

inductive Specifier where
  | named (importedName localName : Text) (isType : Bool)
  | byDefault (localName : Text)
  | entire (localName : Text)
deriving DecidableEq, Repr

namespace Specifier

def localName : Specifier → Text
  | named _ name _ => name
  | byDefault name => name
  | entire name => name

/-- The name on the side of the module; `default` and `*` stand for the default export and
for the module as a whole. -/
def importedName : Specifier → Text
  | named name _ _ => name
  | byDefault _ => "default".toList
  | entire _ => ['*']

def isType : Specifier → Bool
  | named _ _ isType => isType
  | _ => false

def isNamed : Specifier → Bool
  | named .. => true
  | _ => false

end Specifier

/-- An import declaration and its place in a text. It has no `source` when the module is not
given by a string literal. -/
structure ImportDeclaration where
  span : Span
  source : Option Text
  specifiers : List Specifier
  isTypeOnly : Bool
deriving DecidableEq, Repr

def ImportDeclaration.shift (declaration : ImportDeclaration) (offset : Nat) :
    ImportDeclaration :=
  { declaration with span := declaration.span.shift offset }

end DirectImports
