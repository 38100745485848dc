import DirectImports.Import.Declaration
import DirectImports.Pattern
import DirectImports.Text.Blank

/-! The direct imports that take the place of a barrel import: one statement for each named
binding, after one that keeps the other bindings on the barrel. -/

namespace DirectImports

structure NamedBinding where
  importedName : Text
  localName : Text
  isTypeOnly : Bool
deriving DecidableEq, Repr

def importStatement (isTypeOnly : Bool) (clause path : Text) : Text :=
  "import ".toList ++ (if isTypeOnly then "type ".toList else []) ++ clause ++
    " from \"".toList ++ path ++ "\";".toList

/-- A name that matches a suffix stays named; any other becomes a default import. -/
def directStatement (pattern : BarrelPattern) (binding : NamedBinding) : Option Text :=
  match pattern.namedMatch? binding.importedName with
  | some (exports, suffix) =>
    (pattern.namedPath exports binding.importedName suffix).map
      (importStatement binding.isTypeOnly (['{', ' '] ++ binding.localName ++ [' ', '}']))
  | none =>
    (pattern.defaultPath binding.importedName).map
      (importStatement binding.isTypeOnly binding.localName)

namespace ImportDeclaration

/-- The named bindings; one is for types only if the declaration or its specifier says so. -/
def namedBindings (declaration : ImportDeclaration) : List NamedBinding :=
  declaration.specifiers.filterMap fun
    | .named importedName localName isType =>
      some ⟨importedName, localName, declaration.isTypeOnly || isType⟩
    | _ => none

/-- The clauses of the bindings that have no direct module. -/
def otherClauses (declaration : ImportDeclaration) : List Text :=
  declaration.specifiers.filterMap fun
    | .named .. => none
    | .byDefault localName => some localName
    | .entire localName => some ("* as ".toList ++ localName)

/-- The statement that keeps the default and namespace bindings on the barrel. -/
def residual? (declaration : ImportDeclaration) (barrel : Text) : Option Text :=
  match declaration.otherClauses with
  | [] => none
  | clauses =>
    some (importStatement declaration.isTypeOnly (joinWith ", ".toList clauses) barrel)

/-- The statements that replace a declaration with named bindings. -/
def directStatements (declaration : ImportDeclaration) (pattern : BarrelPattern) :
    Option (List Text) := do
  let direct ← declaration.namedBindings.mapM (directStatement pattern)
  return (declaration.residual? pattern.barrel).toList ++ direct

/-- The text that replaces the declaration: `some none` when it has no named bindings. -/
def replacement (declaration : ImportDeclaration) (pattern : BarrelPattern) :
    Option (Option Text) :=
  if declaration.namedBindings.isEmpty then some none
  else (declaration.directStatements pattern).map fun statements =>
    some (joinWith ['\n'] statements)

end ImportDeclaration

end DirectImports
