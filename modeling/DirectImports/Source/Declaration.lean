import DirectImports.Source.Variable

/-! Declarations behind their modifiers, and those that only TypeScript has: interfaces, names of
types, enumerations and namespaces. -/

namespace DirectImports

/-- Words that may stand in front of a declaration on its line. -/
def declarationModifiers : List Text :=
  ["abstract", "accessor", "async", "declare", "private", "protected", "public",
   "readonly"].map String.toList

def declarationWords : List Text :=
  ["var", "let", "const", "function", "class", "enum"].map String.toList

namespace View

def isLiteral (view : View) : Bool :=
  match view.token with
  | .literal _ => true
  | _ => false

def followsImport (view : View) : Bool :=
  view.isLiteral || view.isOneOf [.star, .openBrace] || view.isAnyWord

def followsGlobal (view : View) : Bool :=
  view.isName || view.is .openBrace || view.isWord "export"

/-- Whether an export that is no declaration stands behind `export`. -/
def isPlainExport (view : View) : Bool :=
  view.isOneOf [.equals, .star, .openBrace, .sign] || view.isWord "default" || view.isWord "as"

end View

namespace SourceReader

/-- Whether a name or a string follows on the same line. -/
def hasModuleName : SourceReader Bool :=
  behind (sees fun view => (view.isLiteral || view.isName) && !view.broken)

/-- Whether a word that is none of the modifiers begins a declaration. -/
def beginsPlainDeclaration : SourceReader Bool := do
  let view ← look
  if view.isWordIn declarationWords then return true
  else if view.isWord "interface" || view.isWord "type" then hasNameOnLine
  else if view.isWord "module" || view.isWord "namespace" then hasModuleName
  else if view.isWord "global" then behind (sees View.followsGlobal)
  else if view.isWord "import" then behind (sees View.followsImport)
  else return false

def declarationTurn : SourceReader (Turn Unit Bool) := do
  let view ← look
  if view.isWordIn declarationModifiers then
    advance
    if (← look).broken then return .last false else return .again ()
  else if view.isWord "static" then
    advance
    return .again ()
  else if view.isWord "export" then
    advance
    discard (takesWord "type")
    if ← sees View.isPlainExport then return .last true else return .again ()
  else return .last (← beginsPlainDeclaration)

/-- Whether a declaration begins here, perhaps with modifiers. -/
def beginsDeclaration : SourceReader Bool :=
  ahead (iterate (fun _ => declarationTurn) ())

def interface : SourceReader Unit := do
  advance
  name
  typeParameters
  heritage
  typeMembers

def typeAlias : SourceReader Unit := do
  advance
  name
  typeParameters
  expect .equals
  pass .type
  endStatement

/-- The name of a member of an enumeration, which may be a text in brackets. -/
def enumName : SourceReader Unit := do
  match (← look).token with
  | .word _ => advance
  | .literal _ => advance
  | _ =>
    expect .openSquare
    match (← look).token with
    | .template false => advance
    | _ => string
    expect .closeSquare

def enumMember : SourceReader Unit := do
  enumName
  if ← takes .equals then pass (.assignment true)

def enumeration : SourceReader Unit := do
  advance
  name
  discard (enclosed .openBrace .closeBrace enumMember)

/-- The name of a namespace, which may lie in others. -/
def namespaceName : SourceReader Unit := do
  name
  repeatedly do
    if ← takes .dot then
      name
      return true
    else return false

/-- A namespace, or a module with its name in quotes, which may be empty. -/
def namespaceDeclaration : SourceReader Unit := do
  advance
  if ← advanceIf (sees View.isLiteral) then
    if ← seesMark .openBrace then block else endStatement
  else
    namespaceName
    block

def globalDeclaration : SourceReader Unit := do
  advance
  block

/-- What another name stands for: a module that is required, or a path. -/
def importAliasValue : SourceReader Unit := do
  if ← seesWord "require" <&&> behind (seesMark .openParen) then
    advance
    expect .openParen
    string
    expect .closeParen
  else path

/-- A name and what it stands for. -/
def aliasRest : SourceReader Unit := do
  name
  expect .equals
  importAliasValue
  endStatement

/-- An import that gives another name to something, from `import` on. -/
def importAlias : SourceReader Unit := do
  advance
  discard (advanceIf (seesWord "type" <&&> behind (sees View.isName)))
  aliasRest

/-- A declaration that any text may have. -/
def commonDeclaration : SourceReader Unit := do
  if ← seesWord "class" then classRest
  else if ← seesWord "function" <||> seesAsyncFunction then function
  else
    require (← seesWord "var" <||> seesWord "let" <||> seesWord "const" <||> seesUsing)
    variableStatement

def declaration : SourceReader Unit := do
  let view ← look
  if !(← typescript) then commonDeclaration
  else if view.isWord "interface" then interface
  else if view.isWord "type" then typeAlias
  else if view.isWord "enum" then enumeration
  else if view.isWord "namespace" || view.isWord "module" then namespaceDeclaration
  else if view.isWord "global" then globalDeclaration
  else if view.isWord "import" then importAlias
  else commonDeclaration

/-- A declaration with its modifiers, which only TypeScript has. -/
def modifiedDeclaration : SourceReader Unit := do
  if ← typescript then discard (modifiers ⟨false, false⟩)
  declaration

end SourceReader

end DirectImports
