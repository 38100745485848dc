import DirectImports.Source.Type

/-! Functions and classes, which statements and expressions have in common. -/

namespace DirectImports

namespace SourceReader

def block : SourceReader Unit :=
  braced (pass (.statement false))

/-- A function from its parameters on. In TypeScript it may have no body. -/
def functionRest (isAsync isGenerator : Bool) : SourceReader Unit :=
  inFunction isAsync isGenerator do
    typeParameters
    parameters
    returnType
    if ← seesMark .openBrace then block
    else
      require (← typescript)
      endStatement

/-- A function from the word `function` on, which may have a name. -/
def functionWithName (isAsync : Bool) : SourceReader Unit := do
  expectWord "function"
  let isGenerator ← takes .star
  discard (advanceIf (sees View.isName))
  functionRest isAsync isGenerator

/-- A function that may begin with `async`. -/
def function : SourceReader Unit := do
  let isAsync ← takesWord "async"
  functionWithName isAsync

/-- A method from its name on that gets or sets a property. -/
def accessor (memberName : SourceReader Unit) : SourceReader Unit := do
  memberName
  functionRest false false

def memberName : SourceReader Unit := do
  match (← look).token with
  | .privateName => advance
  | _ => propertyName

def fieldRest : SourceReader Unit := do
  discard (takes .exclamation)
  typeAnnotation
  if ← takes .equals then inFunction false false (pass (.assignment true))
  endStatement

def property (isAsync : Bool) : SourceReader Unit := do
  let isGenerator ← takes .star
  memberName
  discard (takes .question)
  if ← pure isGenerator <||> opensCall then functionRest isAsync isGenerator
  else fieldRest

def classMember : SourceReader Unit := do
  decorators
  let isAsync ← modifiers ⟨true, true⟩
  if ← seesStaticBlock then
    advance
    inFunction true false block
  else if ← takesModifier "get" then accessor memberName
  else if ← takesModifier "set" then accessor memberName
  else if ← typescript <&&> seesIndexSignature then indexSignature
  else property isAsync

/-- A member of a class, or one of the semicolons between them. -/
def classItem : SourceReader Unit := do
  if !(← takes .semicolon) then classMember

/-- An operand that a class extends, with the arguments of its type. -/
def extended : SourceReader Unit := do
  pass .operand
  if ← typescript <&&> opensTypeArguments then typeArguments

def implemented : SourceReader Unit := do
  path
  argumentsOfName

def heritage : SourceReader Unit :=
  repeatedly do
    if ← takesWord "extends" then
      separated extended
      return true
    else if ← takesWord "implements" then
      separated implemented
      return true
    else return false

/-- Whether the name of a class stands here, and not what it implements. -/
def seesClassName : SourceReader Bool :=
  sees View.isName <&&>
    (not <$> (seesWord "implements" <&&> behind (sees View.isAnyWord)))

def classRest : SourceReader Unit := do
  expectWord "class"
  discard (advanceIf seesClassName)
  typeParameters
  heritage
  braced classItem

end SourceReader

end DirectImports
