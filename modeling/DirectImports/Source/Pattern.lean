import DirectImports.Source.Modifier

/-! What binds names: patterns, parameters and the names of members. -/

namespace DirectImports

namespace SourceReader

def typeAnnotation : SourceReader Unit := do
  if ← takesTyped .colon then pass .type

def computedName : SourceReader Unit := do
  expect .openSquare
  inside (pass (.assignment true))
  expect .closeSquare

def propertyName : SourceReader Unit := do
  match (← look).token with
  | .word _ => advance
  | .literal _ => advance
  | .number => advance
  | _ => computedName

def initializer : SourceReader Unit := do
  if ← takes .equals then inside (pass (.assignment true))

def bindingElement : SourceReader Unit := do
  pass .binding
  discard (takesTyped .question)
  typeAnnotation
  initializer

def restElement : SourceReader Unit := do
  expect .spread
  bindingElement

def bindingProperty : SourceReader Unit := do
  if ← seesMark .spread then restElement
  else
    let isName ← sees View.isName
    propertyName
    if isName && !(← seesMark .colon) then initializer
    else
      expect .colon
      bindingElement

/-- An element of an array pattern, which may be left out. -/
def bindingItem : SourceReader Unit := do
  if ← seesMark .spread then restElement
  else if !(← seesMark .comma) then bindingElement

def binding : SourceReader Unit := do
  if ← seesMark .openBrace then discard (enclosed .openBrace .closeBrace bindingProperty)
  else if ← seesMark .openSquare then discard (enclosed .openSquare .closeSquare bindingItem)
  else name

def decorators : SourceReader Unit :=
  repeatedly do
    if ← takes .sign then
      inSetting (fun setting => { setting with decorates := true }) (pass .operand)
      return true
    else return false

def parameter : SourceReader Unit := do
  decorators
  if ← seesMark .spread then restElement
  else
    discard (modifiers ⟨false, false⟩)
    bindingElement

/-- The parameter `this` of a function, which has a type only. -/
def thisParameter : SourceReader Unit := do
  if ← typescript then
    if ← takesWord "this" then
      typeAnnotation
      if !(← seesMark .closeParen) then expect .comma

def parameters : SourceReader Unit := do
  expect .openParen
  thisParameter
  discard (elements .closeParen parameter)

end SourceReader

end DirectImports
