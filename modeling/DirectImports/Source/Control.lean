import DirectImports.Source.Variable

/-! Statements that control which others run: conditions, loops, branches and jumps. -/

namespace DirectImports

namespace SourceReader

def body : SourceReader Unit :=
  pass (.statement true)

def condition : SourceReader Unit := do
  expect .openParen
  pass .expression
  expect .closeParen

def ifStatement : SourceReader Unit := do
  advance
  condition
  body
  if ← takesWord "else" then body

def whileStatement : SourceReader Unit := do
  advance
  condition
  body

def doStatement : SourceReader Unit := do
  advance
  body
  expectWord "while"
  condition
  discard (takes .semicolon)

def loopConditions : SourceReader Unit := do
  expect .semicolon
  if !(← seesOneOf [.semicolon, .closeParen]) then pass .expression
  expect .semicolon
  if !(← seesMark .closeParen) then pass .expression

/-- The head of a loop behind what it starts with, which goes over something if the words for that
follow. -/
def loopRest (isTarget : Bool) : SourceReader Unit := do
  if ← takesWord "in" then
    require isTarget
    pass .expression
  else if ← takesWord "of" then
    require isTarget
    pass (.assignment true)
  else loopConditions

def loopHead : SourceReader Unit := do
  if ← seesMark .semicolon then loopConditions
  else if ← declaresInLoop then
    withIn false variableList
    loopRest true
  else
    let form ← withIn false (phrase .expression)
    loopRest form.isTarget

def forStatement : SourceReader Unit := do
  advance
  discard (takesWord "await")
  expect .openParen
  loopHead
  expect .closeParen
  body

def jumpStatement : SourceReader Unit := do
  advance
  if !(← sees View.endsStatement) then name
  endStatement

def returnStatement : SourceReader Unit := do
  advance
  if !(← sees View.endsStatement) then pass .expression
  endStatement

def throwStatement : SourceReader Unit := do
  advance
  pass .expression
  endStatement

/-- Whether the statements of a case end here. -/
def endsCase : SourceReader Bool :=
  sees fun view =>
    view.isWord "case" || view.isWord "default" || view.is .closeBrace || view.isEnd

def switchCase : SourceReader Unit := do
  if !(← takesWord "default") then
    expectWord "case"
    pass .expression
  expect .colon
  repeatedly do
    if ← endsCase then return false
    pass (.statement false)
    return true

def switchStatement : SourceReader Unit := do
  advance
  condition
  braced switchCase

def caught : SourceReader Unit := do
  if ← takes .openParen then
    pass .binding
    typeAnnotation
    expect .closeParen

def tryStatement : SourceReader Unit := do
  advance
  block
  if ← takesWord "catch" then
    caught
    block
  if ← takesWord "finally" then block

end SourceReader

end DirectImports
