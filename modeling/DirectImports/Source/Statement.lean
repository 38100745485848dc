import DirectImports.Source.Control
import DirectImports.Source.Export
import DirectImports.Source.Expression

/-! Statements. A word that begins none of its own begins an expression or is a label. -/

namespace DirectImports

/-- Whether the word in front of this token is an operand of it. -/
def View.followsOperand (view : View) : Bool :=
  view.isOneOf [.equals, .assigning, .slashEquals] ||
    (view.joins && !view.isWord "as" && !view.isWord "satisfies")

namespace SourceReader

def expressionStatement : SourceReader Unit := do
  pass .expression
  endStatement

/-- An expression, or a statement with a label in front. -/
def labelledStatement : SourceReader Unit := do
  let form ← phrase .expression
  if form = .name ∧ (← seesMark .colon) = true then
    advance
    pass (.statement true)
  else endStatement

/-- A statement that begins with `let`, which may also be a name. -/
def letStatement (isBody : Bool) : SourceReader Unit := do
  let next ← behind look
  if next.followsOperand then
    pass (.assignment true)
    endStatement
  else if next.isOneOf [.dot, .openParen] then pass .expression
  else if next.is .semicolon || (isBody && !next.is .openSquare) then
    advance
    endStatement
  else variableStatement

/-- A class or an export of one, with what decorates it. -/
def decoratedStatement : SourceReader Unit := do
  decorators
  if ← seesWord "export" then exportStatement
  else
    discard (modifiers ⟨false, false⟩)
    classRest

/-- An import, or an expression that begins with the word. -/
def importStatement : SourceReader Unit := do
  if ← behind (seesOneOf [.openParen, .dot]) then labelledStatement else importOrAlias

def debuggerStatement : SourceReader Unit := do
  advance
  endStatement

def keywordStatements : List (String × SourceReader Unit) :=
  [("if", ifStatement), ("do", doStatement), ("while", whileStatement), ("for", forStatement),
   ("continue", jumpStatement), ("break", jumpStatement), ("return", returnStatement),
   ("with", whileStatement), ("switch", switchStatement), ("throw", throwStatement),
   ("try", tryStatement), ("debugger", debuggerStatement), ("var", variableStatement),
   ("function", function), ("class", classRest), ("export", exportStatement),
   ("import", importStatement)]

/-- A statement that begins with a word that may also be a name. -/
def contextualStatement (isBody : Bool) (word : Word) : SourceReader Unit := do
  let typed ← typescript
  if ← pure (word.is "const") <&&> (not <$> (pure typed <&&> behind (seesWord "enum"))) then
    variableStatement
  else if ← seesUsing then variableStatement
  else if word.is "let" && !word.escaped then letStatement isBody
  else if ← seesAsyncFunction then function
  else if ← pure typed <&&> beginsDeclaration then modifiedDeclaration
  else labelledStatement

def statement (isBody : Bool) : SourceReader Unit := do
  match (← look).token with
  | .word word =>
    match keywordStatements.find? fun (keyword, _) => word.is keyword with
    | some (_, reader) => reader
    | none => contextualStatement isBody word
  | .mark .openBrace => block
  | .mark .semicolon => advance
  | .mark .sign => decoratedStatement
  | _ => expressionStatement

end SourceReader

end DirectImports
