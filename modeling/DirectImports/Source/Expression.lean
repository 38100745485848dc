import DirectImports.Source.Operand

/-! Expressions: operands with operators before, behind and between them, conditions and
assignments. -/

namespace DirectImports

def unaryWords : List Text :=
  ["delete", "void", "typeof"].map String.toList

namespace View

def isUnary (view : View) : Bool :=
  view.isOneOf [.plus, .minus, .exclamation, .tilde] || view.isWordIn unaryWords

/-- Whether an operand may follow a name here, so that the name is none. -/
def isOperandOnLine (view : View) : Bool :=
  match view.token with
  | .word word => !view.broken && !word.isIn joiningWords
  | .literal _ => !view.broken
  | .number => !view.broken
  | _ => false

/-- Whether nothing is handed over behind `yield`. -/
def endsYield (view : View) : Bool :=
  view.isEnd || view.isWord "in" ||
    view.isOneOf [.semicolon, .closeBrace, .closeParen, .closeSquare, .colon, .comma]

end View

/-- A mark that begins with `>` as the operator that it is between two operands. -/
def joinStep (lexed : Lexed) : Option (Unit × Lexed) :=
  let read := greaterMark lexed.rest
  some ((), { lexed with token := .mark read.1, rest := read.2 })

theorem isLocal_joinStep : IsLocal joinStep := by
  intro lexed behind result hs hb more
  obtain ⟨-, rfl⟩ := Prod.mk.inj (Option.some.inj hs)
  have hrest : 3 ≤ (greaterMark lexed.rest).2.length := (Lexed.rest_of_isSettled hb).2 _ rfl
  have happend : greaterMark (lexed.rest ++ more) =
      ((greaterMark lexed.rest).1, (greaterMark lexed.rest).2 ++ more) :=
    spelledMark_settled (by decide) rfl hrest more
  simp [joinStep, Lexed.extend, happend]

namespace SourceReader

def awaitsHere : SourceReader Bool := do
  let awaits := (← setting).awaits
  seesWord "await" <&&> (pure awaits <||> behind (sees View.isOperandOnLine))

def yieldsHere : SourceReader Bool := do
  let yields := (← setting).yields
  seesWord "yield" <&&> (pure yields <||> behind (sees View.isOperandOnLine))

def changeBefore : SourceReader Form := do
  advance
  require (← phrase .unary).isPlace
  return .other

/-- An operand with an operator behind it that changes it. -/
def changeBehind : SourceReader Form := do
  let form ← operand
  if ← sees fun view => view.isOneOf [.plusPlus, .minusMinus] && !view.broken then
    require form.isPlace
    advance
    return .other
  else return form

def typeAssertion : SourceReader Form := do
  require (← typescript)
  expect .less
  pass .type
  expect .greater
  return (← phrase .unary).wrapped

def unary : SourceReader Form := do
  if ← advanceIf (sees View.isUnary) then
    pass .unary
    return .other
  else if ← seesMark .less then
    if (← setting).language.jsx then
      element
      advance
      return .other
    else typeAssertion
  else if ← awaitsHere then
    advance
    inSetting (fun setting => { setting with awaits := true }) (pass .unary)
    return .other
  else if ← seesOneOf [.plusPlus, .minusMinus] then changeBefore
  else changeBehind

/-- An operand of a binary operator. A private name may stand before `in`. -/
def binaryOperand : SourceReader Form := do
  match (← look).token with
  | .privateName =>
    require (← setting).allowsIn
    advance
    expectWord "in"
    pass .unary
    return .other
  | _ => unary

def joinAngles : SourceReader Unit := do
  if ← seesMark .greater then goes joinStep isLocal_joinStep

def binaryTurn (form : Form) : SourceReader (Turn Form Form) := do
  joinAngles
  let view ← look
  if view.isWord "as" || view.isWord "satisfies" then
    if view.broken then return .last form
    advance
    pass .type
    return .again form.wrapped
  else if view.isWord "in" && !(← setting).allowsIn then return .last form
  else if view.joins then
    advance
    discard binaryOperand
    return .again .other
  else return .last form

def binary : SourceReader Form := do
  let form ← binaryOperand
  iterate binaryTurn form

def yieldExpression : SourceReader Unit := do
  expectWord "yield"
  if !(← look).broken then
    let delegates ← takes .star
    if delegates || !(← sees View.endsYield) then
      inSetting (fun setting => { setting with yields := true }) (pass (.assignment true))

/-- What follows an operand where a condition or an assignment may come. -/
def assignmentRest (allowsReturnType : Bool) (form : Form) : SourceReader Form := do
  let view ← look
  if form = .name ∧ view.is .arrow then
    advance
    arrowBody false allowsReturnType
    return .other
  else if view.is .equals then
    require form.isTarget
    advance
    pass (.assignment allowsReturnType)
    return .assignment
  else if view.isOneOf [.assigning, .slashEquals] then
    require form.isPlace
    advance
    pass (.assignment allowsReturnType)
    return .other
  else if view.is .question then
    advance
    withIn true (pass (.assignment false))
    expect .colon
    pass (.assignment allowsReturnType)
    return .other
  else return form

def assignment (allowsReturnType : Bool) : SourceReader Form := do
  if ← yieldsHere then
    yieldExpression
    return .other
  else if ← takesArrow allowsReturnType then return .other
  else
    let form ← binary
    assignmentRest allowsReturnType form

def expression : SourceReader Form := do
  let form ← phrase (.assignment true)
  if ← seesMark .comma then
    repeatedly do
      if ← takes .comma then
        pass (.assignment true)
        return true
      else return false
    return .other
  else return form

end SourceReader

end DirectImports
