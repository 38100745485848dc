import DirectImports.Source.Arrow
import DirectImports.Source.Element

/-! Operands: literals, names, functions and classes, and what is reached from them by members,
calls and templates. -/

namespace DirectImports

def valueWords : List Text :=
  ["this", "null", "true", "false", "super"].map String.toList

/-- Words that may begin an expression though they name nothing. -/
def leadingWords : List Text :=
  ["function", "class", "new", "typeof", "void", "delete"].map String.toList ++ valueWords

def joiningWords : List Text :=
  ["in", "instanceof", "as", "satisfies"].map String.toList

namespace View

/-- Whether what stands here may join two operands. -/
def joins (view : View) : Bool :=
  view.isWordIn joiningWords ||
    view.isOneOf [.joining, .less, .greater, .shiftLeft, .star, .slash, .plus, .minus, .pipe,
      .ampersand]

/-- Whether an expression that is no import may begin here. -/
def beginsExpression (view : View) : Bool :=
  match view.token with
  | .word word => !isReserved word.text || word.isIn leadingWords
  | .privateName => true
  | .literal _ => true
  | .number => true
  | .template _ => true
  | .mark mark =>
    [.openParen, .openSquare, .openBrace, .slash, .slashEquals, .plus, .minus, .plusPlus,
      .minusMinus, .exclamation, .tilde, .less, .sign].contains mark
  | .broken => false
  | .finish => false

end View

/-- The text from a slash on as a regular expression. -/
def regexStep (lexed : Lexed) : Option (Unit × Lexed) :=
  some ((), nextToken (readRegex (lexed.start.drop 1)))

/-- Whether an equals sign touches the token. -/
def touchStep (lexed : Lexed) : Option (Bool × Lexed) :=
  some (lexed.rest.head? == some '=', lexed)

theorem isLocal_regexStep : IsLocal regexStep := by
  intro lexed behind result hs hb more
  obtain ⟨-, rfl⟩ := Prod.mk.inj (Option.some.inj hs)
  have hregex := ne_nil_of_isSettled hb
  have hstart : lexed.start.drop 1 ≠ [] := by
    intro hn
    rw [hn] at hregex
    exact hregex rfl
  change some ((), nextToken (readRegex ((lexed.start ++ more).drop 1))) = _
  rw [drop_one_append hstart, readRegex_append hregex, nextToken_settled hb]

theorem isLocal_touchStep : IsLocal touchStep := by
  intro lexed behind result hs hb more
  obtain ⟨rfl, rfl⟩ := Prod.mk.inj (Option.some.inj hs)
  obtain ⟨c, rest, hr⟩ := List.exists_cons_of_ne_nil (Lexed.rest_of_isSettled hb).1
  simp [touchStep, Lexed.extend, hr]

namespace SourceReader

def beginsExpression : SourceReader Bool := do
  if ← seesWord "import" then behind (seesOneOf [.openParen, .less, .dot])
  else sees View.beginsExpression

/-- Whether the arguments of a type in an expression may have ended before this token. -/
def followsTypeArguments : SourceReader Bool := do
  let view ← look
  if view.is .openParen || view.isTemplate then return true
  else if view.isOneOf [.less, .greater, .plus, .minus] then return false
  else if view.broken || view.joins then return true
  else return !(← beginsExpression)

/-- An element of a list of values; tells whether more is spread there, and its form. -/
def item : SourceReader (Bool × Form) := do
  let isSpread ← takes .spread
  return (isSpread, ← phrase (.assignment true))

/-- Whether items can be those of a pattern, where only the last one may stand for the rest. -/
def isPattern : List (Bool × Form) → Bool
  | [] => true
  | [(true, form)] => form.isTarget
  | (isSpread, form) :: items => !isSpread && form.isElement && isPattern items

def literalForm (items : List (Bool × Form)) : Form :=
  if isPattern items then .pattern else .other

/-- An element of an array, which may be left out. -/
def arrayItem : SourceReader (Bool × Form) := do
  if ← seesMark .comma then return (false, .place) else item

def array : SourceReader Form :=
  literalForm <$> enclosed .openSquare .closeSquare (inside arrayItem)

/-- A method of an object, which is no part of a pattern. -/
def objectMethod (isAsync isGenerator : Bool) : SourceReader (Bool × Form) := do
  functionRest isAsync isGenerator
  return (false, .other)

/-- A property from its name on. A name alone stands for a variable. -/
def objectProperty (isAsync : Bool) : SourceReader (Bool × Form) := do
  let isGenerator ← takes .star
  let isName ← sees View.isName
  propertyName
  if ← pure isGenerator <||> opensCall then objectMethod isAsync isGenerator
  else if isName && !(← seesMark .colon) then
    initializer
    return (false, .place)
  else
    expect .colon
    return (false, ← phrase (.assignment true))

def objectAccessor : SourceReader (Bool × Form) := do
  propertyName
  objectMethod false false

def objectItem : SourceReader (Bool × Form) := do
  if ← seesMark .spread then item
  else
    let isAsync ← modifiers ⟨false, false⟩
    if ← takesModifier "get" then objectAccessor
    else if ← takesModifier "set" then objectAccessor
    else objectProperty isAsync

def object : SourceReader Form :=
  literalForm <$> enclosed .openBrace .closeBrace (inside objectItem)

def parenthesized : SourceReader Form := do
  expect .openParen
  let form ← inside (phrase .expression)
  expect .closeParen
  return form.wrapped

def arguments : SourceReader Unit := do
  discard (enclosed .openParen .closeParen (inside item))

/-- Type arguments in an expression, which may as well be comparisons. -/
def argumentsInExpression : SourceReader Unit := do
  require (← typescript)
  splitAngles
  expect .less
  discard (elementsBefore .greater (pass .type))
  standAt .greater
  require !(← goes touchStep isLocal_touchStep)
  advance
  require (← followsTypeArguments)

def memberBehindDot : SourceReader Unit := do
  match (← look).token with
  | .word _ => advance
  | .privateName => advance
  | _ => refuse

def memberInBrackets : SourceReader Unit := do
  expect .openSquare
  inside (pass .expression)
  expect .closeSquare

/-- An access that begins with a question mark and a dot. -/
def optionalAccess : SourceReader Unit := do
  expect .optionalDot
  let view ← look
  if view.is .openParen then arguments
  else if view.is .openSquare && !(← setting).decorates then memberInBrackets
  else if view.isTemplate then templateHoles .expression
  else if view.isOneOf [.less, .shiftLeft] then
    argumentsInExpression
    if ← sees View.isTemplate then templateHoles .expression else arguments
  else memberBehindDot

/-- What follows an operand with a form; nothing if it ends here. -/
def access? (allowsCalls : Bool) (form : Form) : SourceReader (Option Form) := do
  let view ← look
  match view.token with
  | .mark .dot =>
    advance
    memberBehindDot
    return some .place
  | .mark .openSquare =>
    if (← setting).decorates then return none
    memberInBrackets
    return some .place
  | .mark .openParen =>
    if !allowsCalls then return none
    arguments
    return some .other
  | .mark .exclamation =>
    if view.broken || !(← typescript) then return none
    advance
    return some form.wrapped
  | .template _ =>
    templateHoles .expression
    return some .other
  | .mark mark =>
    if mark = .less ∨ mark = .shiftLeft then
      return (← attempt argumentsInExpression).map fun _ => .other
    else return none
  | _ => return none

/-- Whether an access begins with a question mark and a dot, which is no call. -/
def seesOptionalAccess (allowsCalls : Bool) : SourceReader Bool :=
  seesMark .optionalDot <&&>
    (pure allowsCalls <||> (not <$> behind (seesMark .openParen)))

def accessTurn (allowsCalls : Bool) :
    Bool × Form → SourceReader (Turn (Bool × Form) Form)
  | (isOptional, form) => do
    if ← seesOptionalAccess allowsCalls then
      optionalAccess
      return .again (true, .place)
    else
      match ← access? allowsCalls form with
      | some form => return .again (isOptional, form)
      | none => return .last (if isOptional then .other else form)

/-- All that follows an operand. Behind a question mark and a dot nothing can be assigned to. -/
def accesses (allowsCalls : Bool) (form : Form) : SourceReader Form :=
  iterate (accessTurn allowsCalls) (false, form)

def importArguments : SourceReader Unit := do
  expect .openParen
  inside (pass (.assignment true))
  if ← takes .comma then
    if !(← seesMark .closeParen) then
      inside (pass (.assignment true))
      discard (takes .comma)
  expect .closeParen

/-- The word `import` in an expression: a call, or the place of the module itself. -/
def importExpression : SourceReader Unit := do
  expectWord "import"
  if ← takes .dot then
    if !(← takesWord "meta") then
      require (← sees fun view => view.isWord "source" || view.isWord "defer")
      advance
      importArguments
  else importArguments

def decoratedClass : SourceReader Unit := do
  decorators
  discard (modifiers ⟨false, false⟩)
  classRest

def wordOperand : SourceReader Form := do
  if ← seesWord "function" <||> seesAsyncFunction then
    function
    return .other
  else if ← seesWord "class" then
    classRest
    return .other
  else if ← advanceIf (sees fun view => view.isWordIn valueWords) then return .other
  else if ← seesWord "import" then
    importExpression
    return .other
  else
    name
    return .name

/-- An operand without anything behind it, except `new`. -/
def primaryOperand : SourceReader Form := do
  match (← look).token with
  | .word _ => wordOperand
  | .literal _ =>
    advance
    return .other
  | .number =>
    advance
    return .other
  | .template _ =>
    templateHoles .expression
    return .other
  | .mark .openParen => parenthesized
  | .mark .openSquare => array
  | .mark .openBrace => object
  | .mark .sign =>
    decoratedClass
    return .other
  | .mark mark =>
    if mark = .slash ∨ mark = .slashEquals then
      goes regexStep isLocal_regexStep
      return .other
    else if mark = .less ∧ (← setting).language.jsx then
      element
      advance
      return .other
    else refuse
  | _ => refuse

/-- An operand behind any number of words `new`, each of which may have arguments. -/
def creation : SourceReader Form := do
  if ← takesWord "new" then
    if ← takes .dot then expectWord "target"
    else
      let form ← phrase .creation
      discard (accesses false form)
      if ← seesMark .openParen then arguments
    return .other
  else primaryOperand

def operand : SourceReader Form := do
  let form ← phrase .creation
  accesses true form

end SourceReader

end DirectImports
