import DirectImports.Source.Function

/-! Arrow functions. Where parentheses may hold either parameters or an expression, the head of the
function is tried first. -/

namespace DirectImports

/-- What the first tokens tell of an arrow function with parentheses. -/
inductive ArrowGuess where
  | no
  | maybe
  | yes
deriving DecidableEq, Repr

def ArrowGuess.certainly (isArrow : Bool) : ArrowGuess :=
  if isArrow then yes else no

namespace SourceReader

/-- The guess behind the name of what may be a parameter. -/
def guessBehindName : SourceReader ArrowGuess := do
  let view ← look
  if view.is .colon then return .yes
  else if view.is .question then
    .certainly <$> behind (seesOneOf [.colon, .comma, .equals, .closeParen])
  else if view.isOneOf [.comma, .equals, .closeParen] then return .maybe
  else return .no

/-- The guess behind an opening parenthesis. -/
def guessParameters : SourceReader ArrowGuess := do
  let first ← look
  if first.is .closeParen then .certainly <$> behind (seesOneOf [.arrow, .colon, .openBrace])
  else if first.isOneOf [.openSquare, .openBrace] then return .maybe
  else if first.is .spread then return .yes
  else if ← pure (first.isModifierWord && !first.isWord "async") <&&>
      behind (sees View.isName) then
    .certainly <$> behind (not <$> seesWord "as")
  else if !first.isName && !first.isWord "this" then return .no
  else behind guessBehindName

/-- The guess behind an opening angle bracket. Where elements are allowed, type parameters have a
comma, a default or a bound. -/
def guessTypeParameters (jsx : Bool) : SourceReader ArrowGuess := do
  if !(← sees fun view => view.isName || view.isWord "const") then return .no
  else if !jsx then return .maybe
  else
    discard (takesWord "const")
    advance
    if ← seesWord "extends" then
      .certainly <$> behind (not <$> seesOneOf [.equals, .greater, .slash])
    else .certainly <$> seesOneOf [.comma, .equals]

def guessArrow : SourceReader ArrowGuess :=
  ahead do
    if ← takesWord "async" then
      if (← look).broken then return .no
    if ← takes .openParen then guessParameters
    else if ← takes .less then guessTypeParameters (← setting).language.jsx
    else return .no

/-- Whether an arrow function with `async` and a single name begins here. -/
def seesAsyncArrow : SourceReader Bool :=
  seesWord "async" <&&>
    behind (sees (fun view => !view.broken && view.isName) <&&> behind (seesMark .arrow))

def arrowBody (isAsync allowsReturnType : Bool) : SourceReader Unit :=
  inSetting (fun setting => { setting with awaits := isAsync, yields := false }) do
    if ← seesMark .openBrace then inside block
    else pass (.assignment allowsReturnType)

/-- The head of an arrow function with its arrow. It tells whether the function has a return
type. -/
def arrowHead (isAsync : Bool) : SourceReader Bool :=
  inSetting (fun setting => { setting with awaits := setting.awaits || isAsync }) do
    if isAsync then advance
    typeParameters
    parameters
    let hasReturnType ← takesTyped .colon
    if hasReturnType then typeOrPredicate
    expect .arrow
    return hasReturnType

/-- Tries an arrow function. Before a colon that belongs to a condition, the return type of a
function is none unless another colon follows the function. -/
def possibleArrow (isAsync allowsReturnType : Bool) : SourceReader Bool :=
  tentatively do
    match ← attempt (arrowHead isAsync) with
    | none => return false
    | some hasReturnType =>
      if ← sees View.isEnd then return false
      arrowBody isAsync allowsReturnType
      if allowsReturnType || !hasReturnType then return true
      else seesMark .colon

def takesArrow (allowsReturnType : Bool) : SourceReader Bool := do
  let isAsync ← seesWord "async"
  if ← seesAsyncArrow then
    advance
    name
    expect .arrow
    arrowBody true allowsReturnType
    return true
  match ← guessArrow with
  | .no => return false
  | .maybe => possibleArrow isAsync allowsReturnType
  | .yes =>
    discard (arrowHead isAsync)
    arrowBody isAsync true
    return true

end SourceReader

end DirectImports
