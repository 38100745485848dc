import DirectImports.Source.Pattern

/-! Types, which stand behind a colon, between angle brackets, or in a declaration of their own. -/

namespace DirectImports

def simpleTypes : List Text :=
  ["any", "unknown", "string", "number", "bigint", "symbol", "boolean", "undefined", "never",
   "object"].map String.toList

def valueTypes : List Text :=
  ["void", "null", "true", "false"].map String.toList

def typeOperators : List Text :=
  ["keyof", "unique", "readonly"].map String.toList

namespace View

def beginsPrimaryType (view : View) : Bool :=
  match view.token with
  | .literal _ => true
  | .number => true
  | .template _ => true
  | .word word =>
    !isReserved word.text ||
      word.isIn (["void", "null", "this", "typeof", "new", "true", "false", "import",
        "function"].map
        String.toList)
  | .mark mark =>
    [.openBrace, .openSquare, .openParen, .less, .pipe, .ampersand, .star, .question,
      .exclamation, .spread].contains mark
  | _ => false

end View

namespace SourceReader

def seesConstructorType : SourceReader Bool :=
  seesWord "new" <||> (seesWord "abstract" <&&> behind (seesWord "new"))

/-- Whether a colon follows, perhaps behind a question mark. -/
def precedesType : SourceReader Bool :=
  behind (seesMark .colon <||> (seesMark .question <&&> behind (seesMark .colon)))

/-- Whether the key of an index signature has ended behind its first name. -/
def endsIndexKey : SourceReader Bool := do
  if ← seesOneOf [.colon, .comma] then return true
  else seesMark .question <&&> behind (seesOneOf [.colon, .comma, .closeSquare])

/-- Whether the brackets that open here hold the key of an index signature. -/
def seesIndexSignature : SourceReader Bool :=
  seesMark .openSquare <&&> behind do
    if ← seesOneOf [.spread, .closeSquare] then return true
    else if ← sees View.isModifierWord <&&> behind (sees View.isName) then return true
    else sees View.isName <&&> behind endsIndexKey

/-- Whether the braces that open here hold the members of a mapped type. -/
def seesMappedType : SourceReader Bool :=
  behind do
    if ← seesOneOf [.plus, .minus] then behind (seesWord "readonly")
    else
      discard (takesWord "readonly")
      seesMark .openSquare <&&> behind (sees View.isAnyWord <&&> behind (seesWord "in"))

def seesNamedElement : SourceReader Bool :=
  ahead do
    discard (takes .spread)
    sees View.isAnyWord <&&> precedesType

def beginsType : SourceReader Bool := do
  if ← seesMark .minus then behind (sees fun view => view.token = .number)
  else sees View.beginsPrimaryType

/-- A mark that begins with `<`, as this character alone. -/
def splitStep (lexed : Lexed) : Option (Unit × Lexed) :=
  some ((), { lexed with token := .mark .less, rest := lexed.start.drop 1 })

theorem isLocal_splitStep : IsLocal splitStep := by
  intro lexed behind result hs hb more
  obtain ⟨-, rfl⟩ := Prod.mk.inj (Option.some.inj hs)
  have hrest := drop_one_append (Lexed.rest_of_isSettled hb).1 more
  simp [splitStep, Lexed.extend, hrest]

def splitAngles : SourceReader Unit := do
  if ← seesMark .shiftLeft then goes splitStep isLocal_splitStep

def typeArguments : SourceReader Unit := do
  splitAngles
  discard (enclosed .less .greater (pass .type))

def opensTypeArguments : SourceReader Bool :=
  seesOneOf [.less, .shiftLeft]

/-- The arguments of the name of a type; they begin on its line. -/
def argumentsOfName : SourceReader Unit := do
  if ← sees fun view => !view.broken && view.isOneOf [.less, .shiftLeft] then typeArguments

def typeParameter : SourceReader Unit := do
  discard (modifiers ⟨true, false⟩)
  name
  if ← takesWord "extends" then pass .type
  if ← takes .equals then pass .type

/-- The type parameters of a declaration, which only TypeScript has. -/
def typeParameters : SourceReader Unit := do
  if ← takesTyped .less then discard (elements .greater typeParameter)

def restOfPath : SourceReader Unit :=
  repeatedly do
    if ← takes .dot then
      anyWord
      return true
    else return false

def path : SourceReader Unit := do
  anyWord
  restOfPath

def typeOrPredicate : SourceReader Unit := do
  if ← sees View.isAnyWord <&&> precedesWord "is" then
    advance
    advance
  pass .type

def returnType : SourceReader Unit := do
  if ← takesTyped .colon then typeOrPredicate

def endMember : SourceReader Unit := do
  if !(← takes .comma) then endStatement

def indexKey : SourceReader Unit := do
  discard (modifiers ⟨false, false⟩)
  anyWord
  expect .colon
  pass .type

def indexSignature : SourceReader Unit := do
  discard (enclosed .openSquare .closeSquare indexKey)
  expect .colon
  pass .type
  endMember

/-- The parameters and the result of a member that is called. -/
def callSignature : SourceReader Unit := do
  typeParameters
  parameters
  returnType
  endMember

def opensCall : SourceReader Bool :=
  seesOneOf [.openParen, .less]

def propertySignature : SourceReader Unit := do
  propertyName
  discard (takes .question)
  if ← opensCall then callSignature
  else
    typeAnnotation
    endMember

def typeMember : SourceReader Unit := do
  if ← opensCall then callSignature
  else if ← seesWord "new" <&&> behind opensCall then
    advance
    callSignature
  else
    discard (modifiers ⟨false, false⟩)
    if ← takesModifier "get" then
      propertyName
      callSignature
    else if ← takesModifier "set" then
      propertyName
      callSignature
    else if ← seesIndexSignature then indexSignature
    else propertySignature

def typeMembers : SourceReader Unit :=
  braced typeMember

/-- A sign in front of a word or a mark of a mapped type. -/
def takesSign : SourceReader Bool :=
  takes .plus <||> takes .minus

def mappedType : SourceReader Unit := do
  expect .openBrace
  if ← takesSign then expectWord "readonly"
  else discard (takesWord "readonly")
  expect .openSquare
  anyWord
  expectWord "in"
  pass .type
  if ← takesWord "as" then pass .type
  expect .closeSquare
  if ← takesSign then expect .question
  else discard (takes .question)
  if ← takes .colon then pass .type
  discard (takes .semicolon)
  expect .closeBrace

def tupleElement : SourceReader Unit := do
  let isNamed ← seesNamedElement
  discard (takes .spread)
  if isNamed then
    anyWord
    discard (takes .question)
    expect .colon
    discard (takes .spread)
  pass .type

/-- The part of a template literal behind a hole. -/
def templateStep (lexed : Lexed) : Option (Unit × Lexed) :=
  (readTemplate lexed.rest).map fun (isOpen, rest) =>
    ((), { lexed with token := .template isOpen, rest := rest })

theorem isLocal_templateStep : IsLocal templateStep := by
  intro lexed behind result hs hb more
  obtain ⟨⟨isOpen, rest⟩, hread, hs⟩ := Option.map_eq_some_iff.mp hs
  obtain ⟨-, rfl⟩ := Prod.mk.inj hs
  have hrest := readTemplate_append hread more
  simp [templateStep, Lexed.extend, hrest]

/-- The rest of a template literal whose holes hold a phrase. -/
def templateHoles (hole : Phrase) : SourceReader Unit :=
  repeatedly do
    match (← look).token with
    | .template true =>
      advance
      inside (pass hole)
      standAt .closeBrace
      goes templateStep isLocal_templateStep
      return true
    | .template false =>
      advance
      return false
    | _ => refuse

def importType : SourceReader Unit := do
  expectWord "import"
  expect .openParen
  pass .type
  if ← takes .comma then
    if !(← seesMark .closeParen) then pass (.assignment true)
    discard (takes .comma)
  expect .closeParen
  restOfPath
  argumentsOfName

def typeQuery : SourceReader Unit := do
  expectWord "typeof"
  if ← seesWord "import" then importType
  else
    path
    argumentsOfName

/-- A type in front of which a question mark stands, or none at all. -/
def nullableType : SourceReader Unit := do
  expect .question
  if !(← seesOneOf [.comma, .closeBrace, .closeParen, .greater, .equals, .pipe]) then pass .type

def namedType : SourceReader Unit := do
  if ← sees (fun view => view.isWordIn simpleTypes) <&&> (not <$> behind (seesMark .dot)) then
    advance
  else
    path
    argumentsOfName

def assertion : SourceReader Unit := do
  expectWord "asserts"
  anyWord
  if ← takesWord "is" then pass .type

def thisType : SourceReader Unit := do
  expectWord "this"
  if ← sees fun view => view.isWord "is" && !view.broken then
    advance
    pass .type

def typeOfWord : SourceReader Unit := do
  let view ← look
  if view.isWordIn valueTypes then advance
  else if view.isWord "this" then thisType
  else if view.isWord "typeof" then typeQuery
  else if view.isWord "import" then importType
  else if ← seesWord "asserts" <&&> behind (sees fun view => view.isAnyWord && !view.broken) then
    assertion
  else namedType

def primaryType : SourceReader Unit := do
  match (← look).token with
  | .word _ => typeOfWord
  | .literal _ => advance
  | .number => advance
  | .template _ => templateHoles .type
  | .mark .minus =>
    advance
    match (← look).token with
    | .number => advance
    | _ => refuse
  | .mark .question => nullableType
  | .mark .openBrace => if ← seesMappedType then mappedType else typeMembers
  | .mark .openSquare => discard (enclosed .openSquare .closeSquare tupleElement)
  | .mark .openParen =>
    advance
    pass .type
    expect .closeParen
  | _ => refuse

/-- What stands behind a type on its line: the brackets of an array or of an index, or a mark. -/
def typeSuffix : SourceReader Bool := do
  let view ← look
  if view.broken then return false
  else if view.is .exclamation then
    advance
    return true
  else if ← seesMark .question <&&> (not <$> behind beginsType) then
    advance
    return true
  else if view.is .openSquare then
    advance
    if ← beginsType then pass .type
    expect .closeSquare
    return true
  else return false

def postfixType : SourceReader Unit := do
  primaryType
  repeatedly typeSuffix

/-- A condition on a type that is inferred. It is none if a question mark follows where a
condition may stand. -/
def inferredCondition : SourceReader Unit := do
  expectWord "extends"
  withPlainTypes true (pass .type)
  require ((← setting).isPlainType || !(← seesMark .question))

def inferredType : SourceReader Unit := do
  expectWord "infer"
  name
  discard (attempt inferredCondition)

def operatorType : SourceReader Unit := do
  repeatedly (advanceIf (sees fun view => view.isWordIn typeOperators))
  if ← seesWord "infer" then inferredType
  else withPlainTypes false postfixType

/-- Types with an operator between them, and perhaps one in front. -/
def joinedTypes (operator : Mark) (type : SourceReader Unit) : SourceReader Unit := do
  discard (takes operator)
  type
  repeatedly do
    if ← takes operator then
      type
      return true
    else return false

def unionType : SourceReader Unit :=
  joinedTypes .pipe (joinedTypes .ampersand operatorType)

def parameterStart : SourceReader Unit := do
  if ← sees View.isModifierWord then discard (modifiers ⟨false, false⟩)
  if ← sees fun view => view.isName || view.isWord "this" then advance
  else
    require (← seesOneOf [.openSquare, .openBrace])
    pass .binding

/-- Whether the parentheses that open here hold the parameters of a function type. -/
def holdsParameters : SourceReader Bool := do
  expect .openParen
  if ← seesOneOf [.closeParen, .spread] then return true
  parameterStart
  if ← seesOneOf [.colon, .comma, .question, .equals] then return true
  takes .closeParen <&&> seesMark .arrow

def seesFunctionType : SourceReader Bool :=
  seesMark .less <||> seesConstructorType <||>
    (seesMark .openParen <&&> foresee holdsParameters)

def functionType : SourceReader Unit := do
  discard (takesWord "abstract")
  discard (takesWord "new")
  typeParameters
  parameters
  expect .arrow
  typeOrPredicate

/-- Whether a condition of a type begins on the line of its end. -/
def opensCondition : SourceReader Bool := do
  let setting ← setting
  sees fun view => !setting.isPlainType && !view.broken && view.isWord "extends"

def type : SourceReader Unit := do
  if ← seesFunctionType then functionType
  else
    unionType
    if ← opensCondition then
      advance
      withPlainTypes true (pass .type)
      expect .question
      withPlainTypes false (pass .type)
      expect .colon
      withPlainTypes false (pass .type)

end SourceReader

end DirectImports
