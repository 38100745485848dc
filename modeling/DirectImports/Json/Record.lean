import DirectImports.Json.Number

/-! Typed values of JSON text: strings, lists, and records, which are written as objects or as
lists of their fields in order. -/

namespace DirectImports

namespace JsonReader

/-- The problem of a value of another type that begins with `c`. -/
def readMismatch (expected : ExpectedType) (c : Char) : JsonReader FoundValue :=
  let mismatch (found : FoundValue) : JsonReader FoundValue := throw (.wrongType found expected)
  if c = 'n' then do skip; readRest "ull".toList; mismatch .null
  else if c = 't' then do skip; readRest "rue".toList; mismatch (.boolean true)
  else if c = 'f' then do skip; readRest "alse".toList; mismatch (.boolean false)
  else if c = '-' then do skip; mismatch (.number (← readNumber true))
  else if c.isDigit then do mismatch (.number (← readNumber false))
  else if c = '"' then do mismatch (.string (← readQuoted))
  else if c = '[' then mismatch .list
  else if c = '{' then mismatch .object
  else throw .noValue

def beginValue : JsonReader Char := do
  match ← peek with
  | some c => return c
  | none => throw .endInValue

def mismatch (expected : ExpectedType) (c : Char) : JsonReader α := do
  let _ ← readMismatch expected c
  throw .noValue

def readText : JsonReader Text := do
  let c ← beginValue
  if c = '"' then readQuoted else mismatch .string c

def readOptional (read : JsonReader α) : JsonReader (Option α) := do
  if (← peek) = some 'n' then
    skip
    readRest "ull".toList
    return none
  else
    return some (← read)

/-- Moves to the next value of a list; false at its end. -/
def nextValue (isFirst : Bool) : JsonReader Bool := do
  match ← peek with
  | none => throw .endInList
  | some c =>
    if c = ']' then return false
    else if isFirst then return true
    else if c = ',' then
      skip
      match ← peek with
      | none => throw .endInValue
      | some d => if d = ']' then throw .trailingComma else return true
    else throw .noCommaInList

def endList : JsonReader Unit := do
  match ← peek with
  | none => throw .endInList
  | some c =>
    if c = ']' then skip
    else if c = ',' then
      skip
      if (← peek) = some ']' then throw .trailingComma else throw .trailingCharacters
    else throw .trailingCharacters

/-- The values of a list up to its end; `fuel` exceeds the length of the text. -/
def readValues (read : JsonReader α) : Nat → Bool → JsonReader (List α)
  | 0, _ => throw .endInList
  | fuel + 1, isFirst => do
    if ← nextValue isFirst then
      let value ← read
      let values ← readValues read fuel false
      return value :: values
    else return []

def readList (read : JsonReader α) : JsonReader (List α) := do
  let c ← beginValue
  if c = '[' then
    skip
    let values ← readValues read ((← get).length + 1) true
    endList
    return values
  else mismatch .list c

/-- The next key of an object; nothing at its end. -/
def nextKey (isFirst : Bool) : JsonReader (Option Text) := do
  match ← peek with
  | none => throw .endInObject
  | some c =>
    if c = '}' then return none
    else if isFirst then
      if c = '"' then return some (← readQuoted) else throw .keyNotString
    else if c = ',' then
      skip
      match ← peek with
      | none => throw .endInValue
      | some d =>
        if d = '"' then return some (← readQuoted)
        else if d = '}' then throw .trailingComma
        else throw .keyNotString
    else throw .noCommaInObject

def readColon : JsonReader Unit := do
  match ← peek with
  | none => throw .endInObject
  | some c => if c = ':' then skip else throw .noColon

end JsonReader

structure JsonField (δ : Type) where
  name : String
  isRequired : Bool
  isSet : δ → Bool
  read : δ → JsonReader δ

/-- How a record is read: its fields, the empty draft, and the record of a draft in which the
required fields are set. -/
structure JsonRecord (δ α : Type) where
  type : RecordType
  fields : List (JsonField δ)
  empty : δ
  finish : δ → Option α

namespace JsonRecord

def field? (record : JsonRecord δ α) (name : Text) : Option (JsonField δ) :=
  record.fields.find? fun field => field.name.toList == name

def complete (record : JsonRecord δ α) (draft : δ) : JsonReader α :=
  match record.fields.find? fun field => field.isRequired && !field.isSet draft with
  | some field => throw (.missingField field.name.toList)
  | none =>
    match record.finish draft with
    | some value => return value
    | none => throw .noValue

/-- The members of an object up to its end; `fuel` exceeds the length of the text. -/
def readMembers (record : JsonRecord δ α) : Nat → Bool → δ → JsonReader δ
  | 0, _, _ => throw .endInObject
  | fuel + 1, isFirst, draft => do
    match ← JsonReader.nextKey isFirst with
    | none => return draft
    | some key =>
      match record.field? key with
      | none => throw (.unknownField key (record.fields.map fun field => field.name.toList))
      | some field =>
        if field.isSet draft then throw (.duplicateField key)
        JsonReader.readColon
        record.readMembers fuel false (← field.read draft)

/-- The fields of a list in order; fields at the end may be absent unless they are required. -/
def readInOrder (record : JsonRecord δ α) :
    List (JsonField δ) → Nat → δ → JsonReader δ
  | [], _, draft => return draft
  | field :: fields, length, draft => do
    if ← JsonReader.nextValue (length == 0) then
      record.readInOrder fields (length + 1) (← field.read draft)
    else if field.isRequired then throw (.wrongLength length record.type)
    else record.readInOrder fields length draft

def read (record : JsonRecord δ α) : JsonReader α := do
  let c ← JsonReader.beginValue
  if c = '{' then
    JsonReader.skip
    let draft ← record.readMembers ((← get).length + 1) true record.empty
    let value ← record.complete draft
    JsonReader.skip
    return value
  else if c = '[' then
    JsonReader.skip
    let draft ← record.readInOrder record.fields 0 record.empty
    let value ← record.complete draft
    JsonReader.endList
    return value
  else JsonReader.mismatch (.record record.type) c

end JsonRecord

def readJson (read : JsonReader α) (text : Text) : Except JsonProblem α := do
  let (value, rest) ← read text
  if rest.dropWhile JsonReader.isSpace = [] then return value else throw .trailingCharacters

end DirectImports
