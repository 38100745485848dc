import DirectImports.Number.Shortest
import DirectImports.Text.Blank
import DirectImports.Text.Quoted

/-! What can be wrong with a JSON text, with the types of its values and with the members of its
objects. -/

namespace DirectImports

inductive JsonNumber where
  | integer (negative : Bool) (value : Nat)
  | floating (negative : Bool) (value : Binary)
deriving DecidableEq, Repr

inductive FoundValue where
  | null
  | boolean (value : Bool)
  | number (value : JsonNumber)
  | string (text : Text)
  | list
  | object
deriving DecidableEq, Repr

/-- A list may stand for a record if it has the right number of values. -/
structure RecordType where
  name : String
  size : String
deriving DecidableEq, Repr

inductive ExpectedType where
  | string
  | list
  | record (type : RecordType)
deriving DecidableEq, Repr

inductive JsonProblem where
  | endInValue
  | endInList
  | endInObject
  | endInString
  | noValue
  | badWord
  | noColon
  | noCommaInList
  | noCommaInObject
  | keyNotString
  | trailingComma
  | trailingCharacters
  | badNumber
  | numberTooLarge
  | badEscape
  | controlCharacter
  | loneSurrogate
  | unfinishedSurrogate
  | wrongType (found : FoundValue) (expected : ExpectedType)
  | wrongLength (length : Nat) (expected : RecordType)
  | unknownField (name : Text) (known : List Text)
  | missingField (name : Text)
  | duplicateField (name : Text)
deriving DecidableEq, Repr

def codeQuoted (text : Text) : Text :=
  '`' :: (text ++ ['`'])

def JsonNumber.text : JsonNumber → Text
  | integer negative value => (if negative then ['-'] else []) ++ decimal value
  | floating negative value => (if negative then ['-'] else []) ++ value.text

def FoundValue.text : FoundValue → Text
  | null => "null".toList
  | boolean value => "boolean ".toList ++ codeQuoted (if value then "true" else "false").toList
  | number (.integer negative value) =>
    "integer ".toList ++ codeQuoted (JsonNumber.integer negative value).text
  | number (.floating negative value) =>
    "floating point ".toList ++ codeQuoted (JsonNumber.floating negative value).text
  | string text => "string ".toList ++ quoted text
  | list => "sequence".toList
  | object => "map".toList

def ExpectedType.text : ExpectedType → Text
  | string => "a string".toList
  | list => "a sequence".toList
  | record type => "struct ".toList ++ type.name.toList

/-- The fields that an object may have. -/
def knownFieldsText (known : List Text) : Text :=
  match known with
  | [] => "there are no fields".toList
  | [name] => "expected ".toList ++ codeQuoted name
  | [first, second] => "expected ".toList ++ codeQuoted first ++ " or ".toList ++ codeQuoted second
  | names => "expected one of ".toList ++ joinWith ", ".toList (names.map codeQuoted)

def JsonProblem.message : JsonProblem → Text
  | endInValue => "EOF while parsing a value".toList
  | endInList => "EOF while parsing a list".toList
  | endInObject => "EOF while parsing an object".toList
  | endInString => "EOF while parsing a string".toList
  | noValue => "expected value".toList
  | badWord => "expected ident".toList
  | noColon => "expected ".toList ++ codeQuoted [':']
  | noCommaInList => "expected ".toList ++ codeQuoted [','] ++ " or ".toList ++ codeQuoted [']']
  | noCommaInObject =>
    "expected ".toList ++ codeQuoted [','] ++ " or ".toList ++ codeQuoted ['\x7d']
  | keyNotString => "key must be a string".toList
  | trailingComma => "trailing comma".toList
  | trailingCharacters => "trailing characters".toList
  | badNumber => "invalid number".toList
  | numberTooLarge => "number out of range".toList
  | badEscape => "invalid escape".toList
  | controlCharacter =>
    "control character (\\u0000-\\u001F) found while parsing a string".toList
  | loneSurrogate => "lone leading surrogate in hex escape".toList
  | unfinishedSurrogate => "unexpected end of hex escape".toList
  | wrongType found expected =>
    "invalid type: ".toList ++ found.text ++ ", expected ".toList ++ expected.text
  | wrongLength length expected =>
    "invalid length ".toList ++ decimal length ++ ", expected struct ".toList ++
      expected.name.toList ++ " with ".toList ++ expected.size.toList
  | unknownField name known =>
    "unknown field ".toList ++ codeQuoted name ++ ", ".toList ++ knownFieldsText known
  | missingField name => "missing field ".toList ++ codeQuoted name
  | duplicateField name => "duplicate field ".toList ++ codeQuoted name

end DirectImports
