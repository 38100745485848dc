import DirectImports.Json.Problem

/-! JSON values and their text with indentation. The members of an object are written in the
order of their keys. -/

namespace DirectImports

inductive JsonValue where
  | null
  | bool (value : Bool)
  | number (value : JsonNumber)
  | string (text : Text)
  | list (values : List JsonValue)
  | object (members : List (Text × JsonValue))

def jsonChar (c : Char) : Text :=
  if c = '"' then ['\\', '"']
  else if c = '\\' then ['\\', '\\']
  else if c = '\n' then ['\\', 'n']
  else if c = '\r' then ['\\', 'r']
  else if c = '\t' then ['\\', 't']
  else if c = '\x08' then ['\\', 'b']
  else if c = '\x0c' then ['\\', 'f']
  else if c.toNat < 0x10 then ['\\', 'u', '0', '0', '0'] ++ Nat.toDigits 16 c.toNat
  else if c.toNat < 0x20 then ['\\', 'u', '0', '0'] ++ Nat.toDigits 16 c.toNat
  else [c]

def jsonString (text : Text) : Text :=
  '"' :: (text.flatMap jsonChar ++ ['"'])

/-- Lines between brackets, with commas between the items; nothing stands between the brackets
of an empty list. -/
def bracketLines (opening closing : Char) (items : List (List Text)) : List Text :=
  let indent (line : Text) : Text := ' ' :: ' ' :: line
  let withComma (lines : List Text) : List Text :=
    lines.dropLast ++ [lines.getLastD [] ++ [',']]
  match items.getLast? with
  | none => [[opening, closing]]
  | some last =>
    [opening] :: (items.dropLast.flatMap withComma ++ last).map indent ++ [[closing]]

def memberLines (key : Text) : List Text → List Text
  | [] => [jsonString key ++ [':']]
  | line :: lines => (jsonString key ++ [':', ' '] ++ line) :: lines

def sortByKey (members : List (Text × α)) : List (Text × α) :=
  members.mergeSort fun a b => textPrecedes a.1 b.1

mutual

def JsonValue.lines : JsonValue → List Text
  | .null => ["null".toList]
  | .bool value => [(if value then "true" else "false").toList]
  | .number value => [value.text]
  | .string text => [jsonString text]
  | .list values => bracketLines '[' ']' (valueLines values)
  | .object members =>
    bracketLines '\x7b' '\x7d'
      ((sortByKey (memberValueLines members)).map fun (key, lines) => memberLines key lines)

def valueLines : List JsonValue → List (List Text)
  | [] => []
  | value :: values => value.lines :: valueLines values

def memberValueLines : List (Text × JsonValue) → List (Text × List Text)
  | [] => []
  | (key, value) :: members => (key, value.lines) :: memberValueLines members

end

def JsonValue.indented (value : JsonValue) : Text :=
  joinWith ['\n'] value.lines

end DirectImports
