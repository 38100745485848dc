import DirectImports.Json.Problem

/-! Readers of JSON text. A reader goes from left to right and stops at the first problem. -/

namespace DirectImports

abbrev JsonReader := StateT Text (Except JsonProblem)

namespace JsonReader

def isSpace (c : Char) : Bool :=
  c == ' ' || c == '\n' || c == '\t' || c == '\r'

/-- The next character that is no space. It is not taken. -/
def peek : JsonReader (Option Char) := fun text =>
  let text := text.dropWhile isSpace
  return (text.head?, text)

def skip : JsonReader Unit := fun text => return ((), text.drop 1)

def readRest : Text → JsonReader Unit
  | [], text => return ((), text)
  | c :: expected, text =>
    match text with
    | [] => throw .endInValue
    | d :: rest => if c = d then readRest expected rest else throw .badWord

def readHex : JsonReader Nat := fun text =>
  match text.take 4 |>.mapM hexValue? with
  | some [a, b, c, d] => return (((a * 16 + b) * 16 + c) * 16 + d, text.drop 4)
  | _ => if byteLength text < 4 then throw .endInString else throw .badEscape

def isLeadingSurrogate (code : Nat) : Bool :=
  0xd800 ≤ code && code ≤ 0xdbff

def isTrailingSurrogate (code : Nat) : Bool :=
  0xdc00 ≤ code && code ≤ 0xdfff

/-- The next character of a text, which must be `expected`. -/
def readSurrogateMark (expected : Char) : JsonReader Unit := fun text =>
  match text with
  | [] => throw .endInString
  | c :: rest => if c = expected then return ((), rest) else throw .unfinishedSurrogate

/-- The code after `\u`; a leading surrogate goes with a trailing one. -/
def readUnicode : JsonReader Char := do
  let code ← readHex
  if isTrailingSurrogate code then throw .loneSurrogate
  else if isLeadingSurrogate code then
    readSurrogateMark '\\'
    readSurrogateMark 'u'
    let trailing ← readHex
    if isTrailingSurrogate trailing then
      return Char.ofNat (0x10000 + (code - 0xd800) * 0x400 + (trailing - 0xdc00))
    else throw .loneSurrogate
  else return Char.ofNat code

def readEscape : JsonReader Char := fun text =>
  match text with
  | [] => throw .endInString
  | '"' :: rest => return ('"', rest)
  | '\\' :: rest => return ('\\', rest)
  | '/' :: rest => return ('/', rest)
  | 'b' :: rest => return ('\x08', rest)
  | 'f' :: rest => return ('\x0c', rest)
  | 'n' :: rest => return ('\n', rest)
  | 'r' :: rest => return ('\r', rest)
  | 't' :: rest => return ('\t', rest)
  | 'u' :: rest => readUnicode rest
  | _ => throw .badEscape

/-- The characters up to the closing quote; `fuel` exceeds the length of the text. -/
def readCharacters : Nat → JsonReader Text
  | 0, _ => throw .endInString
  | fuel + 1, text =>
    match text with
    | [] => throw .endInString
    | c :: rest =>
      if c = '"' then return ([], rest)
      else if c = '\\' then do
        let (d, rest) ← readEscape rest
        let (characters, rest) ← readCharacters fuel rest
        return (d :: characters, rest)
      else if c.toNat < 0x20 then throw .controlCharacter
      else do
        let (characters, rest) ← readCharacters fuel rest
        return (c :: characters, rest)

def readQuoted : JsonReader Text := fun text =>
  readCharacters text.length (text.drop 1)

end JsonReader

end DirectImports
