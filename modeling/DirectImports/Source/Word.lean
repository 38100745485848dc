import DirectImports.Text.Digits
import DirectImports.Unicode.Identifier

/-! Words: identifiers and keywords. A character of a word may be given by its code; a code that
may not stand at its place is dropped. -/

namespace DirectImports

structure Word where
  text : Text
  escaped : Bool
deriving DecidableEq, Repr

@[inline] def Word.is (word : Word) (keyword : String) : Bool :=
  word.text == keyword.toList

def Word.isIn (word : Word) (keywords : List Text) : Bool :=
  keywords.contains word.text

inductive WordMode where
  | plain
  | backslash
  | code
  | digits (left value : Nat)
  | braced (value : Option Nat)
deriving DecidableEq, Repr

/-- What one character of a word leads to: the end of the word, or another character of it and how
to go on. -/
inductive WordStep where
  | stop
  | more (added : Option Char) (mode : WordMode)

/-- The character of a code, if it may stand in a word. -/
def wordChar? (isFirst : Bool) (code : Nat) : Option Char :=
  let c := Char.ofNat code
  let fits := if isFirst then isIdentifierStart c else isIdentifierPart c
  if code.isValidChar ∧ fits then some c else none

def plainWordStep (c : Char) : WordStep :=
  if isIdentifierPart c then .more (some c) .plain
  else if c = '\\' then .more none .backslash
  else .stop

/-- A code ends where a character does not continue it. -/
def wordStep (isFirst : Bool) : WordMode → Char → WordStep
  | .plain, c => plainWordStep c
  | .backslash, c => .more none (if c = 'u' then .code else .plain)
  | .code, c =>
    if c = '\x7b' then .more none (.braced none)
    else match hexValue? c with
      | some value => .more none (.digits 3 value)
      | none => plainWordStep c
  | .digits left value, c =>
    match hexValue? c with
    | some digit =>
      let value := 16 * value + digit
      if left ≤ 1 then .more (wordChar? isFirst value) .plain
      else .more none (.digits (left - 1) value)
    | none => plainWordStep c
  | .braced value, c =>
    match hexValue? c, value with
    | some digit, _ =>
      let value := 16 * value.getD 0 + digit
      .more none (if value ≤ 0x10ffff then .braced (some value) else .plain)
    | none, some value =>
      if c = '\x7d' then .more (wordChar? isFirst value) .plain else plainWordStep c
    | none, none => plainWordStep c

def prependChar (added : Option Char) (escaped : Bool) (read : Word × Text) : Word × Text :=
  (⟨added.toList ++ read.1.text, escaped || read.1.escaped⟩, read.2)

/-- Reads the rest of a word. Whether it begins with a code counts up to the first one. -/
def readWordFrom (isFirst : Bool) : WordMode → Text → Word × Text
  | _, [] => (⟨[], false⟩, [])
  | mode, c :: text =>
    match wordStep isFirst mode c with
    | .stop => (⟨[], false⟩, c :: text)
    | .more added next =>
      prependChar added (mode != .plain) (readWordFrom (isFirst && next != .plain) next text)

def beginsWord? (c : Char) : Bool :=
  isIdentifierStart c || c == '\\'

def readWord (text : Text) : Word × Text :=
  readWordFrom true .plain text

def reservedWords : List Text :=
  ["break", "case", "catch", "class", "const", "continue", "debugger", "default", "delete",
   "do", "else", "enum", "export", "extends", "false", "finally", "for", "function", "if",
   "import", "in", "instanceof", "new", "null", "return", "super", "switch", "this", "throw",
   "true", "try", "typeof", "var", "void", "while", "with"].map String.toList

def isReserved (name : Text) : Bool :=
  reservedWords.contains name

end DirectImports
