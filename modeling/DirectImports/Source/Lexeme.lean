import DirectImports.Source.Word
import DirectImports.Source.Trivia

/-! Lexemes that an import declaration has no use for: regular expressions, template literals,
numbers and the strings of tags. Each reader returns the text behind the lexeme. -/

namespace DirectImports

inductive RegexMode where
  | plain
  | set
  | escape (inSet : Bool)
deriving DecidableEq, Repr

/-- Reads a regular expression behind its first slash, and tells whether it is closed on its line.
One that is not closed takes the end of the line with it. -/
def readRegexFrom : RegexMode → Text → Bool × Text
  | _, [] => (false, [])
  | mode, c :: text =>
    if isLineEnd c then (false, text)
    else match mode with
      | .plain =>
        if c = '/' then (true, text)
        else if c = '[' then readRegexFrom .set text
        else if c = '\\' then readRegexFrom (.escape false) text
        else readRegexFrom .plain text
      | .set =>
        if c = ']' then readRegexFrom .plain text
        else if c = '\\' then readRegexFrom (.escape true) text
        else readRegexFrom .set text
      | .escape inSet => readRegexFrom (if inSet then .set else .plain) text

def isFlag (c : Char) : Bool :=
  c.isAlphanum || c == '$' || c == '_'

def readRegex (text : Text) : Text :=
  match readRegexFrom .plain text with
  | (true, rest) => rest.dropWhile isFlag
  | (false, rest) => rest

/-- Reads a template literal up to its end or to the next hole, and tells whether it is a hole. -/
def readTemplate : Text → Option (Bool × Text)
  | [] => none
  | ['\\'] => none
  | '\\' :: _ :: text => readTemplate text
  | '$' :: '\x7b' :: text => some (true, text)
  | c :: text => if c = '`' then some (false, text) else readTemplate text

/-- The text behind a number, where no word may begin. -/
def endNumber (text : Text) : Option Text :=
  if text.head?.any fun c => isIdentifierStart c || c.isDigit then none else some text

/-- Drops digits in front of a text. A bar stands between two of them, or behind the last. -/
def dropDigits (isDigit : Char → Bool) : Text → Text
  | [] => []
  | ['_'] => []
  | '_' :: c :: text => if isDigit c then dropDigits isDigit (c :: text) else c :: text
  | c :: text => if isDigit c then dropDigits isDigit text else c :: text

def dropSign : Text → Text
  | '+' :: text => text
  | '-' :: text => text
  | text => text

def dropSomeDigits (text : Text) : Text :=
  if text.head?.any Char.isDigit then dropDigits Char.isDigit text else text

def dropExponent : Text → Text
  | 'e' :: text => dropSomeDigits (dropSign text)
  | 'E' :: text => dropSomeDigits (dropSign text)
  | text => text

def readFraction (text : Text) : Option Text :=
  endNumber (dropExponent (dropSomeDigits text))

def readAfterDigits : Text → Option Text
  | '.' :: text => readFraction text
  | 'n' :: text => endNumber text
  | text => endNumber (dropExponent text)

def hasBarsBetween (isDigit : Char → Bool) : Text → Bool
  | [] => true
  | '_' :: text => text.head?.any isDigit && hasBarsBetween isDigit text
  | _ :: text => hasBarsBetween isDigit text

/-- Reads a number behind a zero and the letter of its base. -/
def readInBase (base : Nat) (text : Text) : Option Text :=
  let isDigit (c : Char) : Bool := (hexValue? c).any fun value => value < base
  let digits := text.takeWhile fun c => isDigit c || c == '_'
  let rest := text.drop digits.length
  if !digits.head?.any isDigit || !hasBarsBetween isDigit digits then none
  else endNumber (if rest.head? = some 'n' then rest.drop 1 else rest)

/-- Reads a number behind a zero. With more digits and none above seven it has base eight. -/
def readAfterZero (text : Text) : Option Text :=
  let digits := text.takeWhile Char.isDigit
  let rest := text.drop digits.length
  if digits.isEmpty then readAfterDigits rest
  else if digits.any (fun c => '7' < c) then
    match rest with
    | '.' :: rest => readFraction rest
    | rest => endNumber (dropExponent rest)
  else endNumber rest

/-- The base that a letter behind a zero stands for. -/
def numberBase? (c : Char) : Option Nat :=
  match c with
  | 'x' => some 16
  | 'X' => some 16
  | 'o' => some 8
  | 'O' => some 8
  | 'b' => some 2
  | 'B' => some 2
  | _ => none

def readNumber : Text → Option Text
  | '0' :: text =>
    match text.head?.bind numberBase? with
    | some base => readInBase base (text.drop 1)
    | none => readAfterZero text
  | text => readAfterDigits (dropDigits Char.isDigit text)

/-- Drops a string up to its closing quote, in which a backslash has no meaning. -/
def readAttributeString (quote : Char) : Text → Option Text
  | [] => none
  | c :: text => if c = quote then some text else readAttributeString quote text

end DirectImports
