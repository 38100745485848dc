import DirectImports.Source.Lexeme
import DirectImports.Source.Mark
import DirectImports.Source.StringLiteral

/-! The tokens of a source text. Where no token can be read the text is broken off. -/

namespace DirectImports

inductive Token where
  | word (word : Word)
  | privateName
  | literal (value : Text)
  | number
  /-- A template literal up to its end or, if it is open, to its first hole. -/
  | template (isOpen : Bool)
  | mark (mark : Mark)
  | broken
  | finish
deriving DecidableEq, Repr

/-- A token, and whether a line ended before it. -/
structure View where
  broken : Bool
  token : Token
deriving DecidableEq, Repr

/-- A token with the text from it on and the text behind it. -/
structure Lexed extends View where
  start : Text
  rest : Text
deriving DecidableEq, Repr

/-- A token that may turn out to be broken. -/
def orBroken (read : Option (Token × Text)) : Token × Text :=
  read.getD (.broken, [])

def readPrivateName (text : Text) : Option (Token × Text) :=
  if text.head?.any beginsWord? then some (.privateName, (readWord text).2) else none

/-- The token at the beginning of a text without trivia before it. -/
def readToken : Text → Token × Text
  | [] => (.finish, [])
  | c :: text =>
    if beginsWord? c then
      let (word, rest) := readWord (c :: text)
      (.word word, rest)
    else if c = '"' ∨ c = '\'' then
      orBroken ((readLiteral c text).map fun (value, rest) => (.literal value, rest))
    else if c = '`' then
      orBroken ((readTemplate text).map fun (isOpen, rest) => (.template isOpen, rest))
    else if c.isDigit then orBroken ((readNumber (c :: text)).map fun rest => (.number, rest))
    else if c = '.' ∧ text.head?.any Char.isDigit then
      orBroken ((readFraction text).map fun rest => (.number, rest))
    else if c = '#' then orBroken (readPrivateName text)
    else orBroken ((readMark? c text).map fun (mark, rest) => (.mark mark, rest))

def nextToken (text : Text) : Lexed :=
  let (broken, start) := skipTrivia text
  let (token, rest) := readToken start
  ⟨⟨broken, token⟩, start, rest⟩

namespace View

def is (view : View) (mark : Mark) : Bool :=
  match view.token with
  | .mark other => other = mark
  | _ => false

def isOneOf (view : View) (marks : List Mark) : Bool :=
  match view.token with
  | .mark mark => marks.contains mark
  | _ => false

@[inline] def isWord (view : View) (keyword : String) : Bool :=
  match view.token with
  | .word word => word.is keyword
  | _ => false

def isWordIn (view : View) (keywords : List Text) : Bool :=
  match view.token with
  | .word word => word.isIn keywords
  | _ => false

def isName (view : View) : Bool :=
  match view.token with
  | .word word => !isReserved word.text
  | _ => false

def isAnyWord (view : View) : Bool :=
  match view.token with
  | .word _ => true
  | _ => false

def isTemplate (view : View) : Bool :=
  match view.token with
  | .template _ => true
  | _ => false

def isEnd (view : View) : Bool :=
  view.token = .finish ∨ view.token = .broken

/-- Whether a statement may end before this token. -/
def endsStatement (view : View) : Bool :=
  view.broken || view.token = .finish || view.isOneOf [.semicolon, .closeBrace]

end View

namespace Lexed

def next (lexed : Lexed) : Lexed :=
  nextToken lexed.rest

def extend (more : Text) (lexed : Lexed) : Lexed :=
  { lexed with start := lexed.start ++ more, rest := lexed.rest ++ more }

/-- Whether enough is known behind a token to tell where it ends, whatever follows. A mark has no
more than four characters, and other tokens are told by what stands behind them. -/
def isSettled (lexed : Lexed) : Bool :=
  match lexed.token with
  | .mark _ => 3 ≤ lexed.rest.length
  | .broken => false
  | .finish => false
  | _ => !lexed.rest.isEmpty

end Lexed

end DirectImports
