import DirectImports.Text.Basic

/-! What may stand between two tokens: blanks, line ends and comments. -/

namespace DirectImports

def isLineEnd (c : Char) : Bool :=
  c == '\n' || c == '\r' || c == '\u2028' || c == '\u2029'

def isGap (c : Char) : Bool :=
  let n := c.toNat
  n == 9 || n == 11 || n == 12 || n == 32 || n == 0x85 || n == 0xa0 || n == 0x1680 ||
    (0x2000 ≤ n && n ≤ 0x200b) || n == 0x202f || n == 0x205f || n == 0x3000 || n == 0xfeff

inductive TriviaMode where
  | plain
  | line
  | block
deriving DecidableEq, Repr

/-- Skips trivia and tells whether it held a line end. A comment that is not closed goes on to the
end of the text. -/
def skipTriviaFrom : TriviaMode → Bool → Text → Bool × Text
  | .plain, broken, '/' :: '/' :: text => skipTriviaFrom .line broken text
  | .plain, broken, '/' :: '*' :: text => skipTriviaFrom .block broken text
  | .plain, broken, c :: text =>
    if isLineEnd c then skipTriviaFrom .plain true text
    else if isGap c then skipTriviaFrom .plain broken text
    else (broken, c :: text)
  | .line, broken, c :: text =>
    if isLineEnd c then skipTriviaFrom .plain true text else skipTriviaFrom .line broken text
  | .block, broken, '*' :: '/' :: text => skipTriviaFrom .plain broken text
  | .block, broken, c :: text => skipTriviaFrom .block (broken || isLineEnd c) text
  | _, broken, [] => (broken, [])

def skipTrivia (text : Text) : Bool × Text :=
  skipTriviaFrom .plain false text

end DirectImports
