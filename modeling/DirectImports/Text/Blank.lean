import DirectImports.Text.Basic

/-! White space in the sense of Unicode, and the words that it separates. -/

namespace DirectImports

def isBlank (c : Char) : Bool :=
  let n := c.toNat
  (9 ≤ n && n ≤ 13) || n == 0x20 || n == 0x85 || n == 0xa0 || n == 0x1680 ||
    (0x2000 ≤ n && n ≤ 0x200a) || n == 0x2028 || n == 0x2029 || n == 0x202f || n == 0x205f ||
    n == 0x3000

def attach (c : Char) : List Text → List Text
  | [] => [[c]]
  | word :: rest => (c :: word) :: rest

def words : Text → List Text
  | [] => []
  | c :: text =>
    if isBlank c then words text
    else match text with
      | [] => [[c]]
      | d :: _ => if isBlank d then [c] :: words text else attach c (words text)

def joinWith (separator : Text) (parts : List Text) : Text :=
  (parts.intersperse separator).flatten

def oneLine (text : Text) : Text :=
  joinWith [' '] (words text)

def trimEnd (text : Text) : Text :=
  (text.reverse.dropWhile isBlank).reverse

/-- The lines of a text; a line ends with a line feed, with or without a carriage return
before it. -/
def lines : Text → List Text
  | [] => []
  | '\n' :: text => [] :: lines text
  | '\r' :: '\n' :: text => [] :: lines text
  | c :: text => attach c (lines text)

theorem joinWith_cons_cons (separator a b : Text) (parts : List Text) :
    joinWith separator (a :: b :: parts) = a ++ (separator ++ joinWith separator (b :: parts)) := by
  simp [joinWith]

end DirectImports
