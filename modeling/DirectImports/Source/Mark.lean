import DirectImports.Text.Basic

/-! Punctuation. Operators that only join two operands are one mark, and so are those that assign
a result. -/

namespace DirectImports

inductive Mark where
  | openBrace
  | closeBrace
  | openParen
  | closeParen
  | openSquare
  | closeSquare
  | dot
  | optionalDot
  | spread
  | comma
  | semicolon
  | colon
  | question
  | arrow
  | sign
  | less
  | greater
  | shiftLeft
  | star
  | slash
  | slashEquals
  | plus
  | minus
  | plusPlus
  | minusMinus
  | exclamation
  | tilde
  | equals
  | pipe
  | ampersand
  | joining
  | assigning
deriving DecidableEq, Repr

/-- The marks that are a single character, whatever follows. -/
def singleMark? (c : Char) : Option Mark :=
  match c with
  | '\x7b' => some .openBrace
  | '\x7d' => some .closeBrace
  | '(' => some .openParen
  | ')' => some .closeParen
  | '[' => some .openSquare
  | ']' => some .closeSquare
  | ',' => some .comma
  | ';' => some .semicolon
  | ':' => some .colon
  | '@' => some .sign
  | '~' => some .tilde
  | '>' => some .greater
  | _ => none

/-- The mark of the first spelling that a text goes on with, or `single` if there is none. -/
def spelledMark (spellings : List (Text × Mark)) (single : Mark) (text : Text) : Mark × Text :=
  match spellings.find? fun spelling => spelling.1.isPrefixOf text with
  | some (spelling, mark) => (mark, text.drop spelling.length)
  | none => (single, text)

/-- The mark of an operator that is `single` on its own, may be doubled, and assigns before an
equals sign. -/
def operatorMark (c : Char) (single doubled : Mark) : Text → Mark × Text :=
  let assigning : List (Text × Mark) :=
    if doubled = .joining then [([c, '='], .assigning)] else []
  spelledMark ((['='], .assigning) :: assigning ++ [([c], doubled)]) single

def joiningMark : Text → Mark × Text :=
  spelledMark [(['='], .assigning)] .joining

def equalsMark : Text → Mark × Text :=
  spelledMark [(['>'], .arrow), (['=', '='], .joining), (['='], .joining)] .equals

def exclamationMark : Text → Mark × Text :=
  spelledMark [(['=', '='], .joining), (['='], .joining)] .exclamation

def lessMark : Text → Mark × Text :=
  spelledMark [(['<', '='], .assigning), (['<'], .shiftLeft), (['='], .joining)] .less

/-- What a mark that begins with `>` is between two operands. -/
def greaterMark : Text → Mark × Text :=
  spelledMark [(['>', '>', '='], .assigning), (['>', '>'], .joining), (['>', '='], .assigning),
    (['>'], .joining), (['='], .joining)] .joining

/-- A question mark and a dot in front of a digit are two marks. -/
def questionMark (text : Text) : Mark × Text :=
  if (text.drop 1).head?.any Char.isDigit then
    spelledMark [(['?', '='], .assigning), (['?'], .joining)] .question text
  else
    spelledMark [(['?', '='], .assigning), (['?'], .joining), (['.'], .optionalDot)] .question text

def dotMark : Text → Mark × Text :=
  spelledMark [(['.', '.'], .spread)] .dot

def slashMark : Text → Mark × Text :=
  spelledMark [(['='], .slashEquals)] .slash

def readMark? (c : Char) (text : Text) : Option (Mark × Text) :=
  match singleMark? c with
  | some mark => some (mark, text)
  | none =>
    match c with
    | '=' => some (equalsMark text)
    | '!' => some (exclamationMark text)
    | '<' => some (lessMark text)
    | '?' => some (questionMark text)
    | '.' => some (dotMark text)
    | '/' => some (slashMark text)
    | '+' => some (operatorMark c .plus .plusPlus text)
    | '-' => some (operatorMark c .minus .minusMinus text)
    | '*' => some (operatorMark c .star .joining text)
    | '&' => some (operatorMark c .ampersand .joining text)
    | '|' => some (operatorMark c .pipe .joining text)
    | '%' => some (joiningMark text)
    | '^' => some (joiningMark text)
    | _ => none

end DirectImports
