import DirectImports.Import.Grammar
import DirectImports.Source.Code

/-! The import declarations of a source text. The text is taken apart into the declarations and
other statements at its top level, and the pieces together are the text again. -/

namespace DirectImports

/-- A piece of a source text: a gap between statements, a statement, or an import declaration,
whose span begins at zero. -/
inductive Piece where
  | gap (text : Text)
  | statement (text : Text)
  | declaration (text : Text) (declaration : ImportDeclaration)
deriving DecidableEq, Repr

def Piece.text : Piece → Text
  | gap text => text
  | statement text => text
  | declaration text _ => text

def textBefore (text rest : Text) : Text :=
  text.take (text.length - rest.length)

def Lexed.isImportExpression (lexed : Lexed) : Bool :=
  lexed.isWord "import" && lexed.next.isOneOf [.openParen, .dot]

/-- The import declaration at a token, and the text behind it. -/
def importHere? (language : Language) (lexed : Lexed) : Option (ImportDeclaration × Text) :=
  if lexed.isWord "import" && !lexed.isImportExpression then
    readImport language.typescript lexed.start
  else none

/-- What begins at a place of the top level. A text ends where no token can be read. -/
inductive Beginning where
  | finish
  | declaration (declaration : ImportDeclaration) (behind : Text)
  | statement (length : Nat)
deriving DecidableEq, Repr

/-- What begins where a text without trivia in front begins; nothing if it cannot be read. A
statement takes up some of the text. -/
def beginning? (language : Language) (text : Text) : Option Beginning :=
  let lexed := nextToken text
  if lexed.isEnd then some .finish
  else
    match importHere? language lexed with
    | some (declaration, behind) => some (.declaration declaration behind)
    | none => do
      let length ← statementLength? language text
      if length = 0 then none else return .statement length

def piecesFrom (language : Language) : Nat → Text → Option (List Piece)
  | 0, _ => none
  | fuel + 1, text =>
    let start := (skipTrivia text).2
    let gap := Piece.gap (textBefore text start)
    match beginning? language start with
    | none => none
    | some .finish => some [.gap text]
    | some (.declaration declaration behind) => do
      return gap :: .declaration (textBefore start behind) declaration ::
        (← piecesFrom language fuel behind)
    | some (.statement length) => do
      return gap :: .statement (start.take length) ::
        (← piecesFrom language fuel (start.drop length))

/-- The text behind a line at the very beginning that names an interpreter. -/
def skipInterpreter : Text → Text
  | '#' :: '!' :: text => text.dropWhile fun c => !isLineEnd c
  | text => text

/-- The pieces of a source text; nothing if it cannot be read. -/
def pieces? (language : Language) (text : Text) : Option (List Piece) := do
  let rest := skipInterpreter text
  return .gap (textBefore text rest) :: (← piecesFrom language (text.length + 1) rest)

/-- The declarations among pieces that begin at an offset. -/
def declarationsFrom (offset : Nat) : List Piece → List ImportDeclaration
  | [] => []
  | .gap text :: pieces => declarationsFrom (offset + byteLength text) pieces
  | .statement text :: pieces => declarationsFrom (offset + byteLength text) pieces
  | .declaration text declaration :: pieces =>
    declaration.shift offset :: declarationsFrom (offset + byteLength text) pieces

/-- The import declarations at the top level of a source text, in order. -/
def importDeclarations? (language : Language) (text : Text) : Option (List ImportDeclaration) :=
  (pieces? language text).map (declarationsFrom 0)

end DirectImports
