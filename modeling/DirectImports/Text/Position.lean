import DirectImports.Text.Basic

/-! Line and column of a byte offset, both counted from one. A line ends with a line feed, and
a column counts characters. -/

namespace DirectImports

structure Position where
  line : Nat
  column : Nat
deriving DecidableEq, Repr

def Position.advance (position : Position) (c : Char) : Position :=
  if c = '\n' then ⟨position.line + 1, 1⟩ else ⟨position.line, position.column + 1⟩

/-- The position of a byte offset; nothing where no cut is possible. -/
def positionAt (text : Text) (offset : Nat) : Option Position :=
  (cutAt offset text).map fun (before, _) => before.foldl Position.advance ⟨1, 1⟩

end DirectImports
