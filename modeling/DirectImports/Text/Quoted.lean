import DirectImports.Text.Digits
import DirectImports.Unicode.Printable

/-! Text between double quotes for display. The quote and the backslash are escaped, and a
character that would not show is given by its code. -/

namespace DirectImports

def quotedChar (c : Char) : Text :=
  if c = '"' then ['\\', '"']
  else if c = '\\' then ['\\', '\\']
  else if c = '\n' then ['\\', 'n']
  else if c = '\r' then ['\\', 'r']
  else if c = '\t' then ['\\', 't']
  else if c.toNat = 0 then ['\\', '0']
  else if isPrintable c then [c]
  else ['\\', 'u', '\x7b'] ++ Nat.toDigits 16 c.toNat ++ ['\x7d']

def quoted (text : Text) : Text :=
  '"' :: (text.flatMap quotedChar ++ ['"'])

end DirectImports
