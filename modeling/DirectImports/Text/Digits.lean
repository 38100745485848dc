import DirectImports.Text.Basic

/-! Digits: the decimal text of a number and the value of a digit. -/

namespace DirectImports

def decimal (n : Nat) : Text :=
  Nat.toDigits 10 n

def digitValue (c : Char) : Nat :=
  c.toNat - '0'.toNat

def hexValue? (c : Char) : Option Nat :=
  if c.isDigit then some (digitValue c)
  else if 'a' ≤ c && c ≤ 'f' then some (c.toNat - 'a'.toNat + 10)
  else if 'A' ≤ c && c ≤ 'F' then some (c.toNat - 'A'.toNat + 10)
  else none

end DirectImports
