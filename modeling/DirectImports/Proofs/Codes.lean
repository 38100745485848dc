import DirectImports.Text.Digits

/-! Characters written by their codes: in hexadecimal digits, or in four digits for each half of a
surrogate pair. -/

namespace DirectImports

theorem hexValue?_ne {c : Char} {n : Nat} (h : hexValue? c = some n) : c ≠ '\x7b' := by
  rintro rfl
  have hx : hexValue? '\x7b' = none := by decide
  simp [hx] at h

/-- The number that hexadecimal digits add to one in front of them. -/
def hexNumberFrom? (value : Nat) : Text → Option Nat
  | [] => some value
  | c :: digits => (hexValue? c).bind fun digit => hexNumberFrom? (16 * value + digit) digits

theorem le_hexNumberFrom? {value n : Nat} {digits : Text}
    (h : hexNumberFrom? value digits = some n) : value ≤ n := by
  induction digits generalizing value with
  | nil => exact Nat.le_of_eq (Option.some.inj h)
  | cons c digits ih =>
    obtain ⟨digit, -, h⟩ := Option.bind_eq_some_iff.mp h
    have hle := ih h
    omega

/-- Four hexadecimal digits and the number that they stand for. -/
inductive FourDigits : Nat → Text → Prop
  | digits {a b c d : Char} {w x y z : Nat} (ha : hexValue? a = some w)
      (hb : hexValue? b = some x) (hc : hexValue? c = some y) (hd : hexValue? d = some z) :
      FourDigits (((w * 16 + x) * 16 + y) * 16 + z) [a, b, c, d]

/-- The two codes of a character beyond the first plane. -/
structure AreHalves (c : Char) (high low : Nat) : Prop where
  isHigh : 0xd800 ≤ high ∧ high ≤ 0xdbff
  isLow : 0xdc00 ≤ low ∧ low ≤ 0xdfff
  code : c.toNat = 0x10000 + (high - 0xd800) * 0x400 + (low - 0xdc00)

theorem toNat_not_half (c : Char) : c.toNat < 0xd800 ∨ 0xdfff < c.toNat ∧ c.toNat ≤ 0x10ffff := by
  have hv := c.valid
  simp only [UInt32.isValidChar, Nat.isValidChar] at hv
  change c.val.toNat < 0xd800 ∨ 0xdfff < c.val.toNat ∧ c.val.toNat ≤ 0x10ffff
  omega

end DirectImports
