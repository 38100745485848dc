/-! Binary numbers with 53 significant bits, and rounding to the nearest of them. -/

namespace DirectImports

/-- The number `significand * 2 ^ exponent`. The significand has 53 bits, or fewer at the
least exponent. -/
structure Binary where
  significand : Nat
  exponent : Int
deriving DecidableEq, Repr

namespace Binary

def leastExponent : Int := -1074

def greatestExponent : Int := 971

def leastNormal : Nat := 0x10000000000000

def zero : Binary := ⟨0, leastExponent⟩

def ratio (number : Binary) : Nat × Nat :=
  (number.significand * Nat.pow 2 number.exponent.toNat, Nat.pow 2 (-number.exponent).toNat)

/-- The quotient to the nearest whole number; a half goes to the even one. -/
def roundDiv (n d : Nat) : Nat :=
  let quotient := n / d
  let rest := 2 * (n % d)
  if rest < d then quotient
  else if rest > d then quotient + 1
  else quotient + quotient % 2

/-- The exponent at which a quotient has 53 bits, or the least one. -/
def exponentOf (n d : Nat) : Int :=
  let bits : Int := Nat.log2 n - Nat.log2 d
  let reached := n * Nat.pow 2 (-bits).toNat ≥ d * Nat.pow 2 bits.toNat
  let exponent := if reached then bits - 52 else bits - 53
  if exponent < leastExponent then leastExponent else exponent

/-- The number nearest to `n / d`; nothing if it is too large. -/
def nearest (n d : Nat) : Option Binary :=
  if n = 0 then some zero
  else
    let exponent := exponentOf n d
    let significand := roundDiv (n * Nat.pow 2 (-exponent).toNat) (d * Nat.pow 2 exponent.toNat)
    let number : Binary :=
      if significand = 2 * leastNormal then ⟨leastNormal, exponent + 1⟩
      else ⟨significand, exponent⟩
    if number.exponent > greatestExponent then none else some number

def mul (a b : Binary) : Option Binary :=
  nearest (a.ratio.1 * b.ratio.1) (a.ratio.2 * b.ratio.2)

def div (a b : Binary) : Option Binary :=
  nearest (a.ratio.1 * b.ratio.2) (a.ratio.2 * b.ratio.1)

end Binary

end DirectImports
