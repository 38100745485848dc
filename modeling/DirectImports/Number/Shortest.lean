import DirectImports.Number.Binary
import DirectImports.Text.Digits

/-! The shortest decimal text of a binary number: the fewest digits that round to the number,
and of those the nearest. -/

namespace DirectImports

structure Decimal where
  digits : Nat
  exponent : Int
deriving DecidableEq, Repr

namespace Binary

/-- The quotient of a quarter of the last place of a number by a power of ten. -/
def quarterOver (number : Binary) (power : Int) : Nat × Nat :=
  let exponent := number.exponent - 2
  (Nat.pow 2 exponent.toNat * Nat.pow 10 (-power).toNat,
    Nat.pow 2 (-exponent).toNat * Nat.pow 10 power.toNat)

/-- Distance, in quarters of the last place, to the end of the interval below that rounds to
the number. -/
def reachBelow (number : Binary) : Nat :=
  if number.significand = leastNormal ∧ number.exponent > leastExponent then 1 else 2

/-- The multiple of a power of ten that rounds to a number and is nearest to it. -/
def onGrid? (number : Binary) (power : Int) : Option Decimal :=
  let (n, d) := number.quarterOver power
  let value := 4 * number.significand * n
  let low := (4 * number.significand - number.reachBelow) * n
  let high := (4 * number.significand + 2) * n
  let closed := number.significand % 2 == 0
  let digits := value / d
  let fitsBelow := low < digits * d || (closed && low == digits * d)
  let fitsAbove := (digits + 1) * d < high || (closed && (digits + 1) * d == high)
  if fitsBelow && fitsAbove then
    some ⟨Binary.roundDiv value d, power⟩
  else if fitsBelow then some ⟨digits, power⟩
  else if fitsAbove then some ⟨digits + 1, power⟩
  else none

/-- The decimal on the coarsest grid among the powers from `power` down. -/
def shortestFrom (number : Binary) : Nat → Int → Decimal
  | 0, power => ⟨0, power⟩
  | fuel + 1, power =>
    match number.onGrid? power with
    | some decimal => decimal
    | none => number.shortestFrom fuel (power - 1)

def shortest (number : Binary) : Decimal :=
  number.shortestFrom 640 309

end Binary

/-- Decimal text: positional with a point while at most sixteen places stand before it and at
most four zeros behind it, else with an exponent. -/
def Decimal.text (number : Decimal) : Text :=
  let digits := decimal number.digits
  let places : Int := digits.length + number.exponent
  if 0 ≤ number.exponent ∧ places ≤ 16 then
    digits ++ List.replicate number.exponent.toNat '0' ++ ['.', '0']
  else if 0 < places ∧ places ≤ 16 then
    digits.take places.toNat ++ '.' :: digits.drop places.toNat
  else if -5 < places ∧ places ≤ 0 then
    ['0', '.'] ++ List.replicate (-places).toNat '0' ++ digits
  else
    let tail := if digits.length ≤ 1 then [] else '.' :: digits.drop 1
    let power := places - 1
    digits.take 1 ++ tail ++ 'e' :: (if power < 0 then ['-'] else ['+']) ++ decimal power.natAbs

def Binary.text (number : Binary) : Text :=
  if number.significand = 0 then ['0', '.', '0'] else number.shortest.text

end DirectImports
