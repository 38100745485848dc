import DirectImports.Json.Reader

/-! Numbers of JSON text. One with a fraction or an exponent, or too long for 64 bits, is brought
to binary by one rounding of its digits and one for its power of ten. -/

namespace DirectImports

/-- The leading digits of a number and the power of ten that they still lack. -/
structure LeadingDigits where
  value : Nat
  exponent : Int
  isFull : Bool
deriving DecidableEq, Repr

/-- One more than the greatest whole number of 64 bits. -/
def wordBound : Nat := 0x10000000000000000

namespace LeadingDigits

/-- Takes one more digit unless it would pass 64 bits; after that none is taken. -/
def take? (digits : LeadingDigits) (c : Char) : Option LeadingDigits :=
  let value := digits.value * 10 + digitValue c
  if digits.isFull || value ≥ wordBound then none else some { digits with value := value }

/-- A digit before the point; one that is not taken still counts as a place. -/
def pushWhole (digits : LeadingDigits) (c : Char) : LeadingDigits :=
  (digits.take? c).getD { digits with exponent := digits.exponent + 1, isFull := true }

/-- A digit behind the point; one that is not taken is dropped. -/
def pushFraction (digits : LeadingDigits) (c : Char) : LeadingDigits :=
  match digits.take? c with
  | some taken => { taken with exponent := taken.exponent - 1 }
  | none => { digits with isFull := true }

end LeadingDigits

def timesPower (number : Binary) (power : Int) : Option Binary := do
  let scale ← Binary.nearest (Nat.pow 10 power.natAbs) 1
  if power < 0 then number.div scale else number.mul scale

/-- A number times any power of ten. A large negative power is applied in two parts. -/
def scaleByTen (number : Binary) (power : Int) : Option Binary := do
  if power.natAbs ≤ 308 then timesPower number power
  else if number.significand = 0 then return number
  else if power > 0 then none
  else
    let part ← timesPower number (-308)
    if (power + 308).natAbs ≤ 308 then timesPower part (power + 308)
    else return Binary.zero

namespace JsonReader

def toFloating (negative : Bool) (digits : LeadingDigits) : JsonReader JsonNumber := fun text =>
  match (Binary.nearest digits.value 1).bind fun number => scaleByTen number digits.exponent with
  | some value => return (.floating negative value, text)
  | none => throw .numberTooLarge

/-- The digits of an exponent. One beyond 32 bits stands for infinity or zero. -/
def readExponent (negative : Bool) (digits : LeadingDigits) : JsonReader JsonNumber :=
  fun text => do
  let (isBelow, text) :=
    match text with
    | '+' :: rest => (false, rest)
    | '-' :: rest => (true, rest)
    | _ => (false, text)
  match text with
  | [] => throw .endInValue
  | c :: _ =>
    if !c.isDigit then throw .badNumber
    let power := (text.takeWhile Char.isDigit).foldl (fun n c => n * 10 + digitValue c) 0
    let rest := text.dropWhile Char.isDigit
    if power ≥ 0x80000000 then
      if digits.value ≠ 0 ∧ !isBelow then throw .numberTooLarge
      else return (.floating negative Binary.zero, rest)
    else
      let exponent := digits.exponent + (if isBelow then -(power : Int) else power)
      toFloating negative { digits with exponent := exponent } rest

def readPower (negative : Bool) (digits : LeadingDigits) : JsonReader JsonNumber := fun text =>
  match text with
  | 'e' :: rest => readExponent negative digits rest
  | 'E' :: rest => readExponent negative digits rest
  | _ => toFloating negative digits text

def readFraction (negative : Bool) (digits : LeadingDigits) : JsonReader JsonNumber := fun text =>
  match text with
  | [] => throw .endInValue
  | c :: _ =>
    if c.isDigit then
      let digits := (text.takeWhile Char.isDigit).foldl LeadingDigits.pushFraction
        { digits with isFull := false }
      readPower negative digits (text.dropWhile Char.isDigit)
    else throw .badNumber

/-- Whole numbers of 64 bits stay whole, but for a negative zero. -/
def wholeNumber (negative : Bool) (digits : LeadingDigits) : JsonReader JsonNumber :=
  if digits.isFull then toFloating negative digits
  else if negative && (digits.value == 0 || 2 * digits.value > wordBound) then
    toFloating negative digits
  else return .integer negative digits.value

def readNumber (negative : Bool) : JsonReader JsonNumber := fun text => do
  let whole := text.takeWhile Char.isDigit
  let rest := text.dropWhile Char.isDigit
  if text = [] then throw .endInValue
  if whole = [] ∨ whole.head? = some '0' ∧ whole.length > 1 then throw .badNumber
  let digits := whole.foldl LeadingDigits.pushWhole ⟨0, 0, false⟩
  match rest with
  | '.' :: rest => readFraction negative digits rest
  | 'e' :: rest => readExponent negative digits rest
  | 'E' :: rest => readExponent negative digits rest
  | _ => wholeNumber negative digits rest

end JsonReader

end DirectImports
