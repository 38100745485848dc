import DirectImports.Source.Trivia
import DirectImports.Text.Digits

/-! String literals and the text that they stand for. The halves of a surrogate pair may be written
one by one, and an escape without its digits stands for nothing. -/

namespace DirectImports

/-- A part of the text of a literal: a code point, or a half of a pair in four digits. -/
inductive LiteralUnit where
  | point (code : Nat)
  | half (code : Nat)
deriving DecidableEq, Repr

inductive LiteralMode where
  | plain
  | escape
  | carriage
  | code
  | pair (left value : Nat)
  | quad (left value : Nat)
  | braced (value : Option Nat)
  | octal (left value : Nat)
deriving DecidableEq, Repr

inductive LiteralStep where
  | fail
  | close (units : List LiteralUnit)
  | more (units : List LiteralUnit) (mode : LiteralMode)

/-- The units that a step adds come after the given one. -/
def LiteralStep.after (first : LiteralUnit) : LiteralStep → LiteralStep
  | fail => fail
  | close units => close (first :: units)
  | more units mode => more (first :: units) mode

def plainStep (quote c : Char) : LiteralStep :=
  if c = quote then .close []
  else if c = '\\' then .more [] .escape
  else if c = '\n' ∨ c = '\r' then .fail
  else .more [.point c.toNat] .plain

def octalValue? (c : Char) : Option Nat :=
  if '0' ≤ c ∧ c ≤ '7' then some (c.toNat - '0'.toNat) else none

def escapeStep (c : Char) : LiteralStep :=
  if c = 'n' then .more [.point 10] .plain
  else if c = 't' then .more [.point 9] .plain
  else if c = 'b' then .more [.point 8] .plain
  else if c = 'v' then .more [.point 11] .plain
  else if c = 'f' then .more [.point 12] .plain
  else if c = 'r' then .more [.point 13] .plain
  else if c = 'x' then .more [] (.pair 2 0)
  else if c = 'u' then .more [] .code
  else if c = '\r' then .more [] .carriage
  else if isLineEnd c then .more [] .plain
  else match octalValue? c with
    | some value => .more [] (.octal (if value ≤ 3 then 2 else 1) value)
    | none => .more [.point c.toNat] .plain

def isHighHalf (code : Nat) : Bool :=
  0xd800 ≤ code && code < 0xdc00

def isLowHalf (code : Nat) : Bool :=
  0xdc00 ≤ code && code < 0xe000

def isHalf (code : Nat) : Bool :=
  isHighHalf code || isLowHalf code

/-- An escape ends where a character does not continue it. -/
def literalStep (quote : Char) : LiteralMode → Char → LiteralStep
  | .plain, c => plainStep quote c
  | .escape, c => escapeStep c
  | .carriage, c => if c = '\n' then .more [] .plain else plainStep quote c
  | .code, c =>
    if c = '\x7b' then .more [] (.braced none)
    else match hexValue? c with
      | some value => .more [] (.quad 3 value)
      | none => plainStep quote c
  | .pair left value, c =>
    match hexValue? c with
    | some digit =>
      let value := 16 * value + digit
      if left ≤ 1 then .more [.point value] .plain else .more [] (.pair (left - 1) value)
    | none => plainStep quote c
  | .quad left value, c =>
    match hexValue? c with
    | some digit =>
      let value := 16 * value + digit
      if left ≤ 1 then .more [if isHalf value then .half value else .point value] .plain
      else .more [] (.quad (left - 1) value)
    | none => plainStep quote c
  | .braced value, c =>
    match hexValue? c, value with
    | some digit, _ =>
      let value := 16 * value.getD 0 + digit
      .more [] (if value ≤ 0x10ffff then .braced (some value) else .plain)
    | none, some value =>
      if c = '\x7d' then .more [.point value] .plain else plainStep quote c
    | none, none => plainStep quote c
  | .octal left value, c =>
    match octalValue? c with
    | some digit =>
      if left = 0 then (plainStep quote c).after (.point value)
      else .more [] (.octal (left - 1) (8 * value + digit))
    | none => (plainStep quote c).after (.point value)

def readUnits (quote : Char) : LiteralMode → Text → Option (List LiteralUnit × Text)
  | _, [] => none
  | mode, c :: text =>
    match literalStep quote mode c with
    | .fail => none
    | .close units => some (units, text)
    | .more units mode =>
      (readUnits quote mode text).map fun (later, rest) => (units ++ later, rest)

/-- The code points of units, where each high half joins the low half that follows it. -/
def joinHalves : List LiteralUnit → List Nat
  | [] => []
  | .half high :: .half low :: units =>
    if isHighHalf high && isLowHalf low then
      (0x10000 + (high - 0xd800) * 0x400 + (low - 0xdc00)) :: joinHalves units
    else high :: joinHalves (.half low :: units)
  | .half code :: units => code :: joinHalves units
  | .point code :: units => code :: joinHalves units

/-- The replacement character with four hexadecimal digits. -/
def markedHalf (code : Nat) : Text :=
  let digits := Nat.toDigits 16 code
  '\ufffd' :: (List.replicate (4 - digits.length) '0' ++ digits)

/-- The text of units. A half without its other half is marked, and then so is the replacement
character itself. -/
def textOfUnits (units : List LiteralUnit) : Text :=
  let joined := joinHalves units
  let torn := joined.any isHalf
  joined.flatMap fun code =>
    if isHalf code || (torn && code == 0xfffd) then markedHalf code else [Char.ofNat code]

/-- Reads a string literal whose opening quote has been read. -/
def readLiteral (quote : Char) (text : Text) : Option (Text × Text) :=
  (readUnits quote .plain text).map fun (units, rest) => (textOfUnits units, rest)

end DirectImports
