import DocTemplate.Number.Binary64
import DocTemplate.Text.Basic

/-!
# Decimal numbers

A decimal number is an integer times a power of ten. Its written form has an optional sign, digits
with an optional point among or around them, and an optional power of ten behind an `e`. It stands
for the binary64 number nearest to it.
-/

namespace DocTemplate

/-- A decimal number with a sign, which a zero has too. -/
structure Decimal where
  /-- Whether the number has a minus sign. -/
  negative : Bool
  /-- The digits read as one natural. -/
  digits : Nat
  /-- The power of ten that the last digit counts. -/
  exponent : Int
  deriving DecidableEq, Repr

namespace Decimal

/-- The natural that a run of ASCII digits stands for. -/
def ofDigits (t : Text) : Nat := t.foldl (fun n c => 10 * n + (c.toNat - '0'.toNat)) 0

/-- Splits a sign off: whether it is a minus sign, and the text behind it. -/
def splitSign : Text → Bool × Text
  | '-' :: t => (true, t)
  | '+' :: t => (false, t)
  | t => (false, t)

/-- Reads a power of ten: nothing, or an `e` of either case, a sign or none, and digits. -/
def exponentOfText? : Text → Option Int
  | [] => some 0
  | c :: t =>
    if c = 'e' ∨ c = 'E' then
      let (negative, digits) := splitSign t
      if digits ≠ [] ∧ digits.all Char.isDigit then
        some (if negative then -(ofDigits digits : Int) else ofDigits digits)
      else none
    else none

/-- Reads a decimal number; there has to be a digit in front of the power of ten. -/
def ofText? (t : Text) : Option Decimal :=
  let (negative, unsigned) := splitSign t
  let whole := unsigned.takeWhile Char.isDigit
  let behind := unsigned.dropWhile Char.isDigit
  let (places, power) := match behind with
    | '.' :: rest => (rest.takeWhile Char.isDigit, rest.dropWhile Char.isDigit)
    | _ => ([], behind)
  if whole ++ places = [] then none
  else (exponentOfText? power).map fun e =>
    ⟨negative, ofDigits (whole ++ places), e - places.length⟩

/-- The largest power of ten that a finite number can reach. -/
def largestPower : Int := 310

/-- The power of ten below which every number rounds to zero. -/
def smallestPower : Int := -400

/-- The nearest binary64 number; a number that is too large becomes infinite. -/
def toBinary64 (d : Decimal) : Binary64 :=
  let size : Int := (Nat.toDigits 10 d.digits).length + d.exponent
  if d.digits = 0 ∨ size < smallestPower then .ofMagnitude d.negative 0
  else if largestPower < size then .infinity d.negative
  else
    .ofQuotient d.negative (d.digits * Nat.pow 10 d.exponent.toNat)
      (Nat.pow 10 (-d.exponent).toNat)

end Decimal

end DocTemplate
