import DocTemplate.Number
import DocTemplate.Text.Basic

/-!
# JSON numbers

A number is written as a whole part without needless zeros, perhaps places behind a point and
perhaps a power of ten. A number without places and power is an integer as long as it fits into 64
bits, except that minus zero is a float. Any other number is read in two roundings: the digits that
fit into 64 bits become the nearest float, which is then multiplied or divided by a float that is
nearest to a power of ten. Digits behind those count for the size of a whole number only. A number
that is too large for a float is refused.
-/

namespace DocTemplate

/-- A number in parts, as it is written. -/
structure JsonNumeral where
  /-- Whether it has a minus sign. -/
  negative : Bool
  /-- The digits of the whole part. -/
  whole : Text
  /-- The digits behind the point, if there is a point. -/
  places : Option Text
  /-- The sign and the digits of the power of ten, if there is one. -/
  power : Option (Bool × Text)
  deriving DecidableEq, Repr

namespace JsonNumeral

/-- Reads a power of ten: a sign or none, then at least one digit. -/
def powerOfText? (t : Text) : Option (Bool × Text) :=
  let (negative, digits) := Decimal.splitSign t
  if digits ≠ [] ∧ digits.all Char.isDigit then some (negative, digits) else none

/-- Splits a text at the first `e` of either case. -/
def splitPower (t : Text) : Text × Option Text :=
  let isMark (c : Char) : Bool := c == 'e' || c == 'E'
  (t.takeWhile fun c => !isMark c, match t.dropWhile fun c => !isMark c with
    | [] => none
    | _ :: rest => some rest)

/-- Splits a text at the first point. -/
def splitPoint (t : Text) : Text × Option Text :=
  (t.takeWhile (· != '.'), match t.dropWhile (· != '.') with
    | [] => none
    | _ :: rest => some rest)

/-- Whether a text is a run of digits without a needless zero in front. -/
def isWhole (t : Text) : Bool :=
  t != [] && t.all Char.isDigit && (t.length == 1 || t.head? != some '0')

/-- Whether there are no places, or digits. -/
def isPlaces : Option Text → Bool
  | none => true
  | some t => t != [] && t.all Char.isDigit

/-- Reads a number. -/
def ofText? (t : Text) : Option JsonNumeral :=
  let (negative, unsigned) := match t with
    | '-' :: rest => (true, rest)
    | _ => (false, t)
  let (front, power) := splitPower unsigned
  let (whole, places) := splitPoint front
  if isWhole whole && isPlaces places then
    match power with
    | none => some ⟨negative, whole, places, none⟩
    | some p => (powerOfText? p).map fun p => ⟨negative, whole, places, some p⟩
  else none

/-- Appends digits to a significand as long as it fits into 64 bits: the significand, and how many
digits are left over. -/
def significand (start : Nat) : Text → Nat × Nat
  | [] => (start, 0)
  | c :: t =>
    let next := 10 * start + (c.toNat - '0'.toNat)
    if next < Nat.pow 2 64 then significand next t else (start, t.length + 1)

/-- The greatest power of ten that a float has. -/
def greatestPower : Nat := 308

/-- The float nearest to a power of ten. -/
def powerOfTen (n : Nat) : Binary64 := .ofQuotient false (Nat.pow 10 n) 1

/-- Multiplies a float by a power of ten; nothing if the result is too large. -/
def scaleUp? (x : Binary64) (power : Nat) : Option Binary64 :=
  if power ≤ greatestPower then
    let y := x.mul (powerOfTen power)
    if y.isInfinite then none else some y
  else if x.isZero then some x else none

/-- Divides a float by a power of ten, by the greatest one that a float has at a time. -/
def scaleDown (x : Binary64) (power : Nat) : Binary64 :=
  if power ≤ greatestPower then x.div (powerOfTen power)
  else if x.isZero then x
  else scaleDown (x.div (powerOfTen greatestPower)) (power - greatestPower)
termination_by power
decreasing_by simp only [greatestPower] at *; omega

/-- The greatest power of ten that is counted; larger ones give zero or are refused. -/
def countedPower : Nat := Nat.pow 2 31 - 1

/-- The number as a float; nothing if it is too large. -/
def toBinary64? (n : JsonNumeral) : Option Binary64 :=
  let (wholePart, wholeLeft) := significand 0 n.whole
  let places := n.places.getD []
  let (s, placesLeft) := significand wholePart places
  let shift : Int := (wholeLeft : Int) - (places.length - placesLeft : Nat)
  let signed (x : Binary64) : Binary64 := if n.negative then x.neg else x
  let zero := signed (.ofInt 0)
  match n.power with
  | some (false, digits) =>
    let power := Decimal.ofDigits digits
    if countedPower < power then if s = 0 then some zero else none
    else scaled s (shift + power) |>.map signed
  | some (true, digits) =>
    let power := Decimal.ofDigits digits
    if countedPower < power then some zero else scaled s (shift - power) |>.map signed
  | none => scaled s shift |>.map signed
where
  /-- A significand times a power of ten. -/
  scaled (s : Nat) (power : Int) : Option Binary64 :=
    if 0 ≤ power then scaleUp? (.ofInt s) power.toNat
    else some (scaleDown (.ofInt s) (-power).toNat)

/-- The number as an integer, if it is written as one, is not minus zero and fits into 64 bits. -/
def toInt? (n : JsonNumeral) : Option Int :=
  if n.places.isSome || n.power.isSome then none
  else
    let magnitude := Decimal.ofDigits n.whole
    if n.negative then
      if 0 < magnitude && magnitude ≤ Nat.pow 2 63 then some (-magnitude) else none
    else if magnitude < Nat.pow 2 64 then some magnitude else none

/-- The number; nothing if it is too large. -/
def toNumber? (n : JsonNumeral) : Option Number :=
  match n.toInt? with
  | some i => some (.integer i)
  | none => n.toBinary64?.map .float

end JsonNumeral

end DocTemplate
