/-!
# Numbers in binary64

A binary64 number is kept as its 64 bits: a sign, eleven bits of exponent and 52 bits of fraction.
Everything is said in exact arithmetic on naturals: a finite number is a mantissa times a power of
two, and a quotient of naturals is rounded to the nearest number, to the even mantissa if two are
equally near.
-/

namespace DocTemplate

/-- A number of the binary64 format. -/
structure Binary64 where
  /-- The 64 bits of the number. -/
  bits : UInt64
  deriving DecidableEq, Repr

namespace Binary64

/-- Whether the sign bit is set. -/
def isNegative (x : Binary64) : Bool := Nat.pow 2 63 ≤ x.bits.toNat

/-- The eleven bits of the exponent. -/
def exponentField (x : Binary64) : Nat := x.bits.toNat / Nat.pow 2 52 % Nat.pow 2 11

/-- The 52 bits of the fraction. -/
def fraction (x : Binary64) : Nat := x.bits.toNat % Nat.pow 2 52

/-- Whether the number is no number. -/
def isNaN (x : Binary64) : Bool := x.exponentField == Nat.pow 2 11 - 1 && x.fraction != 0

/-- Whether the number is infinite. -/
def isInfinite (x : Binary64) : Bool := x.exponentField == Nat.pow 2 11 - 1 && x.fraction == 0

/-- Whether the number is a zero of either sign. -/
def isZero (x : Binary64) : Bool := x.exponentField == 0 && x.fraction == 0

/-- The mantissa of a finite number. -/
def mantissa (x : Binary64) : Nat :=
  if x.exponentField = 0 then x.fraction else Nat.pow 2 52 + x.fraction

/-- The power of two that the mantissa of a finite number counts. -/
def exponent (x : Binary64) : Int :=
  if x.exponentField = 0 then -1074 else (x.exponentField : Int) - 1075

/-- The magnitude with the given low 63 bits, with a sign. -/
def ofMagnitude (negative : Bool) (magnitude : Nat) : Binary64 :=
  ⟨UInt64.ofNat (magnitude + if negative then Nat.pow 2 63 else 0)⟩

/-- The low 63 bits of infinity. -/
def infinityMagnitude : Nat := (Nat.pow 2 11 - 1) * Nat.pow 2 52

/-- Infinity of either sign. -/
def infinity (negative : Bool) : Binary64 := ofMagnitude negative infinityMagnitude

/-- A number that is no number. -/
def nan : Binary64 := ofMagnitude false (infinityMagnitude + Nat.pow 2 51)

/-- A quotient rounded to the nearest natural, to the even one if two are equally near. -/
def roundDiv (num den : Nat) : Nat :=
  let q := num / den
  let twice := 2 * (num % den)
  if twice < den then q else if den < twice then q + 1 else q + q % 2

/-- The number of bits of a natural. -/
def bitLength (n : Nat) : Nat := if n = 0 then 0 else n.log2 + 1

/-- The number nearest to the quotient of two positive naturals, with a sign. The power of two that
the mantissa counts is chosen so that the mantissa has 53 bits, or as the least one; a mantissa that
rounds up to one bit more carries into the exponent by itself. -/
def ofQuotient (negative : Bool) (num den : Nat) : Binary64 :=
  let scaled (e : Int) : Nat × Nat := (num * Nat.pow 2 (-e).toNat, den * Nat.pow 2 e.toNat)
  let low : Int := max ((bitLength num : Int) - bitLength den - 53) (-1074)
  let e := if (scaled low).1 / (scaled low).2 < Nat.pow 2 53 then low else low + 1
  let m := roundDiv (scaled e).1 (scaled e).2
  ofMagnitude negative (min ((e + 1074).toNat * Nat.pow 2 52 + m) infinityMagnitude)

/-- The number nearest to an integer. -/
def ofInt (n : Int) : Binary64 :=
  if n = 0 then ofMagnitude false 0 else ofQuotient (n < 0) n.natAbs 1

/-- The product of two finite numbers, rounded to the nearest number. -/
def mul (x y : Binary64) : Binary64 :=
  let negative := x.isNegative != y.isNegative
  let e := x.exponent + y.exponent
  if x.isZero || y.isZero then ofMagnitude negative 0
  else ofQuotient negative (x.mantissa * y.mantissa * Nat.pow 2 e.toNat) (Nat.pow 2 (-e).toNat)

/-- The quotient of two finite numbers of which the second is not zero, rounded to the nearest
number. -/
def div (x y : Binary64) : Binary64 :=
  let negative := x.isNegative != y.isNegative
  let e := x.exponent - y.exponent
  if x.isZero then ofMagnitude negative 0
  else ofQuotient negative (x.mantissa * Nat.pow 2 e.toNat) (y.mantissa * Nat.pow 2 (-e).toNat)

/-- The number with the other sign. -/
def neg (x : Binary64) : Binary64 := ofMagnitude (!x.isNegative) (x.bits.toNat % Nat.pow 2 63)

end Binary64

end DocTemplate
