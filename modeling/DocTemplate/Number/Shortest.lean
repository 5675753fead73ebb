import DocTemplate.Number.Decimal

/-!
# The shortest decimal

A finite binary64 number is written with the fewest digits that read back as the same number, and
of the decimals with that many digits the one nearest to it. How the digits are laid out is a
matter of style and kept apart from the choice of the digits.
-/

namespace DocTemplate

/-- Which of two decimals that are equally near to a number is taken. -/
inductive Tie where
  /-- The larger one. -/
  | up
  /-- The one whose last digit is even. -/
  | even
  deriving DecidableEq, Repr

namespace Binary64

/-- The digits of a positive number: it is nought point these digits times ten to the power of
`point`. -/
structure Digits where
  /-- The digits; the first and the last are not zero. -/
  digits : Text
  /-- How many places the point stands behind the first digit. -/
  point : Int
  deriving DecidableEq, Repr

/-- A quotient of naturals times a power of ten, as a quotient of naturals. -/
def scaleByTen (num den : Nat) (power : Int) : Nat × Nat :=
  (num * Nat.pow 10 power.toNat, den * Nat.pow 10 (-power).toNat)

/-- The least power of ten, from `power` on and within `steps` of it, that is greater than a
quotient. -/
def powerAbove (num den : Nat) : Nat → Int → Int
  | 0, power => power
  | steps + 1, power =>
    let (n, d) := scaleByTen num den (-power)
    if n < d then power else powerAbove num den steps (power + 1)

/-- The point of a positive quotient: the least power of ten greater than it. The length in bits
gives it up to one. -/
def pointOf (num den : Nat) : Int :=
  let bits : Int := (bitLength num : Int) - bitLength den
  powerAbove num den 4 ((bits - 1) * 1233 / 4096 - 1)

/-- The reals that round to a positive finite number, in quarters of its last place: the least, the
number itself and the greatest. The lower neighbour is nearer if the mantissa is a power of two. -/
def quarters (x : Binary64) : Nat × Nat × Nat :=
  let m := x.mantissa
  (if m = Nat.pow 2 52 ∧ 1 < x.exponentField then 4 * m - 1 else 4 * m - 2, 4 * m, 4 * m + 2)

/-- A number of quarters of the last place as a quotient of naturals. -/
def ofQuarters (x : Binary64) (q : Nat) : Nat × Nat :=
  let e := x.exponent - 2
  (q * Nat.pow 2 e.toNat, Nat.pow 2 (-e).toNat)

/-- The multiple of a power of ten that is nearest to a number and rounds to it, if there is
one. -/
def onGrid? (x : Binary64) (tie : Tie) (power : Int) : Option Nat :=
  let (low, value, high) := x.quarters
  let closed := x.mantissa % 2 == 0
  let scaled (q : Nat) : Nat × Nat := scaleByTen (x.ofQuarters q).1 (x.ofQuarters q).2 (-power)
  let lowQ := scaled low
  let valueQ := scaled value
  let highQ := scaled high
  let inside (n : Nat) : Bool :=
    if closed then lowQ.1 ≤ n * lowQ.2 && n * highQ.2 ≤ highQ.1
    else lowQ.1 < n * lowQ.2 && n * highQ.2 < highQ.1
  let below := valueQ.1 / valueQ.2
  let twice := 2 * (valueQ.1 % valueQ.2)
  let preferBelow := twice < valueQ.2 || (twice == valueQ.2 && tie == .even && below % 2 == 0)
  if inside below && (preferBelow || !inside (below + 1)) then some below
  else if inside (below + 1) then some (below + 1)
  else none

/-- The first grid that holds a number which rounds to `x`, with ever more digits: the multiple and
the power of ten. -/
def firstGrid (x : Binary64) (tie : Tie) (point : Int) : Nat → Nat → Nat × Int
  | 0, _ => (0, 0)
  | tries + 1, count =>
    match x.onGrid? tie (point - count) with
    | some n => (n, point - count)
    | none => firstGrid x tie point tries (count + 1)

/-- The shortest digits of a positive finite number. Seventeen digits always suffice. -/
def shortest (x : Binary64) (tie : Tie) : Digits :=
  let (num, den) := x.ofQuarters x.quarters.2.1
  let (n, power) := x.firstGrid tie (pointOf num den) 17 1
  let written := Text.ofNat n
  let digits := (written.reverse.dropWhile (· == '0')).reverse
  ⟨digits, power + written.length⟩

end Binary64

/-- How the digits of a number are laid out. -/
structure DecimalStyle where
  /-- Which of two equally near decimals is written. -/
  tie : Tie
  /-- The points for which a number is written without a power of ten. -/
  positional : Int → Bool
  /-- Whether a whole number written without a power of ten keeps a point and a zero. -/
  keepPoint : Bool
  /-- What stands for no number. -/
  nan : Text
  /-- What stands for infinity. -/
  infinity : Text

namespace DecimalStyle

/-- Digits written without a power of ten. -/
def writePositional (s : DecimalStyle) (d : Binary64.Digits) : Text :=
  let size := d.digits.length
  if d.point ≤ 0 then '0' :: '.' :: List.replicate (-d.point).toNat '0' ++ d.digits
  else if (size : Int) ≤ d.point then
    d.digits ++ List.replicate (d.point.toNat - size) '0' ++
      if s.keepPoint then ['.', '0'] else []
  else d.digits.take d.point.toNat ++ '.' :: d.digits.drop d.point.toNat

/-- Digits written with a power of ten: a point behind the first of several digits. -/
def writeScientific (d : Binary64.Digits) : Text :=
  let front := match d.digits with
    | first :: second :: rest => first :: '.' :: second :: rest
    | few => few
  front ++ 'e' :: Text.ofInt (d.point - 1)

/-- A number laid out in a style. -/
def write (s : DecimalStyle) (x : Binary64) : Text :=
  if x.isNaN then s.nan
  else
    let sign := if x.isNegative then ['-'] else []
    if x.isInfinite then sign ++ s.infinity
    else if x.isZero then sign ++ '0' :: if s.keepPoint then ['.', '0'] else []
    else
      let d := x.shortest s.tie
      sign ++ if s.positional d.point then s.writePositional d else writeScientific d

end DecimalStyle

end DocTemplate
