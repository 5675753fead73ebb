import DocTemplate.Yaml.Basic

/-!
# The meaning of scalars in YAML

A scalar without quotes and tags is no value, a truth value, a number or else a text, by its letters
alone. Integers are written in base two, eight, ten or sixteen. One that does not fit into 64 bits
is refused if it fits into 128, and counts as a number with a fraction otherwise. Digits behind a
zero make no number.
-/

namespace DocTemplate.Yaml

/-- The natural that digits stand for in a base of at most sixteen. -/
def naturalOfDigits? (base : Nat) (t : Text) : Option Nat :=
  let digit? (c : Char) : Option Nat :=
    let value :=
      if '0' ≤ c ∧ c ≤ '9' then c.toNat - '0'.toNat
      else if 'a' ≤ c ∧ c ≤ 'f' then c.toNat - 'a'.toNat + 10
      else if 'A' ≤ c ∧ c ≤ 'F' then c.toNat - 'A'.toNat + 10
      else base
    if value < base then some value else none
  if t = [] then none
  else t.foldlM (fun n c => (digit? c).map fun d => base * n + d) 0

/-- Whether a text is a zero with digits behind it, perhaps with a sign in front. -/
def isPadded (t : Text) : Bool :=
  let unsigned := match t with
    | '-' :: rest => rest
    | '+' :: rest => rest
    | _ => t
  match unsigned with
  | '0' :: d :: rest => (d :: rest).all Char.isDigit
  | _ => false

/-- The natural that a text without a sign writes. -/
def naturalOfText? (t : Text) : Option Nat :=
  match t with
  | '0' :: 'x' :: rest => naturalOfDigits? 16 rest
  | '0' :: 'o' :: rest => naturalOfDigits? 8 rest
  | '0' :: 'b' :: rest => naturalOfDigits? 2 rest
  | _ => if isPadded t then none else naturalOfDigits? 10 t

/-- The integer that a text writes. -/
def integerOfText? (t : Text) : Option Int :=
  match t with
  | '-' :: rest => (naturalOfText? rest).map fun n => -(n : Int)
  | '+' :: rest => (naturalOfText? rest).map fun n => (n : Int)
  | _ => (naturalOfText? t).map fun n => (n : Int)

/-- What becomes of an integer. -/
inductive IntegerRange where
  /-- It is kept. -/
  | kept
  /-- It is refused. -/
  | refused
  /-- It is too large for an integer. -/
  | tooLarge
  deriving DecidableEq, Repr

/-- What becomes of an integer, by its size. -/
def IntegerRange.of (n : Int) : IntegerRange :=
  if Number.isSigned64 n || Number.isUnsigned64 n then kept
  else if -Int.pow 2 127 ≤ n && n < Int.pow 2 128 then refused
  else tooLarge

/-- The number that a text writes with a fraction, as infinity or as no number. -/
def floatOfText? (t : Text) : Option Binary64 :=
  let (plus, unsigned) := match t with
    | '+' :: rest => (true, rest)
    | _ => (false, t)
  let isInfinity (s : Text) : Bool :=
    [['.', 'i', 'n', 'f'], ['.', 'I', 'n', 'f'], ['.', 'I', 'N', 'F']].contains s
  if plus && (unsigned.head? == some '+' || unsigned.head? == some '-') then none
  else if isInfinity unsigned then some (.infinity false)
  else if t.head? == some '-' && isInfinity (t.drop 1) then some (.infinity true)
  else if [['.', 'n', 'a', 'n'], ['.', 'N', 'a', 'N'], ['.', 'N', 'A', 'N']].contains t then
    some .nan
  else ((Decimal.ofText? unsigned).map Decimal.toBinary64).filter fun x => !x.isInfinite

/-- The truth value that a text writes. -/
def boolOfText? (t : Text) : Option Bool :=
  if ["true".toList, "True".toList, "TRUE".toList].contains t then some true
  else if ["false".toList, "False".toList, "FALSE".toList].contains t then some false
  else none

/-- Whether a text writes that there is no value. -/
def isNullText (t : Text) : Bool :=
  ["null".toList, "Null".toList, "NULL".toList, ['~']].contains t

/-- The integer that a text has to write; nothing if it is none or is refused. -/
def requireInteger? (t : Text) : Option Yaml :=
  (integerOfText? t).bind fun n =>
    if IntegerRange.of n = .kept then some (.number (.integer n)) else none

/-- The meaning of a scalar without quotes and tags. -/
def ofPlain? (t : Text) : Option Yaml :=
  let fractional : Yaml :=
    match (if isPadded t then none else floatOfText? t) with
    | some x => .number (.float x)
    | none => .string t
  if t = [] ∨ isNullText t then some .null
  else match boolOfText? t with
    | some b => some (.bool b)
    | none =>
      match integerOfText? t with
      | none => some fractional
      | some n =>
        match IntegerRange.of n with
        | .kept => some (.number (.integer n))
        | .refused => none
        | .tooLarge => some fractional

/-- The meaning of a scalar whose tag is no local one: the tag of a simple type asks for a value of
this type, and every other tag makes a text. -/
def ofTagged? (tag t : Text) : Option Yaml :=
  if tag = "tag:yaml.org,2002:bool".toList then (boolOfText? t).map .bool
  else if tag = "tag:yaml.org,2002:int".toList then requireInteger? t
  else if tag = "tag:yaml.org,2002:float".toList then
    (floatOfText? t).map fun x => .number (.float x)
  else if tag = "tag:yaml.org,2002:null".toList then if isNullText t then some .null else none
  else some (.string t)

end DocTemplate.Yaml
