import DocTemplate.Number.Shortest

/-!
# Numbers of the data formats

A number in a data file is an integer of at most 64 bits, signed or unsigned, or a binary64 number.
-/

namespace DocTemplate

/-- A number of a data file. -/
inductive Number where
  /-- An integer. -/
  | integer (n : Int)
  /-- A number with a fraction or a power of ten, or an integer too large to be kept exactly. -/
  | float (x : Binary64)
  deriving DecidableEq, Repr

namespace Number

/-- Whether an integer fits into 64 bits with a sign. -/
def isSigned64 (n : Int) : Bool := -Int.pow 2 63 ≤ n && n < Int.pow 2 63

/-- Whether an integer fits into 64 bits without a sign. -/
def isUnsigned64 (n : Int) : Bool := 0 ≤ n && n < Int.pow 2 64

end Number

end DocTemplate
