import DocTemplate.Json.Basic
import DocTemplate.Json.Numeral

/-!
# JSON tokens

A JSON text is a row of tokens with blanks between them: six punctuation marks, quoted texts, and
runs of other characters that have to be a number or one of three literals.
-/

namespace DocTemplate

/-- A token of a JSON text. -/
inductive JsonToken where
  /-- The start of an array. -/
  | openArray
  /-- The end of an array. -/
  | closeArray
  /-- The start of an object. -/
  | openObject
  /-- The end of an object. -/
  | closeObject
  /-- What separates items and members. -/
  | comma
  /-- What separates a name from its value. -/
  | colon
  /-- A quoted text. -/
  | text (t : Text)
  /-- A number or a literal. -/
  | scalar (j : Json)

namespace JsonToken

/-- The four characters that may stand between tokens. -/
def isSpace (c : Char) : Bool := c == ' ' || c == '\t' || c == '\n' || c == '\r'

/-- A punctuation mark. -/
def ofPunctuation? (c : Char) : Option JsonToken :=
  if c = '[' then some openArray
  else if c = ']' then some closeArray
  else if c = '{' then some openObject
  else if c = '}' then some closeObject
  else if c = ',' then some comma
  else if c = ':' then some colon
  else none

/-- What a quoted text consists of: characters, and numbers that stand for UTF-16 units. -/
inductive Unit16 where
  /-- A character. -/
  | char (c : Char)
  /-- A unit, written by its number. -/
  | unit (n : Nat)
  deriving DecidableEq, Repr

/-- The value of a hexadecimal digit. -/
def hexDigit? (c : Char) : Option Nat :=
  if c.isDigit then some (c.toNat - '0'.toNat)
  else if 'a' ≤ c ∧ c ≤ 'f' then some (c.toNat - 'a'.toNat + 10)
  else if 'A' ≤ c ∧ c ≤ 'F' then some (c.toNat - 'A'.toNat + 10)
  else none

/-- The number that four hexadecimal digits stand for. -/
def hexUnit? (a b c d : Char) : Option Nat := do
  return (((← hexDigit? a) * 16 + (← hexDigit? b)) * 16 + (← hexDigit? c)) * 16 + (← hexDigit? d)

/-- The character that an escape of one letter stands for. -/
def escaped? (c : Char) : Option Char :=
  if c = '\x22' ∨ c = '\\' ∨ c = '/' then some c
  else if c = 'b' then some '\x08'
  else if c = 'f' then some '\x0c'
  else if c = 'n' then some '\n'
  else if c = 'r' then some '\r'
  else if c = 't' then some '\t'
  else none

/-- Reads a quoted text behind its opening quote: its units, and the text behind its closing
quote. -/
def readUnits : Text → Option (List Unit16 × Text)
  | '\\' :: 'u' :: a :: b :: c :: d :: rest =>
    match hexUnit? a b c d, readUnits rest with
    | some n, some (units, behind) => some (.unit n :: units, behind)
    | _, _ => none
  | '\\' :: c :: rest =>
    match escaped? c, readUnits rest with
    | some e, some (units, behind) => some (.char e :: units, behind)
    | _, _ => none
  | c :: rest =>
    if c = '\x22' then some ([], rest)
    else if c.toNat < 0x20 then none
    else match readUnits rest with
      | some (units, behind) => some (.char c :: units, behind)
      | none => none
  | [] => none

/-- What is behind a quoted text is shorter. -/
theorem length_of_readUnits {t behind : Text} {units : List Unit16}
    (h : readUnits t = some (units, behind)) : behind.length < t.length := by
  fun_induction readUnits t generalizing units behind with
  | case1 a b c d rest n units' behind' hu hn ih =>
    simp only [Option.some.injEq, Prod.mk.injEq] at h
    have := ih hu
    simp only [List.length_cons, ← h.2]
    omega
  | case3 c rest _ e units' behind' hu he ih =>
    simp only [Option.some.injEq, Prod.mk.injEq] at h
    have := ih hu
    simp only [List.length_cons, ← h.2]
    omega
  | case5 rest =>
    simp only [Option.some.injEq, Prod.mk.injEq] at h
    simp [← h.2]
  | case7 c rest _ _ _ _ units' behind' hu ih =>
    simp only [Option.some.injEq, Prod.mk.injEq] at h
    have := ih hu
    simp only [List.length_cons, ← h.2]
    omega
  | _ => simp at h

/-- Whether a unit is the first half of a pair. -/
def isHighHalf (n : Nat) : Bool := 0xD800 ≤ n && n < 0xDC00

/-- Whether a unit is the second half of a pair. -/
def isLowHalf (n : Nat) : Bool := 0xDC00 ≤ n && n < 0xE000

/-- The text that units stand for; halves of pairs have to stand together. -/
def joinUnits : List Unit16 → Option Text
  | [] => some []
  | .char c :: rest => (joinUnits rest).map (c :: ·)
  | .unit n :: .unit m :: rest =>
    if isHighHalf n then
      if isLowHalf m then
        (joinUnits rest).map (Char.ofNat (0x10000 + (n - 0xD800) * 0x400 + (m - 0xDC00)) :: ·)
      else none
    else if isLowHalf n then none
    else (joinUnits (.unit m :: rest)).map (Char.ofNat n :: ·)
  | .unit n :: rest =>
    if isHighHalf n || isLowHalf n then none else (joinUnits rest).map (Char.ofNat n :: ·)

/-- Whether a character may stand in a number or a literal. -/
def isWordChar (c : Char) : Bool := c.isAlphanum || c == '+' || c == '-' || c == '.'

/-- A number or a literal. -/
def scalarOfText? (word : Text) : Option Json :=
  if word = ['n', 'u', 'l', 'l'] then some .null
  else if word = ['t', 'r', 'u', 'e'] then some (.bool true)
  else if word = ['f', 'a', 'l', 's', 'e'] then some (.bool false)
  else ((JsonNumeral.ofText? word).bind JsonNumeral.toNumber?).map .number

/-- Reads the token that starts with a character, and the text behind it. -/
def next? (c : Char) (rest : Text) : Option (JsonToken × Text) :=
  match ofPunctuation? c with
  | some token => some (token, rest)
  | none =>
    if c = '\x22' then
      match readUnits rest with
      | some (units, behind) => (joinUnits units).map fun t => (.text t, behind)
      | none => none
    else if isWordChar c then
      (scalarOfText? (c :: rest.takeWhile isWordChar)).map fun j =>
        (.scalar j, rest.dropWhile isWordChar)
    else none

/-- What is behind a token is no longer than what is behind its first character. -/
theorem length_of_next? {c : Char} {rest behind : Text} {token : JsonToken}
    (h : next? c rest = some (token, behind)) : behind.length ≤ rest.length := by
  unfold next? at h
  split at h
  · simp only [Option.some.injEq, Prod.mk.injEq] at h
    simp [h.2]
  · split at h
    · split at h
      · next hu =>
        obtain ⟨t, _, ht⟩ := Option.map_eq_some_iff.1 h
        simp only [Prod.mk.injEq] at ht
        exact Nat.le_of_lt (ht.2 ▸ length_of_readUnits hu)
      · simp at h
    · split at h
      · obtain ⟨t, _, ht⟩ := Option.map_eq_some_iff.1 h
        simp only [Prod.mk.injEq] at ht
        exact ht.2 ▸ (List.dropWhile_sublist isWordChar).length_le
      · simp at h

/-- The tokens of a text. -/
def ofText? (t : Text) : Option (List JsonToken) :=
  match _hblank : t.dropWhile isSpace with
  | [] => some []
  | c :: rest =>
    match _hnext : next? c rest with
    | some (token, behind) => (ofText? behind).map (token :: ·)
    | none => none
termination_by t.length
decreasing_by
  have h := length_of_next? _hnext
  have h' := (List.dropWhile_sublist (l := t) isSpace).length_le
  rw [_hblank, List.length_cons] at h'
  omega

end JsonToken

end DocTemplate
