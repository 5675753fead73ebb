/-!
# Text

Text is kept as the list of its characters, so that every function on it is a structural recursion
and every part of a text is again a text. Sizes are measured in UTF-8 bytes, lines end at a line
feed, and text is ordered by code point.
-/

namespace DocTemplate

/-- Text as the list of its characters. -/
abbrev Text := List Char

namespace Text

/-- The size of the UTF-8 form in bytes. -/
def utf8Size : Text → Nat
  | [] => 0
  | c :: t => c.utf8Size + utf8Size t

@[simp] theorem utf8Size_nil : utf8Size [] = 0 := rfl

@[simp] theorem utf8Size_cons (c : Char) (t : Text) :
    utf8Size (c :: t) = c.utf8Size + utf8Size t := rfl

/-- Sizes add up along a text. -/
@[simp] theorem utf8Size_append (s t : Text) : utf8Size (s ++ t) = utf8Size s + utf8Size t := by
  induction s with
  | nil => simp
  | cons c s ih => simp [ih, Nat.add_assoc]

/-- The pieces between the characters that satisfy `p`: one piece more than there are such
characters, so the empty text has one empty piece. -/
def splitWhere (p : Char → Bool) : Text → List Text
  | [] => [[]]
  | c :: t => if p c then [] :: splitWhere p t else (splitWhere p t).modifyHead (c :: ·)

/-- The pieces between the occurrences of `sep`. -/
def splitOn (sep : Char) : Text → List Text := splitWhere (· == sep)

/-- The lines, without their line feeds; a final line feed starts an empty last line. -/
def lines : Text → List Text := splitOn '\n'

/-- A split has at least one piece. -/
theorem splitWhere_ne_nil (p : Char → Bool) (t : Text) : splitWhere p t ≠ [] := by
  cases t with
  | nil => simp [splitWhere]
  | cons c t =>
    rw [splitWhere]
    split
    · simp
    · simpa using splitWhere_ne_nil p t

/-- Everything up to the first line feed and that line feed, or the whole text if there is none. -/
def throughLineFeed : Text → Text
  | [] => []
  | c :: t => if c = '\n' then [c] else c :: throughLineFeed t

/-- The part behind the last line feed: the whole text if there is none. -/
def lastLine (t : Text) : Text := (t.reverse.takeWhile (· != '\n')).reverse

/-- The part up to and including the last line feed: empty if there is none. -/
def beforeLastLine (t : Text) : Text := (t.reverse.dropWhile (· != '\n')).reverse

/-- A text is the part up to its last line feed, then the rest. -/
@[simp] theorem beforeLastLine_append_lastLine (t : Text) :
    beforeLastLine t ++ lastLine t = t := by
  rw [beforeLastLine, lastLine, ← List.reverse_append, List.takeWhile_append_dropWhile,
    List.reverse_reverse]

/-- Cuts at the first place where `a` is directly followed by `b`: what stands in front of the pair
and what stands behind it. -/
def splitAtPair (a b : Char) : Text → Option (Text × Text)
  | x :: y :: rest =>
    if x = a ∧ y = b then some ([], rest)
    else (splitAtPair a b (y :: rest)).map fun (front, back) => (x :: front, back)
  | _ => none

/-- A cut at a pair loses just the pair. -/
theorem eq_of_splitAtPair {a b : Char} {t front back : Text}
    (h : splitAtPair a b t = some (front, back)) : t = front ++ a :: b :: back := by
  fun_induction splitAtPair a b t generalizing front with
  | case1 x y rest hxy =>
    simp only [Option.some.injEq, Prod.mk.injEq] at h
    simp [h.1.symm, h.2.symm, hxy.1, hxy.2]
  | case2 x y rest hxy ih =>
    obtain ⟨⟨front', back'⟩, hcut, heq⟩ := Option.map_eq_some_iff.1 h
    simp only [Prod.mk.injEq] at heq
    rw [ih (heq.2 ▸ hcut), ← heq.1, List.cons_append]
  | case3 => simp at h

/-- `suffix` is taken off if the text ends with it. -/
def dropSuffix (suffix t : Text) : Text :=
  if suffix.isSuffixOf t then t.take (t.length - suffix.length) else t

/-- A natural number in decimal digits. -/
def ofNat (n : Nat) : Text := Nat.toDigits 10 n

/-- An integer in decimal digits, with a minus sign in front if it is negative. -/
def ofInt (n : Int) : Text := if n < 0 then '-' :: ofNat n.natAbs else ofNat n.natAbs

/-- The number that ASCII decimal digits stand for; nothing for any other text. -/
def toNat? (t : Text) : Option Nat :=
  if t ≠ [] ∧ t.all Char.isDigit then
    some (t.foldl (fun n c => 10 * n + (c.toNat - '0'.toNat)) 0)
  else none

end Text

end DocTemplate
