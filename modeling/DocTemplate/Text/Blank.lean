import DocTemplate.Text.Basic

/-!
# Blank characters

A character is blank when Unicode gives it the property `White_Space`. Trimming and the cut into
words go by this class; the narrower class of spaces and tabs decides what may stand beside a tag
that has a line of its own.
-/

namespace DocTemplate

namespace Text

/-- The Unicode property `White_Space`. -/
def isBlank (c : Char) : Bool :=
  let n := c.toNat
  (0x09 ≤ n && n ≤ 0x0D) || n == 0x20 || n == 0x85 || n == 0xA0 || n == 0x1680 ||
    (0x2000 ≤ n && n ≤ 0x200A) || n == 0x2028 || n == 0x2029 || n == 0x202F || n == 0x205F ||
    n == 0x3000

/-- A space or a tab. -/
def isHorizontal (c : Char) : Bool := c == ' ' || c == '\t'

/-- Spaces and tabs are blank. -/
theorem isBlank_of_isHorizontal {c : Char} (h : isHorizontal c = true) : isBlank c = true := by
  simp only [isHorizontal, Bool.or_eq_true, beq_iff_eq] at h
  rcases h with rfl | rfl <;> decide

/-- The text without its leading blanks. -/
def trimStart (t : Text) : Text := t.dropWhile isBlank

/-- The text without its trailing blanks. -/
def trimEnd (t : Text) : Text := (t.reverse.dropWhile isBlank).reverse

/-- The text without the blanks at its two ends. -/
def trim (t : Text) : Text := trimEnd (trimStart t)

/-- The leading blanks. -/
def leadingBlanks (t : Text) : Text := t.takeWhile isBlank

/-- The trailing blanks. -/
def trailingBlanks (t : Text) : Text := (t.reverse.takeWhile isBlank).reverse

/-- A text is its leading blanks and the rest. -/
@[simp] theorem leadingBlanks_append_trimStart (t : Text) : leadingBlanks t ++ trimStart t = t :=
  List.takeWhile_append_dropWhile

/-- A text is what trimming its end keeps, and its trailing blanks. -/
@[simp] theorem trimEnd_append_trailingBlanks (t : Text) : trimEnd t ++ trailingBlanks t = t := by
  rw [trimEnd, trailingBlanks, ← List.reverse_append, List.takeWhile_append_dropWhile,
    List.reverse_reverse]

/-- The maximal runs of characters that are not blank. -/
def words (t : Text) : List Text := (splitWhere isBlank t).filter (· ≠ [])

/-- Whether a text holds spaces and tabs only. -/
def isHorizontalOnly (t : Text) : Bool := t.all isHorizontal

end Text

end DocTemplate
