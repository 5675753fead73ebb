import DocTemplate.Text.Blank
import DocTemplate.Text.CaseTables

/-!
# Letter case

Case is changed by the full mappings of Unicode, under which one character may become several. The
lower case of a capital sigma depends on where it stands: it is a final sigma behind a cased
character and not in front of one, where characters that case ignores do not count.
-/

namespace DocTemplate.Text

/-- Whether a code point lies in one of the given ranges. -/
def inRanges (ranges : List (Nat × Nat)) (n : Nat) : Bool :=
  ranges.any fun (first, last) => first ≤ n && n ≤ last

/-- The character that runs of a mapping send a character to: itself if it is in none of them. -/
def shiftBy (runs : List CaseRun) (c : Char) : Char :=
  let n := c.toNat
  match runs.find? fun r => r.first ≤ n && n ≤ r.last && (n - r.first) % r.step == 0 with
  | some r => Char.ofNat (n + r.shift).toNat
  | none => c

/-- A character under a full mapping. -/
def mapCase (expansions : List (Nat × List Nat)) (runs : List CaseRun) (c : Char) : Text :=
  match expansions.lookup c.toNat with
  | some ns => ns.map Char.ofNat
  | none => [shiftBy runs c]

/-- The upper case of a character. -/
def upperChar (c : Char) : Text := mapCase upperExpansions upperRuns c

/-- The lower case of a character on its own. -/
def lowerChar (c : Char) : Text := mapCase lowerExpansions lowerRuns c

/-- The upper case of a text. -/
def upper (t : Text) : Text := t.flatMap upperChar

/-- Whether the first character that case does not ignore is cased. -/
def startsCased (t : Text) : Bool :=
  match t.dropWhile fun c => inRanges caseIgnorableRanges c.toNat with
  | [] => false
  | c :: _ => inRanges casedRanges c.toNat

/-- The lower case of a text, given the characters in front of it from the last to the first. -/
def lowerBehind (before : Text) : Text → Text
  | [] => []
  | c :: t =>
    let mapped :=
      if c = 'Σ' then [if startsCased before && !startsCased t then 'ς' else 'σ'] else lowerChar c
    mapped ++ lowerBehind (c :: before) t

/-- The lower case of a text. -/
def lower (t : Text) : Text := lowerBehind [] t

/-- The text with `up` in the place of its first character. -/
def capitalizeBy (up : Char → Text) : Text → Text
  | [] => []
  | c :: t => up c ++ t

/-- The text with its first character in upper case. -/
def capitalize (t : Text) : Text := capitalizeBy upperChar t

/-- The text with `up` in the place of the first character of each word; `atStart` says whether a
word may start at its first character. -/
def titleFrom (up : Char → Text) (atStart : Bool) : Text → Text
  | [] => []
  | c :: t =>
    if isBlank c then c :: titleFrom up true t
    else (if atStart then up c else [c]) ++ titleFrom up false t

/-- The text with the first character of each word in upper case. -/
def titleCase (t : Text) : Text := titleFrom upperChar true t

end DocTemplate.Text
