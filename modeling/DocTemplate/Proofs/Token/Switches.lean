import DocTemplate.Proofs.Token.Escapes
import DocTemplate.Proofs.Token.Occurrence

/-!
# What the switches do to the tags of a source

A switch takes the tags of its kinds out of the tokens and does nothing else: which constructs there
are, where they stand and whether one of them is not closed is the same under all settings that
agree on fenced code. The switch for the escaping word turns escaped interpolations into text, and
whatever the settings are, none of these is a tag.
-/

namespace DocTemplate

open Text

variable {s : Settings} {source : Text}

/-- The tags of a source are those that it has with every kind switched on, without those whose kind
is switched off. -/
theorem tagSites_of_scan {all : Settings} {tokens : List Token}
    (hcode : all.conditionsInCode = s.conditionsInCode) (hall : ∀ kind, all.enables kind = true)
    (h : scan s source = .ok tokens) :
    ∃ whole, scan all source = .ok whole ∧
      tagSites tokens = (tagSites whole).filter (s.enables ·.kind) := by
  obtain ⟨cut, hcut, rfl⟩ := scan_eq_ok_iff.mp h
  refine ⟨cut.tokens all, scan_eq_ok_iff.mpr ⟨cut, by rwa [hcode], rfl⟩, ?_⟩
  have hwhole : tagSites (cut.tokens all) =
      (occurrences Construct.source Construct.tag? [] cut.constructs).map Occurrence.site := by
    rw [tagSites_tokens]
    exact List.filter_eq_self.mpr fun site _ => hall site.kind
  rw [tagSites_tokens, hwhole]

/-- What is in front of a tag in the source. -/
theorem exists_takeBytes_of_scan {tokens : List Token} (h : scan s source = .ok tokens)
    {p : PlacedToken} (hp : p ∈ placeTokens 0 tokens) {t : Tag} (ht : p.token = .tag t) :
    ∃ pre post, tokens = pre ++ .tag t :: post ∧
      takeBytes p.span.first source = some (pre.flatMap Token.source ++ t.lead) := by
  obtain ⟨pre, token, post, rfl, hsource, rfl⟩ := exists_place_of_scan h hp
  obtain rfl : token = .tag t := ht
  refine ⟨pre, post, rfl, ?_⟩
  have htake := takeBytes_append (pre.flatMap Token.source ++ t.lead)
    (t.raw ++ t.trail ++ post.flatMap Token.source)
  rw [utf8Size_append] at htake
  simpa [hsource, Token.placedAt, Token.source, Tag.source] using htake

/-- The switches of settings filter the tags of a source. -/
structure FiltersTags (s : Settings) (source : Text) : Prop where
  /-- Scanning fails in the same way under all settings that agree on fenced code. -/
  failure : ∀ t : Settings, t.conditionsInCode = s.conditionsInCode →
    ∀ u, scan s source = .error u ↔ scan t source = .error u
  /-- The tags are those that are there with every kind switched on, in order and unchanged, as far
  as their kind is switched on. -/
  tags : ∀ t : Settings, t.conditionsInCode = s.conditionsInCode →
    t.cycles = true → t.conditions = true → t.substitutions = true →
    ∀ tokens, scan s source = .ok tokens → ∃ whole, scan t source = .ok whole ∧
      tagSites tokens = (tagSites whole).filter (s.enables ·.kind)
  /-- Keeping the escaping word turns escaped interpolations into text and leaves the tags where
  they are, with all that is dropped with them. -/
  keep : ∀ tokens, scan { s with keepNotVar := false } source = .ok tokens →
    scan { s with keepNotVar := true } source = .ok (Token.joinEscapes [] tokens) ∧
      (placeTokens 0 (Token.joinEscapes [] tokens)).filter (·.token.isTag) =
        (placeTokens 0 tokens).filter (·.token.isTag)
  /-- An interpolation with the escaping word directly in front of it is no tag. -/
  escaped : ∀ tokens, scan s source = .ok tokens → ∀ p ∈ placeTokens 0 tokens,
    ∀ t, p.token = .tag t → t.kind = .interpolation →
      ∃ before, takeBytes p.span.first source = some before ∧ ¬ notVar <:+ before

/-- Under any settings the switches filter the tags of any source. -/
theorem filtersTags_scan (s : Settings) (source : Text) : FiltersTags s source where
  failure t hcode u := by
    rw [scan_eq_error_iff, scan_eq_error_iff, hcode]
  tags t hcode hcycles hconditions hsubstitutions tokens h := by
    have hall : ∀ kind, t.enables kind = true := by
      intro kind
      cases kind with
      | statement k => cases k <;> assumption
      | interpolation => exact hsubstitutions
    exact tagSites_of_scan hcode hall h
  keep tokens h := by
    obtain ⟨cut, hcut, rfl⟩ := scan_eq_ok_iff.mp h
    have hplaced := filter_isTag_placeTokens_joinEscapes 0 []
      (cut.tokens { s with keepNotVar := false })
    exact ⟨scan_eq_ok_iff.mpr ⟨cut, hcut, tokens_keepNotVar s cut⟩, hplaced⟩
  escaped tokens h p hp t ht hkind := by
    obtain ⟨pre, post, rfl, hbefore⟩ := exists_takeBytes_of_scan h hp ht
    exact ⟨_, hbefore, not_suffix_of_scan h hkind⟩

/-- A loop on a line of its own in front of a line with a condition and two interpolations, of which
the first one is escaped. -/
def escapedLine : Text :=
  " {% for a in b %}\nnot_var{{ a }}{% if a %}{{ a }}".toList

/-- Without conditions the escaped interpolation and the condition are no tags, and the loop drops
its line whether the escaping word is kept or not. -/
theorem filtersTags_scan_escapedLine :
    FiltersTags { conditions := false } escapedLine ∧
      scan { conditions := false } escapedLine = .ok
        [.tag ⟨.statement .loop, "for a in b".toList, [' '], "{% for a in b %}".toList, ['\n'],
            true, false⟩,
          .escaped "{{ a }}".toList,
          .text "{% if a %}".toList,
          .tag ⟨.interpolation, ['a'], [], "{{ a }}".toList, [], false, false⟩] ∧
      scan { conditions := false, keepNotVar := true } escapedLine = .ok
        [.tag ⟨.statement .loop, "for a in b".toList, [' '], "{% for a in b %}".toList, ['\n'],
            true, false⟩,
          .text "not_var{{ a }}{% if a %}".toList,
          .tag ⟨.interpolation, ['a'], [], "{{ a }}".toList, [], false, false⟩] ∧
      (scan {} escapedLine).map (tagSites · |>.map (·.kind)) =
        .ok [.statement .loop, .statement .condition, .interpolation] :=
  ⟨filtersTags_scan _ _, by decide +kernel, by decide +kernel, by decide +kernel⟩

end DocTemplate
