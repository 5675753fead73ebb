import DocTemplate.Proofs.Node.Symbols
import DocTemplate.Proofs.Token.Append

/-!
# Interpolations in documents

An interpolation that writes a pipe becomes a node that shows it. A tag with any other content is
the text that it is written as: the tree in the making reads on by just these characters, and in
every source the tree is the one that a text in place of the tag gives.
-/

namespace DocTemplate

open Text

namespace Builder

/-- An interpolation that writes a pipe becomes a node that shows it. -/
theorem accept_of_isWrittenAs {tag : Tag} {pipe : Pipe} (hkind : tag.kind = .interpolation)
    (h : pipe.IsWrittenAs tag.content) (b : Builder) (place : Location) :
    b.accept place (.tag tag) =
      .ok (b.pushNode (.interpolation ⟨pipe, tag.raw, place.after tag.lead⟩)) := by
  have hread := Pipe.ofText?_eq_some_iff_isWrittenAs.mpr h
  simp only [accept, hkind, interpolate, hread]

/-- An interpolation that writes no pipe is accepted as the text of the tag. -/
theorem accept_of_not_isWrittenAs {tag : Tag} (hkind : tag.kind = .interpolation)
    (h : ∀ pipe : Pipe, ¬ pipe.IsWrittenAs tag.content) (b : Builder) (place : Location) :
    b.accept place (.tag tag) = .ok (b.pushText tag.raw) := by
  have hread := Pipe.ofText?_eq_none_iff.mpr h
  simp only [accept, hkind, interpolate, hread]

end Builder

/-- Among other tokens an interpolation that writes no pipe is the text of the tag. -/
theorem buildAlike_of_not_isWrittenAs {tag : Tag} (hkind : tag.kind = .interpolation)
    (hsource : tag.source = tag.raw) (h : ∀ pipe : Pipe, ¬ pipe.IsWrittenAs tag.content)
    (front back : List Token) :
    BuildAlike (front ++ .tag tag :: back) (front ++ .text tag.raw :: back) := by
  apply BuildAlike.append_left
  intro b place
  have hplace : Token.source (.tag tag) = Token.source (.text tag.raw) := hsource
  have htext : b.accept place (.text tag.raw) = .ok (b.pushText tag.raw) := rfl
  rw [Builder.acceptAll, Builder.acceptAll, Builder.accept_of_not_isWrittenAs hkind h, htext,
    hplace]

/-- An interpolation that writes no pipe is read character by character. -/
theorem Tag.ReadsAs.eq_map_character {tag : Tag} {place : Location} {symbols : List Symbol}
    (hread : tag.ReadsAs place symbols) (hkind : tag.kind = .interpolation)
    (h : ∀ pipe : Pipe, ¬ pipe.IsWrittenAs tag.content) : symbols = tag.raw.map .character := by
  rw [ReadsAs, hkind] at hread
  rcases hread with ⟨pipe, hpipe, -⟩ | ⟨-, hsymbols⟩
  · exact absurd hpipe (h pipe)
  · exact hsymbols

/-- Interpolations are read as what their contents write, and are text if they write nothing. -/
structure ReadsInterpolations : Prop where
  /-- A pipe is read exactly if the content writes it. -/
  reads : ∀ content (pipe : Pipe), Pipe.ofText? content = some pipe ↔ pipe.IsWrittenAs content
  /-- A path and identifiers that are joined by bars, with any blanks around each of them, are read
  as these. -/
  joins : ∀ (path : Path) filters pieces, (∀ name ∈ filters, isIdentifier name = true) →
    List.Forall₂ IsPadded (path.toText :: filters) pieces →
    Pipe.ofText? (['|'].intercalate pieces) = some ⟨path, filters⟩
  /-- A tag that writes a pipe becomes a node that shows it. -/
  shows : ∀ (tag : Tag) (pipe : Pipe), tag.kind = .interpolation → pipe.IsWrittenAs tag.content →
    ∀ (b : Builder) place, b.accept place (.tag tag) =
      .ok (b.pushNode (.interpolation ⟨pipe, tag.raw, place.after tag.lead⟩))
  /-- A tag that writes no pipe is taken for the text that it is written as: what is read grows by
  the characters of this text. -/
  keeps : ∀ tag : Tag, tag.kind = .interpolation →
    (∀ pipe : Pipe, ¬ pipe.IsWrittenAs tag.content) →
    ∀ (b : Builder) place, ∃ b', b.accept place (.tag tag) = .ok b' ∧
      b.accept place (.text tag.raw) = .ok b' ∧
      b'.symbols = b.symbols ++ tag.raw.map .character
  /-- A source with such a tag in it has the tree that it has with a text in place of the tag, and
  this text stands in the tree. -/
  keepsInSource : ∀ s source front (tag : Tag) back,
    scan s source = .ok (front ++ .tag tag :: back) → tag.kind = .interpolation →
    (∀ pipe : Pipe, ¬ pipe.IsWrittenAs tag.content) →
    Node.ofTokens (front ++ .tag tag :: back) = Node.ofTokens (front ++ .text tag.raw :: back) ∧
      ∀ nodes, Node.ofTokens (front ++ .tag tag :: back) = .ok nodes →
        tag.raw.map .character <:+: Node.symbolsAll nodes

/-- Interpolations say exactly paths and filters with bars between them, and all others are text. -/
theorem readsInterpolations : ReadsInterpolations := by
  refine ⟨?_, ?_, ?_, ?_, ?_⟩
  · exact fun content pipe => Pipe.ofText?_eq_some_iff_isWrittenAs
  · intro path filters pieces hfilters hpieces
    exact Pipe.ofText?_eq_some_iff_isWrittenAs.mpr ⟨hfilters, pieces, hpieces, rfl⟩
  · exact fun tag pipe hkind h => Builder.accept_of_isWrittenAs hkind h
  · intro tag hkind h b place
    exact ⟨b.pushText tag.raw, Builder.accept_of_not_isWrittenAs hkind h b place, rfl,
      b.symbols_pushText tag.raw⟩
  · intro s source front tag back hscan hkind h
    have hsound : tag.Sound := sound_of_scan hscan (.tag tag) (by simp)
    have halike := buildAlike_of_not_isWrittenAs hkind (hsound.source_eq_raw hkind) h front back
    refine ⟨congrArg (·.bind Builder.finish) (halike .start .start), fun nodes hnodes => ?_⟩
    exact isInfix_symbolsAll_of_ofTokens hnodes fun _ _ hread =>
      Tag.ReadsAs.eq_map_character hread hkind h

/-- A path with a wide blank behind it in front of a filter, and a tag with a doubled bar. -/
theorem readsInterpolations_doubledBar :
    (∀ name ∈ ["upper".toList], isIdentifier name = true) ∧
      List.Forall₂ IsPadded ["page.title".toList, "upper".toList]
        ["page.title\u3000".toList, " upper".toList] ∧
      Pipe.ofText? "page.title\u3000| upper".toList =
        some ⟨⟨"page".toList, ["title".toList], by decide⟩, ["upper".toList]⟩ ∧
      (∀ pipe : Pipe, ¬ pipe.IsWrittenAs "a || b".toList) ∧
      ∀ (b : Builder) place, ∃ b',
        b.accept place (.tag ⟨.interpolation, "a || b".toList, [], "{{ a || b }}".toList, [],
            false, false⟩) = .ok b' ∧
          b.accept place (.text "{{ a || b }}".toList) = .ok b' ∧
          b'.symbols = b.symbols ++ "{{ a || b }}".toList.map .character := by
  have hnames : ∀ name ∈ ["upper".toList], isIdentifier name = true := by decide
  have hpieces : List.Forall₂ IsPadded ["page.title".toList, "upper".toList]
      ["page.title\u3000".toList, " upper".toList] :=
    .cons ⟨[], ['\u3000'], rfl, rfl, rfl⟩ (.cons ⟨[' '], [], rfl, rfl, rfl⟩ .nil)
  have hunread : ∀ pipe : Pipe, ¬ pipe.IsWrittenAs "a || b".toList :=
    Pipe.ofText?_eq_none_iff.mp (by decide)
  exact ⟨hnames, hpieces,
    readsInterpolations.joins ⟨"page".toList, ["title".toList], by decide⟩ _ _ hnames hpieces,
    hunread, readsInterpolations.keeps _ rfl hunread⟩

end DocTemplate
