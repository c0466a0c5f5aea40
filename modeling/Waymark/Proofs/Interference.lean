import Waymark.Proofs.Identifiers
import Waymark.Proofs.Session.Asking

/-!
# What a rendering depends on

A rendering depends on a criterion through its answers for the identifiers of the text's tags, and
on a default through the tags it stands in for (`renderBy_congr`). So criteria that agree on these
identifiers cannot be told apart by rendering the text, and neither can options that differ in a
default that stands in for no tag (`renders_alike`).
-/

namespace Waymark

/-- A rendering depends on nothing but what stands for the tags. -/
theorem renderBy_congr {p q : Text → Bool} {first second : Options} {s : Text}
    (same : ∀ tag ∈ tags s, first.textFor (p tag.identifier) tag =
      second.textFor (q tag.identifier) tag) :
    renderBy p first s = renderBy q second s := by
  rw [renderBy_eq_weave, renderBy_eq_weave, List.map_congr_left same]

/-- Answers for other identifiers than those of the text do not matter. -/
theorem renderBy_congr_selects {p q : Text → Bool} {s : Text}
    (agree : ∀ identifier ∈ identifiers (tags s), p identifier = q identifier) (options : Options) :
    renderBy p options s = renderBy q options s := by
  apply renderBy_congr
  intro tag member
  rw [agree tag.identifier (mem_identifiers.2 ⟨tag, member, rfl⟩)]

/-- Options that agree where a default stands in for a branch give the same text. -/
theorem Options.textFor_congr {first second : Options} {selected : Bool} {tag : Tag}
    (inTrue : selected = true → tag.trueBranch = none → first.trueDefault = second.trueDefault)
    (inFalse : selected = false → tag.falseBranch = none →
      first.falseDefault = second.falseDefault) :
    first.textFor selected tag = second.textFor selected tag := by
  cases selected with
  | true =>
    cases held : tag.trueBranch with
    | some branch => simp [textFor, held]
    | none => simpa [textFor, held] using inTrue rfl held
  | false =>
    cases held : tag.falseBranch with
    | some branch => simp [textFor, held]
    | none => simpa [textFor, held] using inFalse rfl held

/-- Where options make a difference, they differ in a default that stands in for a branch. -/
theorem exists_of_renderBy_ne {selects : Text → Bool} {first second : Options} {s : Text}
    (differ : renderBy selects first s ≠ renderBy selects second s) :
    ∃ tag ∈ tags s,
      (selects tag.identifier = true ∧ tag.trueBranch = none ∧
        first.trueDefault ≠ second.trueDefault) ∨
      (selects tag.identifier = false ∧ tag.falseBranch = none ∧
        first.falseDefault ≠ second.falseDefault) := by
  apply Classical.byContradiction
  intro without
  apply differ
  apply renderBy_congr
  intro tag member
  apply Options.textFor_congr
  · intro selected absent
    apply Classical.byContradiction
    intro other
    exact without ⟨tag, member, .inl ⟨selected, absent, other⟩⟩
  · intro unselected absent
    apply Classical.byContradiction
    intro other
    exact without ⟨tag, member, .inr ⟨unselected, absent, other⟩⟩

variable {κ σ : Type} [Rules κ σ]

theorem Criterion.answers_nothing : (nothing : Criterion κ).Answers fun _ => false :=
  fun _ _ => rfl

/-- **Rendered alike.** Two criteria that give the same answers for the identifiers of a marker's
tags render its text to the same; so a single identifier that no tag has is as good as nothing. And
where options that share the default for selected tags render a text differently there is a tag that
is not selected and has no false branch, and the other way round. -/
theorem renders_alike (s : Text) :
    (∀ (options : Options) (first second : Criterion κ) (p q : Text → Bool),
      first.Answers p → second.Answers q →
      (∀ identifier ∈ (Marker.mk s options first).identifiers, p identifier = q identifier) →
        ∃ shown, (Marker.mk s options first).Renders shown ∧
          (Marker.mk s options second).Renders shown) ∧
    (∀ (options : Options) (wanted : Text),
      wanted ∉ (Marker.mk s options (.ident wanted : Criterion κ)).identifiers →
        ∃ shown, (Marker.mk s options (.ident wanted : Criterion κ)).Renders shown ∧
          (Marker.mk s options (.nothing : Criterion κ)).Renders shown) ∧
    ∀ (first second : Options) (criterion : Criterion κ) (selects : Text → Bool),
      criterion.Answers selects →
        ∃ shown other, (Marker.mk s first criterion).Renders shown ∧
          (Marker.mk s second criterion).Renders other ∧
          (first.trueDefault = second.trueDefault → shown ≠ other →
            ∃ tag ∈ tags s, selects tag.identifier = false ∧ tag.falseBranch = none) ∧
          (first.falseDefault = second.falseDefault → shown ≠ other →
            ∃ tag ∈ tags s, selects tag.identifier = true ∧ tag.trueBranch = none) := by
  have agreeing (options : Options) (first second : Criterion κ) (p q : Text → Bool)
      (left : first.Answers p) (right : second.Answers q)
      (agree : ∀ identifier ∈ identifiers (tags s), p identifier = q identifier) :
      ∃ shown, (Marker.mk s options first).Renders shown ∧
        (Marker.mk s options second).Renders shown := by
    refine ⟨renderBy p options s, Marker.renders_of_answers left, ?_⟩
    rw [renderBy_congr_selects agree]
    exact Marker.renders_of_answers right
  refine ⟨agreeing, ?_, ?_⟩
  · intro options wanted absent
    apply agreeing options _ _ _ _ (Criterion.answers_ident wanted) Criterion.answers_nothing
    intro identifier member
    apply beq_eq_false_iff_ne.2
    rintro rfl
    exact absent member
  · intro first second criterion selects answers
    refine ⟨_, _, Marker.renders_of_answers answers, Marker.renders_of_answers answers, ?_, ?_⟩
    · intro same differ
      obtain ⟨tag, member, ⟨-, -, other⟩ | ⟨unselected, absent, -⟩⟩ := exists_of_renderBy_ne differ
      · exact absurd same other
      · exact ⟨tag, member, unselected, absent⟩
    · intro same differ
      obtain ⟨tag, member, ⟨selected, absent, -⟩ | ⟨-, -, other⟩⟩ := exists_of_renderBy_ne differ
      · exact ⟨tag, member, selected, absent⟩
      · exact absurd same other

/-- One text with a tag of each kind: the identifier `9` is as good as nothing, and the default for
tags that are not selected shows, as the second tag has no false branch. -/
theorem renders_alike_three_tags :
    let s := "<x:1?a|b><x:2?c><x:3?|d>".toList
    (∃ shown, (Marker.mk s {} (.ident ['9'] : Criterion Empty)).Renders shown ∧
      (Marker.mk s {} (.nothing : Criterion Empty)).Renders shown) ∧
    ∃ tag ∈ tags s, (['1'] == tag.identifier) = false ∧ tag.falseBranch = none := by
  intro s
  have alike := @renders_alike Empty Unit _ s
  refine ⟨alike.2.1 {} ['9'] (by decide), ?_⟩
  obtain ⟨shown, other, first, second, matters, -⟩ := alike.2.2 {} { falseDefault := ['.'] }
    (.ident ['1']) _ (Criterion.answers_ident ['1'])
  apply matters rfl
  -- the two renderings are what the markers give in a session, and that differs
  have left := Except.ok.inj (first (Session.start ()))
  have right := Except.ok.inj (second (Session.start ()))
  rw [← left, ← right]
  decide

end Waymark
