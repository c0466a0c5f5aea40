import Waymark.Proofs.Action
import Waymark.Session.Operation

/-!
# Criteria that answer

A rule of the caller may keep a memory and change the session while it answers. If its answer for an
identifier is nevertheless always the same, a rendering gives what `renderBy` gives for those
answers (`Marker.renders_of_answers`).
-/

namespace Waymark

variable {κ σ : Type} [Rules κ σ]

/-- Asked about an identifier in whatever session, the criterion answers what `selects` tells. -/
def Criterion.Answers (criterion : Criterion κ) (selects : Text → Bool) : Prop :=
  ∀ identifier (session : Session κ σ),
    ((criterion.ask identifier : Action κ σ Bool).run session).1 = .ok (selects identifier)

/-- A caller that brings no rules. -/
instance Rules.none : Rules Empty Unit where
  ask := nofun
  describe := nofun
  kind := nofun

theorem Criterion.answers_ident (wanted : Text) :
    (ident wanted : Criterion κ).Answers (wanted == ·) :=
  fun _ _ => rfl

namespace Marker

/-- In whatever session it is rendered, the marker gives `shown`. -/
def Renders (marker : Marker κ) (shown : Text) : Prop :=
  ∀ session : Session κ σ, ((marker.render : Action κ σ Text).run session).1 = .ok shown

theorem run_mapM_resolve {marker : Marker κ} {selects : Text → Bool}
    (answers : marker.criterion.Answers selects) (found : List Tag) (session : Session κ σ) :
    ∃ after, ((found.mapM marker.resolve : Action κ σ (List Text)).run session) =
      (.ok (found.map fun tag => marker.options.textFor (selects tag.identifier) tag), after) := by
  induction found generalizing session with
  | nil => exact ⟨session, rfl⟩
  | cons tag later ih =>
    have first : ∃ next, ((marker.resolve tag : Action κ σ Text).run session) =
        (.ok (marker.options.textFor (selects tag.identifier) tag), next) := by
      have answer := answers tag.identifier session
      refine ⟨((marker.criterion.ask tag.identifier : Action κ σ Bool).run session).2, ?_⟩
      rw [resolve, Action.run_bind_ok (Prod.ext answer rfl)]
      rfl
    obtain ⟨next, asked⟩ := first
    obtain ⟨after, rest⟩ := ih next
    refine ⟨after, ?_⟩
    rw [List.mapM_cons, Action.run_bind_ok asked, Action.run_bind_ok rest]
    rfl

/-- **Rendering with answers.** A criterion that always gives the same answer for an identifier
renders a text as the choice of identifiers that it stands for. -/
theorem renders_of_answers {marker : Marker κ} {selects : Text → Bool}
    (answers : marker.criterion.Answers selects) :
    marker.Renders (renderBy selects marker.options marker.source) := by
  intro session
  obtain ⟨after, resolved⟩ := run_mapM_resolve answers marker.tags session
  rw [render_eq, Action.run_bind_ok resolved, renderBy_eq_weave]
  rfl

end Marker

end Waymark
