import Waymark.Rendering
import Waymark.Session.Basic

/-!
# Rendering in a session

A criterion is asked for each tag. One that is a rule of the caller may change the session while it
answers, even the criterion of the marker that is rendered; but a rendering asks the criterion that
it began with, to its end. At its end it is logged. Main statements: a rendering first asks for all
tags and then weaves and logs (`Marker.render_eq`); with a criterion that only answers, it is
`renderBy` and one event in the log (`Marker.run_render`).
-/

namespace Waymark

variable {κ σ : Type} [Rules κ σ]

/-- Does what a script says. -/
def Script.perform : Script κ σ → Action κ σ Bool
  | answer selected => pure selected
  | fail fault => throw fault
  | remember memory next => do
      modify fun session => { session with memory }
      next.perform
  | look marker next => do (next (((← get).marker? marker).map (·.criterion))).perform
  | assign marker value next => do (next (← Action.tryAssign marker value)).perform

/-- Asks a criterion whether it selects an identifier. -/
def Criterion.ask (identifier : Text) : Criterion κ → Action κ σ Bool
  | all => pure true
  | nothing => pure false
  | ident wanted => pure (wanted == identifier)
  | rule name => do (Rules.ask name identifier (← get).memory).perform

namespace Marker

/-- The text that stands for a tag, with a marker's options and criterion. -/
def resolve (marker : Marker κ) (tag : Tag) : Action κ σ Text := do
  let selected ← marker.criterion.ask tag.identifier
  pure (marker.options.textFor selected tag)

/-- As `resolve`, and counts the tag. -/
def resolveCounted (marker : Marker κ) (tag : Tag) : StateT Nat (Action κ σ) Text := do
  modify (· + 1)
  marker.resolve tag

/-- A marker's text with each tag exchanged for the text that stands for it. The marker is used as
it is now, whatever becomes of the one in the session. -/
def render (marker : Marker κ) : Action κ σ Text := do
  let (shown, count) ← (substitute marker.resolveCounted marker.source).run 0
  modify fun session => session.note
    (.rendered count marker.source.length (marker.criterion.shown session.describe))
  pure shown

/-- To render is to ask for all tags, to log it, and to weave the answers in. -/
theorem render_eq (marker : Marker κ) :
    (marker.render : Action κ σ Text) = (do
      let shown ← marker.tags.mapM marker.resolve
      modify fun session => session.note (.rendered marker.tags.length marker.source.length
        (marker.criterion.shown session.describe))
      pure (weave 0 marker.source marker.tags shown)) := by
  have counted := run_mapM_counted (m := Action κ σ) marker.resolve marker.tags 0
  rw [render, substitute_eq_weave]
  simp only [StateT.run_bind, StateT.run_pure]
  show (((marker.tags.mapM marker.resolveCounted).run 0 >>= _) >>= _) = _
  unfold resolveCounted
  rw [counted]
  simp [tags]

/-- With a criterion that only answers, a rendering is a choice of identifiers, and its one effect
is the event in the log. -/
theorem run_render {marker : Marker κ} {selects : Text → Bool}
    (answers : ∀ identifier, marker.criterion.ask identifier =
      (pure (selects identifier) : Action κ σ Bool)) (session : Session κ σ) :
    (marker.render : Action κ σ Text).run session =
      (.ok (renderBy selects marker.options marker.source),
        session.note (.rendered marker.tags.length marker.source.length
          (marker.criterion.shown session.describe))) := by
  have resolved : (marker.resolve : Tag → Action κ σ Text) =
      fun tag => pure (marker.options.textFor (selects tag.identifier) tag) := by
    funext tag
    simp [resolve, answers]
  rw [render_eq, resolved, List.mapM_pure, renderBy_eq_weave]
  rfl

end Marker

namespace Action

/-- A new marker that no session holds yet. -/
def newMarker (text : Value κ) (fields : List (Text × Value κ)) (criterion : Value κ) :
    Action κ σ (Marker κ) := do
  match Marker.create Rules.kind (← get).describe text fields criterion with
  | .ok marker => pure marker
  | .error fault => throw fault

/-- Renders a text once. -/
def renderOnce (text : Value κ) (fields : List (Text × Value κ)) (criterion : Value κ) :
    Action κ σ Text := do
  (← newMarker text fields criterion).render

end Action

end Waymark
