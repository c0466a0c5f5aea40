import Waymark.Proofs.Session.Trace

/-!
# The criterion that a rendering begins with

A criterion may assign a criterion to the marker that is being rendered. The rendering still asks
the one that it began with, for every tag, and the marker keeps the one that was assigned last. As
long as none is assigned, the rendering does what resolving one tag after the other does, where the
criterion is looked up for each tag anew (`render_snapshot`).

Both loops go through the tags in step. What holds before each tag is that the marker in the session
is still the one that the rendering began with; that it holds after the tag is told by the log.
-/

namespace Waymark

variable {κ σ : Type}

/-! ## Reading off what the log tells -/

theorem Session.Extends.marker? {before after : Session κ σ} {added : List (Event κ)} {name : Text}
    {marker : Marker κ} (extended : before.Extends added after)
    (held : before.marker? name = some marker) :
    after.marker? name =
      some { marker with criterion := (lastGiven? name added).getD marker.criterion } := by
  rw [extended.marker?_eq, held]
  rfl

theorem Action.run_marker {session : Session κ σ} {name : Text} {marker : Marker κ}
    (held : session.marker? name = some marker) :
    (Action.marker name : Action κ σ (Marker κ)).run session = (.ok marker, session) := by
  rw [Action.marker, run_get_bind, held]
  rfl

theorem Action.run_marker_of_none {session : Session κ σ} {name : Text}
    (absent : session.marker? name = none) :
    (Action.marker name : Action κ σ (Marker κ)).run session =
      (.error (.noMarker name), session) := by
  rw [Action.marker, run_get_bind, absent]
  rfl

/-- To look a marker up changes nothing. -/
theorem Action.run_marker_snd (name : Text) (session : Session κ σ) :
    ((Action.marker name : Action κ σ (Marker κ)).run session).2 = session := by
  cases held : session.marker? name with
  | none => rw [run_marker_of_none held]
  | some marker => rw [run_marker held]

variable [Rules κ σ]

/-! ## The two ways -/

namespace Operation

/-- Asks a criterion about all tags of a marker, one after another, and weaves what the answers
choose into the marker's text. -/
def renderAsking (marker : Marker κ) (criterion : Criterion κ) : Action κ σ Text := do
  let selected ← marker.tags.mapM fun tag => criterion.ask tag.identifier
  pure (weave 0 marker.source marker.tags
    (List.zipWith marker.options.textFor selected marker.tags))

/-- Logs what was rendered, and answers it. -/
def noteRendered (marker : Marker κ) (text : Text) : Action κ σ Answer := do
  modify fun session => session.note (.rendered marker.tags.length marker.source.length
    (marker.criterion.shown session.describe))
  pure (.text text)

end Operation

/-- To resolve tags is to ask about them all first and to choose the texts then. -/
theorem Marker.mapM_resolve_eq (marker : Marker κ) (found : List Tag) :
    (found.mapM marker.resolve : Action κ σ (List Text)) = (do
      let selected ← found.mapM fun tag => marker.criterion.ask tag.identifier
      pure (List.zipWith marker.options.textFor selected found)) := by
  induction found with
  | nil => rfl
  | cons tag later ih => simp [List.mapM_cons, ih, resolve]

/-- The text of a marker with each tag resolved, as a rendering does it. -/
theorem Operation.renderAsking_eq (marker : Marker κ) :
    (renderAsking marker marker.criterion : Action κ σ Text) = (do
      let shown ← marker.tags.mapM marker.resolve
      pure (weave 0 marker.source marker.tags shown)) := by
  rw [Marker.mapM_resolve_eq, renderAsking]
  simp only [bind_assoc, pure_bind]

/-- A rendering asks the criterion that the marker has at the beginning. -/
theorem Operation.run_perform_render {session : Session κ σ} {name : Text} {marker : Marker κ}
    (held : session.marker? name = some marker) :
    ((render name).perform : Action κ σ Answer).run session =
      (renderAsking marker marker.criterion >>= noteRendered marker).run session := by
  rw [perform, Action.run_bind_ok (Action.run_marker held), Marker.render_eq, renderAsking_eq]
  unfold noteRendered
  simp only [bind_assoc, pure_bind]

/-! ## What a rendering leaves behind -/

/-- Two rules that count in their memory how often they were asked. -/
inductive Counting where
  /-- Selects every other time. -/
  | alternating
  /-- Selects nothing, and tries to assign a truth value to the marker `m`, and then all
  identifiers. -/
  | deserting

instance : Rules Counting Nat where
  ask
    | .alternating, _, count => .remember (count + 1) (.answer (count % 2 == 0))
    | .deserting, _, count =>
        .remember (count + 1) (.assign ['m'] (.truth true) fun _ =>
          .assign ['m'] (.criterion .all) fun _ => .answer false)
  describe _ count := Text.ofNat count
  kind _ := []

/-- The session that has a marker `m` with a rule, not yet asked. -/
def Counting.session (rule : Counting) : Session Counting Nat where
  markers := [(['m'], ⟨"<x:1?a|b><x:2?c|d>".toList, {}, .rule rule⟩)]
  memory := 0
  log := []

end Waymark
