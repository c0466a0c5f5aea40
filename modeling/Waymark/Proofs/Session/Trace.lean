import Waymark.Proofs.Session.Asking

/-!
# What asking leaves behind

Whatever a criterion does while it is asked, it changes the markers of a session in one way only: it
assigns criteria to them, and the log tells each time (`Criterion.extending_ask`). So the log that
is added while a text is rendered tells what criterion a marker has afterwards, and the text and the
options of a marker stay as they are (`Session.Extends`). One rule for each way of composing actions
carries this from the parts of a run to the whole.
-/

namespace Waymark

variable {κ σ α β : Type}

/-- The criterion that an event gives to a marker. -/
def Event.given? (name : Text) : Event κ → Option (Criterion κ)
  | criterionSet marker criterion _ => if marker = name then some criterion else none
  | rendered _ _ _ => none

/-- The criterion that is given last to a marker. -/
def lastGiven? (name : Text) (events : List (Event κ)) : Option (Criterion κ) :=
  (events.filterMap (Event.given? name)).getLast?

theorem lastGiven?_append (name : Text) (first second : List (Event κ)) :
    lastGiven? name (first ++ second) = (lastGiven? name second).or (lastGiven? name first) := by
  rw [lastGiven?, List.filterMap_append, List.getLast?_append]
  rfl

/-! ## Sessions that extend one another -/

namespace Session

/-- Between `before` and `after` the events `added` were logged, and each marker has the criterion
that it was given last. Nothing else became of it. -/
structure Extends (before : Session κ σ) (added : List (Event κ)) (after : Session κ σ) : Prop where
  log_eq : after.log = before.log ++ added
  marker?_eq : ∀ name, after.marker? name = (before.marker? name).map fun marker =>
    { marker with criterion := (lastGiven? name added).getD marker.criterion }

theorem Extends.refl (session : Session κ σ) : session.Extends [] session := by
  refine ⟨(List.append_nil _).symm, ?_⟩
  intro name
  exact Option.map_id'.symm

theorem Extends.trans {before middle after : Session κ σ} {first second : List (Event κ)}
    (left : before.Extends first middle) (right : middle.Extends second after) :
    before.Extends (first ++ second) after := by
  refine ⟨?_, ?_⟩
  · rw [right.log_eq, left.log_eq, List.append_assoc]
  · intro name
    rw [right.marker?_eq, left.marker?_eq, Option.map_map, lastGiven?_append]
    congr 1
    funext marker
    simp only [Function.comp, Option.getD_or]

theorem extends_note (session : Session κ σ) {event : Event κ}
    (other : ∀ name, event.given? name = none) :
    session.Extends [event] (session.note event) := by
  refine ⟨rfl, ?_⟩
  intro name
  have last : lastGiven? name [event] = none := by
    simp [lastGiven?, other]
  rw [last]
  exact Option.map_id'.symm

section Assigning

variable [Rules κ σ] {session next : Session κ σ} {name : Text} {marker : Marker κ} {value : Value κ}

/-- Without a marker nothing is assigned. -/
theorem assign_of_none (absent : session.marker? name = none) (value : Value κ) :
    session.assign name value = .error (.noMarker name) := by
  rw [assign, absent]

/-- A value that stands for no criterion is not assigned. -/
theorem assign_of_error {fault : Fault} (held : session.marker? name = some marker)
    (failed : value.toCriterion session.describe = .error fault) :
    session.assign name value = .error fault := by
  rw [assign, held]
  show Except.map _ (value.toCriterion session.describe) = _
  rw [failed]
  rfl

/-- A value that stands for a criterion is assigned. -/
theorem assign_of_ok {criterion : Criterion κ} (held : session.marker? name = some marker)
    (made : value.toCriterion session.describe = .ok criterion) :
    session.assign name value = .ok ((session.put name { marker with criterion }).note
      (.criterionSet name criterion (criterion.shown session.describe))) := by
  rw [assign, held]
  show Except.map _ (value.toCriterion session.describe) = _
  rw [made]
  rfl

theorem extends_of_assign (assigned : session.assign name value = .ok next) :
    ∃ added, session.Extends added next := by
  cases held : session.marker? name with
  | none =>
    rw [assign_of_none held] at assigned
    simp at assigned
  | some marker =>
    cases made : value.toCriterion session.describe with
    | error fault =>
      rw [assign_of_error held made] at assigned
      simp at assigned
    | ok criterion =>
      rw [assign_of_ok held made, Except.ok.injEq] at assigned
      subst assigned
      refine ⟨[.criterionSet name criterion (criterion.shown session.describe)], rfl, ?_⟩
      intro wanted
      rw [marker?_note, marker?_put]
      by_cases same : wanted = name
      · subst same
        simp [held, lastGiven?, Event.given?]
      · have last : lastGiven? wanted
            [.criterionSet name criterion (criterion.shown session.describe)] = none := by
          simp [lastGiven?, Event.given?, Ne.symm same]
        rw [if_neg same, last]
        exact Option.map_id'.symm

end Assigning

end Session

/-! ## Actions that only extend a session -/

namespace Action

/-- Whatever comes of it, the action leaves a session that extends the one before. -/
def Extending (action : Action κ σ α) : Prop :=
  ∀ session : Session κ σ, ∃ added, session.Extends added (action.run session).2

theorem extending_pure (value : α) : (pure value : Action κ σ α).Extending := by
  intro session
  exact ⟨[], Session.Extends.refl session⟩

theorem extending_throw (fault : Fault) : (throw fault : Action κ σ α).Extending := by
  intro session
  exact ⟨[], Session.Extends.refl session⟩

theorem Extending.bind {first : Action κ σ α} {next : α → Action κ σ β}
    (left : first.Extending) (right : ∀ value, (next value).Extending) :
    (first >>= next).Extending := by
  intro session
  obtain ⟨added, extended⟩ := left session
  rw [run_bind]
  rcases outcome : first.run session with ⟨fault | value, middle⟩
  · rw [outcome] at extended
    exact ⟨added, extended⟩
  · rw [outcome] at extended
    obtain ⟨later, further⟩ := right value middle
    exact ⟨added ++ later, extended.trans further⟩

theorem extending_mapM {ask : Tag → Action κ σ β} (each : ∀ tag, (ask tag).Extending)
    (found : List Tag) : (found.mapM ask).Extending := by
  induction found with
  | nil => exact extending_pure []
  | cons tag later ih =>
    rw [List.mapM_cons]
    refine (each tag).bind ?_
    intro shown
    refine ih.bind ?_
    intro answers
    exact extending_pure (shown :: answers)

theorem extending_modify {change : Session κ σ → Session κ σ}
    (each : ∀ session : Session κ σ, ∃ added, session.Extends added (change session)) :
    (modify change : Action κ σ Unit).Extending :=
  each

theorem extending_get_bind {next : Session κ σ → Action κ σ α}
    (each : ∀ session, (next session).Extending) : (get >>= next).Extending := by
  intro session
  rw [run_get_bind]
  exact each session session

variable [Rules κ σ]

theorem extending_tryAssign (name : Text) (value : Value κ) :
    (tryAssign name value : Action κ σ (Except Fault Unit)).Extending := by
  intro session
  rw [tryAssign, run_get_bind]
  cases assigned : session.assign name value with
  | error fault => exact ⟨[], Session.Extends.refl session⟩
  | ok next => exact Session.extends_of_assign assigned

end Action

variable [Rules κ σ]

/-- Whatever a script says, performing it only extends the session. -/
theorem Script.extending_perform (script : Script κ σ) :
    (script.perform : Action κ σ Bool).Extending := by
  induction script with
  | answer selected => exact Action.extending_pure selected
  | fail fault => exact Action.extending_throw fault
  | remember memory next ih =>
    -- the memory is no part of what the log and the markers tell
    have kept (session : Session κ σ) : session.Extends [] { session with memory } :=
      ⟨(Session.Extends.refl session).log_eq, (Session.Extends.refl session).marker?_eq⟩
    exact (Action.extending_modify fun session => ⟨[], kept session⟩).bind fun _ => ih
  | look marker next ih =>
    refine Action.extending_get_bind ?_
    intro session
    exact ih _
  | assign marker value next ih =>
    refine (Action.extending_tryAssign marker value).bind ?_
    intro outcome
    exact ih outcome

theorem Criterion.extending_ask (identifier : Text) (criterion : Criterion κ) :
    (criterion.ask identifier : Action κ σ Bool).Extending := by
  cases criterion with
  | all => exact Action.extending_pure true
  | nothing => exact Action.extending_pure false
  | ident wanted => exact Action.extending_pure (wanted == identifier)
  | rule name =>
    refine Action.extending_get_bind ?_
    intro session
    exact Script.extending_perform _

theorem Marker.extending_resolve (marker : Marker κ) (tag : Tag) :
    (marker.resolve tag : Action κ σ Text).Extending := by
  refine (Criterion.extending_ask tag.identifier marker.criterion).bind ?_
  intro selected
  exact Action.extending_pure _

/-- **Trace.** A rendering only extends the session, whether it comes to its end or not. -/
theorem Marker.extending_render (marker : Marker κ) :
    (marker.render : Action κ σ Text).Extending := by
  rw [render_eq]
  refine (Action.extending_mapM marker.extending_resolve marker.tags).bind ?_
  intro shown
  refine (Action.extending_modify ?_).bind fun _ => Action.extending_pure _
  intro session
  exact ⟨_, session.extends_note fun _ => rfl⟩

end Waymark
