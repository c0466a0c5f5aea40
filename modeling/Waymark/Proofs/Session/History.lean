import Waymark.Session.History
import Waymark.Proofs.Session.Snapshot

/-!
# What becomes of markers

The history of a run tells what becomes of the markers of a session, and what is logged
(`Operation.follows_history`). So a marker has the text and the options that it was made with, and
the criterion that was assigned to it last, by whomever.
-/

namespace Waymark

variable {κ σ α : Type} [Rules κ σ]

/-! ## Assigning -/

theorem Assignment.of?_ok {value : Value κ} {memory : σ} {criterion : Criterion κ}
    (made : value.toCriterion (Rules.describe · memory) = .ok criterion) (marker : Text) :
    of? marker value memory = some { marker, value, memory, criterion, made } := by
  unfold of?
  split
  · rename_i other same
    obtain rfl := Except.ok.inj (made.symm.trans same)
    rfl
  · rename_i fault failed
    exact absurd (made.symm.trans failed) (by simp)

theorem Assignment.of?_error {value : Value κ} {memory : σ} {fault : Fault}
    (failed : value.toCriterion (Rules.describe · memory) = .error fault) (marker : Text) :
    of? marker value memory = none := by
  unfold of?
  split
  · rename_i criterion made
    exact absurd (failed.symm.trans made) (by simp)
  · rfl

namespace Session

variable {session : Session κ σ} {name : Text} {marker : Marker κ} {value : Value κ}

theorem assignment?_of_none (absent : session.marker? name = none) (value : Value κ) :
    session.assignment? name value = none := by
  rw [assignment?, absent]
  rfl

theorem assignment?_of_held (held : session.marker? name = some marker) (value : Value κ) :
    session.assignment? name value = Assignment.of? name value session.memory := by
  rw [assignment?, held]
  rfl

/-- An assignment is logged if it succeeds. -/
theorem log_of_assign {next : Session κ σ} (assigned : session.assign name value = .ok next) :
    next.log = session.log ++ (session.assignment? name value).toList.map Assignment.event := by
  cases held : session.marker? name with
  | none =>
    rw [assign_of_none held] at assigned
    simp at assigned
  | some marker =>
    cases made : value.toCriterion session.describe with
    | error fault =>
      rw [assign_of_error held made] at assigned
      simp at assigned
    | ok criterion =>
      rw [assign_of_ok held made] at assigned
      rw [assignment?_of_held held, Assignment.of?_ok made, ← Except.ok.inj assigned]
      rfl

theorem assignment?_of_error {fault : Fault} (failed : session.assign name value = .error fault) :
    session.assignment? name value = none := by
  cases held : session.marker? name with
  | none => exact assignment?_of_none held value
  | some marker =>
    rw [assignment?_of_held held]
    cases made : value.toCriterion session.describe with
    | error fault => exact Assignment.of?_error made name
    | ok criterion =>
      rw [assign_of_ok held made] at failed
      simp at failed

end Session

/-! ## What is logged while a criterion is asked -/

/-- The action logs the assignments that `happened` tells, and nothing else. -/
def Action.Logs (action : Action κ σ α) (happened : Session κ σ → List (Assignment κ)) : Prop :=
  ∀ session, (action.run session).2.log =
    session.log ++ (happened session).map Assignment.event

theorem Action.run_tryAssign (name : Text) (value : Value κ) (session : Session κ σ) :
    (tryAssign name value : Action κ σ (Except Fault Unit)).run session =
      match session.assign name value with
      | .ok next => (.ok (.ok ()), next)
      | .error fault => (.ok (.error fault), session) := by
  rw [tryAssign, run_get_bind]
  cases session.assign name value <;> rfl

theorem Script.logs_perform (script : Script κ σ) :
    (script.perform : Action κ σ Bool).Logs script.assignments := by
  intro session
  induction script generalizing session with
  | answer selected => exact (List.append_nil _).symm
  | fail fault => exact (List.append_nil _).symm
  | remember memory next ih => exact ih { session with memory }
  | look marker next ih => exact ih _ session
  | assign marker value next ih =>
    rw [perform, Action.run_bind, Action.run_tryAssign, assignments]
    cases assigned : session.assign marker value with
    | error fault => exact ih (.error fault) session
    | ok after =>
      show ((next (.ok ())).perform.run after).2.log = _
      rw [ih, Session.log_of_assign assigned, List.map_append, List.append_assoc]

theorem Criterion.logs_ask (identifier : Text) (criterion : Criterion κ) :
    (criterion.ask identifier : Action κ σ Bool).Logs (criterion.assignments identifier) := by
  intro session
  cases criterion with
  | all | nothing | ident => exact (List.append_nil _).symm
  | rule name => exact (Rules.ask name identifier session.memory).logs_perform session

theorem Marker.logs_resolve (marker : Marker κ) (tag : Tag) :
    (marker.resolve tag : Action κ σ Text).Logs (marker.assignments tag) := by
  intro session
  rw [resolve, Action.run_bind_pure_snd]
  exact Criterion.logs_ask tag.identifier marker.criterion session

theorem Action.logs_mapM {resolve : Tag → Action κ σ Text}
    {each : Tag → Session κ σ → List (Assignment κ)} (logs : ∀ tag, (resolve tag).Logs (each tag))
    (found : List Tag) : (found.mapM resolve).Logs (assignmentsOf resolve each found) := by
  intro session
  induction found generalizing session with
  | nil => exact (List.append_nil _).symm
  | cons tag later ih =>
    have first := logs tag session
    rw [List.mapM_cons, run_bind, assignmentsOf]
    rcases outcome : (resolve tag).run session with ⟨fault | shown, after⟩
    · rw [outcome] at first
      rw [List.append_nil]
      exact first
    · rw [outcome] at first
      show ((later.mapM resolve >>= fun answers => pure (shown :: answers)).run after).2.log = _
      rw [run_bind_pure_snd, ih, first, List.map_append, List.append_assoc]

theorem Action.logs_tryAssign (name : Text) (value : Value κ) :
    (tryAssign name value : Action κ σ (Except Fault Unit)).Logs
      fun session => (session.assignment? name value).toList := by
  intro session
  rw [run_tryAssign]
  cases assigned : session.assign name value with
  | error fault =>
    show session.log =
      session.log ++ (session.assignment? name value).toList.map Assignment.event
    rw [Session.assignment?_of_error assigned]
    exact (List.append_nil _).symm
  | ok next => exact Session.log_of_assign assigned

theorem Action.run_assign (name : Text) (value : Value κ) (session : Session κ σ) :
    (Action.assign name value : Action κ σ Unit).run session =
      match session.assign name value with
      | .ok next => (.ok (), next)
      | .error fault => (.error fault, session) := by
  rw [Action.assign, run_bind, run_tryAssign]
  cases session.assign name value <;> rfl

theorem Action.run_assign_snd (name : Text) (value : Value κ) (session : Session κ σ) :
    ((Action.assign name value : Action κ σ Unit).run session).2 =
      ((tryAssign name value : Action κ σ (Except Fault Unit)).run session).2 := by
  rw [run_assign, run_tryAssign]
  cases session.assign name value <;> rfl

/-! ## What becomes of a marker -/

/-- An assignment to a marker is the event that gives it a criterion. -/
theorem lastGiven?_event (name : Text) (happened : List (Happening κ)) :
    lastGiven? name (happened.filterMap Happening.event?) =
      (lastAssignment? name happened).map (·.criterion) := by
  have each : (fun happening : Happening κ => happening.event?.bind (Event.given? name)) =
      fun happening => (happening.assignment? name).map (·.criterion) := by
    funext happening
    cases happening with
    | made making => rfl
    | rendered marker memory => rfl
    | assigned assignment =>
      by_cases same : assignment.marker = name
      · simp [Happening.event?, Assignment.event, Event.given?, Happening.assignment?, same]
      · simp [Happening.event?, Assignment.event, Event.given?, Happening.assignment?, same]
  rw [lastGiven?, lastAssignment?, List.filterMap_filterMap, each, ← List.map_filterMap,
    List.getLast?_map]

/-- No marker of the name is made. -/
def Unmade (name : Text) (happened : List (Happening κ)) : Prop :=
  ∀ making, .made making ∈ happened → making.name ≠ name

/-- While no marker of the name is made, the one that has it is given criteria and is else left
alone. -/
theorem foldl_turn {name : Text} {happened : List (Happening κ)} (unmade : Unmade name happened)
    (held : Option (Marker κ)) :
    happened.foldl (Happening.turn name) held = held.map fun marker =>
      { marker with
        criterion := ((lastAssignment? name happened).map (·.criterion)).getD marker.criterion } := by
  induction happened generalizing held with
  | nil => exact Option.map_id'.symm
  | cons happening later ih =>
    have rest := ih fun making member => unmade making (List.mem_cons_of_mem _ member)
    rw [List.foldl_cons, rest]
    cases happening with
    | made making =>
      rw [Happening.turn, if_neg (unmade making List.mem_cons_self)]
      rfl
    | rendered marker memory => rfl
    | assigned assignment =>
      by_cases same : assignment.marker = name
      · have last : lastAssignment? name (.assigned assignment :: later) =
            (lastAssignment? name later).or (some assignment) := by
          simp [lastAssignment?, Happening.assignment?, same, List.getLast?_cons]
        rw [Happening.turn, if_pos same, Option.map_map, last]
        congr 1
        funext marker
        cases lastAssignment? name later <;> rfl
      · have last : lastAssignment? name (.assigned assignment :: later) =
            lastAssignment? name later := by
          simp [lastAssignment?, Happening.assignment?, same]
        rw [Happening.turn, if_neg same, last]

namespace Session

/-- Between `before` and `after` all this happened: it was logged, and it turned the markers into
what they are. -/
structure Follows (before : Session κ σ) (happened : List (Happening κ)) (after : Session κ σ) :
    Prop where
  log_eq : after.log = before.log ++ happened.filterMap Happening.event?
  marker?_eq : ∀ name, after.marker? name =
    happened.foldl (Happening.turn name) (before.marker? name)

theorem Follows.refl (session : Session κ σ) : session.Follows [] session :=
  ⟨(List.append_nil _).symm, fun _ => rfl⟩

theorem Follows.trans {before middle after : Session κ σ} {first second : List (Happening κ)}
    (left : before.Follows first middle) (right : middle.Follows second after) :
    before.Follows (first ++ second) after := by
  refine ⟨?_, ?_⟩
  · rw [right.log_eq, left.log_eq, List.filterMap_append, List.append_assoc]
  · intro name
    rw [right.marker?_eq, left.marker?_eq, List.foldl_append]

/-- Where no marker is made, the log tells what becomes of the markers. -/
theorem Extends.follows {before after : Session κ σ} {happened : List (Happening κ)}
    (extended : before.Extends (happened.filterMap Happening.event?) after)
    (unmade : ∀ making, .made making ∉ happened) : before.Follows happened after := by
  refine ⟨extended.log_eq, ?_⟩
  intro name
  rw [extended.marker?_eq, lastGiven?_event,
    foldl_turn fun making member => absurd member (unmade making)]

end Session

/-- An action that only extends a session is followed by the assignments that it logs. -/
theorem Action.Extending.follows {action : Action κ σ α}
    {happened : Session κ σ → List (Assignment κ)} (extending : action.Extending)
    (logs : action.Logs happened) (session : Session κ σ) :
    session.Follows ((happened session).map .assigned) (action.run session).2 := by
  obtain ⟨added, extended⟩ := extending session
  have same : added = (happened session).map Assignment.event := by
    have logged := extended.log_eq
    rw [logs] at logged
    exact (List.append_cancel_left logged).symm
  have events : ((happened session).map Happening.assigned).filterMap Happening.event? = added := by
    have each : Happening.event? ∘ Happening.assigned = some ∘ (Assignment.event (κ := κ)) := rfl
    rw [same, List.filterMap_map, each, List.filterMap_eq_map]
  rw [← events] at extended
  refine extended.follows ?_
  intro making member
  obtain ⟨assignment, -, same⟩ := List.mem_map.1 member
  cases same

/-! ## One operation -/

namespace Operation

theorem run_perform_create (name : Text) (text : Value κ) (fields : List (Text × Value κ))
    (value : Value κ) (session : Session κ σ) :
    ((create name text fields value).perform : Action κ σ Answer).run session =
      match Marker.create Rules.kind session.describe text fields value with
      | .ok marker => (.ok .done, session.put name marker)
      | .error fault => (.error fault, session) := by
  rw [perform, Action.newMarker]
  simp only [bind_assoc]
  rw [Action.run_get_bind]
  cases Marker.create Rules.kind session.describe text fields value <;> rfl

theorem run_perform_assign (name : Text) (value : Value κ) (session : Session κ σ) :
    ((assign name value).perform : Action κ σ Answer).run session =
      match session.assign name value with
      | .ok next => (.ok .done, next)
      | .error fault => (.error fault, session) := by
  rw [perform, Action.run_bind, Action.run_assign]
  cases session.assign name value <;> rfl

/-- To copy a criterion is to assign it. -/
theorem run_perform_copy {session : Session κ σ} {giver : Text} {held : Marker κ}
    (found : session.marker? giver = some held) (name : Text) :
    ((copy name giver).perform : Action κ σ Answer).run session =
      ((assign name (.criterion held.criterion)).perform : Action κ σ Answer).run session := by
  simp only [perform]
  rw [Action.run_bind_ok (Action.run_marker found)]

/-! ### What happens while an operation is performed -/

theorem follows_create (name : Text) (text : Value κ) (fields : List (Text × Value κ))
    (value : Value κ) (session : Session κ σ) :
    session.Follows ((create name text fields value).happenings session)
      (((create name text fields value).perform : Action κ σ Answer).run session).2 := by
  have ran := run_perform_create name text fields value session
  rw [happenings]
  split
  · rename_i marker made
    rw [made] at ran
    rw [ran]
    refine ⟨(List.append_nil _).symm, ?_⟩
    intro wanted
    rw [Session.marker?_put]
    by_cases same : wanted = name
    · simp [Happening.turn, same]
    · simp [Happening.turn, same, Ne.symm same]
  · rename_i fault failed
    rw [failed] at ran
    rw [ran]
    exact Session.Follows.refl session

theorem follows_assign (name : Text) (value : Value κ) (session : Session κ σ) :
    session.Follows ((assign name value).happenings session)
      (((assign name value).perform : Action κ σ Answer).run session).2 := by
  have tried := (Action.extending_tryAssign name value).follows
    (Action.logs_tryAssign (σ := σ) name value) session
  rw [← Action.run_assign_snd] at tried
  rw [perform, Action.run_bind_pure_snd]
  exact tried

theorem follows_copy (name giver : Text) (session : Session κ σ) :
    session.Follows ((copy name giver).happenings session)
      (((copy name giver).perform : Action κ σ Answer).run session).2 := by
  cases found : session.marker? giver with
  | none =>
    rw [perform, Action.run_bind_error (Action.run_marker_of_none found), happenings, found]
    exact Session.Follows.refl session
  | some held =>
    rw [run_perform_copy found, happenings, found]
    exact follows_assign name (.criterion held.criterion) session

/-- While tags are resolved nothing but assignments happens. -/
theorem follows_mapM (marker : Marker κ) (found : List Tag) (session : Session κ σ) :
    session.Follows ((assignmentsOf marker.resolve marker.assignments found session).map .assigned)
      ((found.mapM marker.resolve : Action κ σ (List Text)).run session).2 :=
  (Action.extending_mapM marker.extending_resolve found).follows
    (Action.logs_mapM marker.logs_resolve found) session

/-- To log what was rendered is one more happening. -/
theorem follows_note (marker : Marker κ) (session : Session κ σ) :
    session.Follows [.rendered marker session.memory]
      (session.note (.rendered marker.tags.length marker.source.length
        (marker.criterion.shown session.describe))) :=
  ⟨rfl, fun _ => rfl⟩

/-- To render is to resolve all tags, and then to log it and to weave. -/
theorem run_perform_render_eq {session : Session κ σ} {name : Text} {marker : Marker κ}
    (held : session.marker? name = some marker) :
    ((render name).perform : Action κ σ Answer).run session =
      (marker.tags.mapM marker.resolve >>= fun shown =>
        noteRendered marker (weave 0 marker.source marker.tags shown)).run session := by
  rw [run_perform_render held, renderAsking_eq, bind_assoc]
  simp only [pure_bind]

theorem follows_render (name : Text) (session : Session κ σ) :
    session.Follows ((render name).happenings session)
      (((render name).perform : Action κ σ Answer).run session).2 := by
  cases held : session.marker? name with
  | none =>
    rw [perform, Action.run_bind_error (Action.run_marker_of_none held), happenings, held]
    exact Session.Follows.refl session
  | some marker =>
    have resolved := follows_mapM marker marker.tags session
    simp only [happenings, held]
    rw [run_perform_render_eq held, Action.run_bind]
    rcases outcome : (marker.tags.mapM marker.resolve : Action κ σ (List Text)).run session with
      ⟨fault | shown, after⟩
    · -- the rendering failed, and nothing is logged for it
      rw [outcome] at resolved
      rw [List.append_nil]
      exact resolved
    · rw [outcome] at resolved
      exact resolved.trans (follows_note marker after)

/-- While a tag is resolved with the criterion that a marker has then, nothing but assignments
happens. -/
theorem logs_resolveTag (name : Text) (tag : Tag) :
    (resolveTag name tag : Action κ σ Text).Logs (assignments name tag) := by
  intro session
  rw [resolveTag, assignments]
  cases held : session.marker? name with
  | none =>
    rw [Action.run_bind_error (Action.run_marker_of_none held)]
    exact (List.append_nil _).symm
  | some marker =>
    rw [Action.run_bind_ok (Action.run_marker held)]
    exact marker.logs_resolve tag session

theorem extending_resolveTag (name : Text) (tag : Tag) :
    (resolveTag name tag : Action κ σ Text).Extending := by
  refine Action.Extending.bind ?_ fun marker => marker.extending_resolve tag
  intro session
  rw [Action.run_marker_snd]
  exact ⟨[], Session.Extends.refl session⟩

theorem follows_resolve (name : Text) (tag : Tag) (session : Session κ σ) :
    session.Follows ((resolve name tag).happenings session)
      (((resolve name tag).perform : Action κ σ Answer).run session).2 := by
  rw [perform, Action.run_bind_pure_snd]
  exact (extending_resolveTag name tag).follows (logs_resolveTag name tag) session

theorem follows_resolveEach (name giver : Text) (session : Session κ σ) :
    session.Follows ((resolveEach name giver).happenings session)
      (((resolveEach name giver).perform : Action κ σ Answer).run session).2 := by
  cases found : session.marker? giver with
  | none =>
    rw [perform, Action.run_bind_error (Action.run_marker_of_none found), happenings, found]
    exact Session.Follows.refl session
  | some held =>
    simp only [perform, happenings, found]
    rw [Action.run_bind_ok (Action.run_marker found), Action.run_bind_pure_snd]
    exact (Action.extending_mapM (extending_resolveTag name) held.tags).follows
      (Action.logs_mapM (logs_resolveTag name) held.tags) session

/-- **Step.** What becomes of a session by an operation is told by what happens while it is
performed. -/
theorem follows_perform (operation : Operation κ) (session : Session κ σ) :
    session.Follows (operation.happenings session)
      ((operation.perform : Action κ σ Answer).run session).2 := by
  cases operation with
  | create name text fields value => exact follows_create name text fields value session
  | assign name value => exact follows_assign name value session
  | copy name giver => exact follows_copy name giver session
  | render name => exact follows_render name session
  | resolve name tag => exact follows_resolve name tag session
  | resolveEach name giver => exact follows_resolveEach name giver session
  | tags name | identifiers name | source name | options name =>
    rw [perform, Action.run_bind_pure_snd, Action.run_marker_snd]
    exact Session.Follows.refl session
  | setSource name | setOptions name => exact Session.Follows.refl session

/-- **Run.** What becomes of a session in a run is told by the history of the run. -/
theorem follows_history (operations : List (Operation κ)) (session : Session κ σ) :
    session.Follows (history operations session) (run operations session).2 := by
  induction operations generalizing session with
  | nil => exact Session.Follows.refl session
  | cons operation rest ih =>
    exact (follows_perform operation session).trans
      (ih ((operation.perform : Action κ σ Answer).run session).2)

end Operation

end Waymark
