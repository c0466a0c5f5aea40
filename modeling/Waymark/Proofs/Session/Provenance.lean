import Waymark.Proofs.Session.History

/-!
# Where markers come from

After any run each marker stems from the operation that made it: that operation determines the text,
the options, the tags and the identifiers, and the criterion is what was assigned last since then
(`Marker.StemsFrom`, `run_provenance`). What an operation may do to the markers, and when it fails,
is collected in `Session.Lawful`, which holds of every session, also of those that a rule sees while
it is asked.
-/

namespace Waymark

variable {κ σ : Type} [Rules κ σ]

/-! ## Making a marker -/

theorem Marker.create_eq_ok_iff {ruleKind describe : κ → Text} {text value : Value κ}
    {fields : List (Text × Value κ)} {marker : Marker κ} :
    create ruleKind describe text fields value = .ok marker ↔
      text = .text marker.source ∧ Options.ofFields fields = .ok marker.options ∧
        value.toCriterion describe = .ok marker.criterion := by
  obtain ⟨source, options, criterion⟩ := marker
  unfold create
  cases Options.ofFields fields with
  | error errors => simp
  | ok given =>
    cases text with
    | text handed =>
      cases value.toCriterion describe with
      | error fault => simp [Except.map]
      | ok made => simp [Except.map]
    | _ => simp

/-- With good options, a marker is not made of what is no text, nor with a truth value as its
criterion. -/
theorem Marker.create_fails_iff {ruleKind describe : κ → Text} {text value : Value κ}
    {fields : List (Text × Value κ)} {options : Options}
    (good : Options.ofFields fields = .ok options) {fault : Fault} :
    create ruleKind describe text fields value = .error fault ↔
      ((∀ source, text ≠ .text source) ∧ fault = .notText (text.kind ruleKind)) ∨
        ∃ source truth, text = .text source ∧ value = .truth truth ∧
          fault = .ambiguousTruth truth := by
  unfold create
  rw [good]
  cases text with
  | text source =>
    cases made : value.toCriterion describe with
    | error other =>
      obtain ⟨truth, rfl, rfl⟩ := Value.toCriterion_eq_error_iff.1 made
      simp [Except.map, eq_comm]
    | ok criterion =>
      have refused : ∀ truth, value ≠ .truth truth := by
        rintro truth rfl
        simp [Value.toCriterion] at made
      simp [Except.map, refused]
  | _ => simp [eq_comm]

/-! ## The last making of a marker -/

/-- The marker is what `making` made, with the criterion that the value stood for which was assigned
last since then, or else the one that it was made with. -/
structure Marker.StemsFrom (marker : Marker κ) (making : Making κ) (since : List (Happening κ)) :
    Prop where
  text_eq : making.text = .text marker.source
  options_eq : Options.ofFields making.fields = .ok marker.options
  criterion_eq :
    match lastAssignment? making.name since with
    | some assignment =>
        assignment.value.toCriterion (Rules.describe · assignment.memory) = .ok marker.criterion
    | none => making.value.toCriterion (Rules.describe · making.memory) = .ok marker.criterion

theorem Marker.StemsFrom.unique {first second : Marker κ} {making : Making κ}
    {since : List (Happening κ)} (left : first.StemsFrom making since)
    (right : second.StemsFrom making since) : first = second := by
  have sources := left.text_eq.symm.trans right.text_eq
  have fields := left.options_eq.symm.trans right.options_eq
  have criteria : first.criterion = second.criterion := by
    have former := left.criterion_eq
    have latter := right.criterion_eq
    cases last : lastAssignment? making.name since with
    | none =>
      rw [last] at former latter
      exact Except.ok.inj (former.symm.trans latter)
    | some assignment =>
      rw [last] at former latter
      exact Except.ok.inj (former.symm.trans latter)
  cases first
  cases second
  rw [Marker.mk.injEq]
  exact ⟨Value.text.inj sources, Except.ok.inj fields, criteria⟩

/-- The marker that is there after its last making stems from it. -/
theorem Making.stemsFrom (making : Making κ) (since : List (Happening κ)) :
    Marker.StemsFrom
      { making.marker with
        criterion := ((lastAssignment? making.name since).map (·.criterion)).getD
          making.marker.criterion }
      making since := by
  obtain ⟨text, options, criterion⟩ := Marker.create_eq_ok_iff.1 making.made
  refine ⟨text, options, ?_⟩
  cases lastAssignment? making.name since with
  | none => exact criterion
  | some assignment => exact assignment.made

/-- If a marker of the name was made at all, it was made a last time. -/
theorem unmade_or_made_last (name : Text) (happened : List (Happening κ)) :
    Unmade name happened ∨ ∃ earlier making since,
      happened = earlier ++ .made making :: since ∧ making.name = name ∧ Unmade name since := by
  induction happened with
  | nil => exact .inl fun _ member => nomatch member
  | cons happening later ih =>
    rcases ih with unmade | ⟨earlier, making, since, rfl, named, last⟩
    · by_cases now : ∃ making, happening = .made making ∧ making.name = name
      · obtain ⟨making, rfl, named⟩ := now
        exact .inr ⟨[], making, later, rfl, named, unmade⟩
      · refine .inl ?_
        intro making member named
        rcases List.mem_cons.1 member with here | there
        · exact now ⟨making, here.symm, named⟩
        · exact unmade making there named
    · exact .inr ⟨happening :: earlier, making, since, rfl, named, last⟩

/-- What the happenings turn a name into that no marker had. -/
theorem foldl_turn_none_iff {name : Text} {happened : List (Happening κ)} {marker : Marker κ} :
    happened.foldl (Happening.turn name) none = some marker ↔
      ∃ earlier making since, happened = earlier ++ .made making :: since ∧ making.name = name ∧
        Unmade name since ∧ marker.StemsFrom making since := by
  have made_last {earlier since : List (Happening κ)} {making : Making κ}
      (named : making.name = name) (last : Unmade name since) :
      (earlier ++ .made making :: since).foldl (Happening.turn name) none =
        some { making.marker with
          criterion := ((lastAssignment? making.name since).map (·.criterion)).getD
            making.marker.criterion } := by
    rw [List.foldl_append, List.foldl_cons, foldl_turn last, Happening.turn, if_pos named, named]
    rfl
  constructor
  · intro held
    rcases unmade_or_made_last name happened with unmade | ⟨earlier, making, since, rfl, named, last⟩
    · rw [foldl_turn unmade] at held
      simp at held
    · rw [made_last named last] at held
      refine ⟨earlier, making, since, rfl, named, last, ?_⟩
      rw [← Option.some.inj held]
      exact making.stemsFrom since
  · rintro ⟨earlier, making, since, rfl, named, last, stems⟩
    rw [made_last named last, stems.unique (making.stemsFrom since)]

/-! ## Operations that fail -/

/-- Asks the criterion of a marker about a tag. -/
def Marker.askAbout (marker : Marker κ) (tag : Tag) : Action κ σ Unit := do
  let _ ← marker.criterion.ask tag.identifier
  pure ()

/-- A tag is resolved by asking about it. -/
theorem Marker.resolve_bind_pure (marker : Marker κ) (tag : Tag) :
    (marker.resolve tag >>= fun _ => pure () : Action κ σ Unit) = marker.askAbout tag := by
  simp [resolve, askAbout]

namespace Operation

/-- The operation fails in the session. -/
def Fails (operation : Operation κ) (session : Session κ σ) : Prop :=
  ∃ fault, ((operation.perform : Action κ σ Answer).run session).1 = .error fault

/-- The questions that an operation puts to criteria, one after another until one of them fails. -/
def asking : Operation κ → Action κ σ Unit
  | render name => do
      let marker ← Action.marker name
      marker.tags.forM marker.askAbout
  | resolve name tag => do (← Action.marker name).askAbout tag
  | resolveEach name giver => do
      let held ← Action.marker giver
      held.tags.forM fun tag => do (← Action.marker name).askAbout tag
  | _ => pure ()

theorem resolveTag_bind_pure (name : Text) (tag : Tag) :
    (resolveTag name tag >>= fun _ => pure () : Action κ σ Unit) =
      (do (← Action.marker name).askAbout tag) := by
  rw [resolveTag, bind_assoc]
  simp only [Marker.resolve_bind_pure]

/-- **Failures.** A failed operation leaves behind what the questions left that it put to criteria,
and nothing of its own. -/
theorem run_perform_of_fails {operation : Operation κ} {session : Session κ σ}
    (failed : operation.Fails session) :
    ((operation.perform : Action κ σ Answer).run session).2 = (operation.asking.run session).2 := by
  obtain ⟨fault, failed⟩ := failed
  cases operation with
  | create name text fields value =>
    rw [run_perform_create] at failed ⊢
    cases made : Marker.create Rules.kind session.describe text fields value with
    | error other => rfl
    | ok marker => simp [made] at failed
  | assign name value =>
    rw [run_perform_assign] at failed ⊢
    cases assigned : session.assign name value with
    | error other => rfl
    | ok after => simp [assigned] at failed
  | copy name giver =>
    cases found : session.marker? giver with
    | none =>
      rw [perform, Action.run_bind_error (Action.run_marker_of_none found)]
      rfl
    | some held =>
      rw [run_perform_copy found, run_perform_assign] at failed ⊢
      cases assigned : session.assign name (.criterion held.criterion) with
      | error other => rfl
      | ok after => simp [assigned] at failed
  | render name =>
    cases held : session.marker? name with
    | none =>
      rw [perform, asking, Action.run_bind_error (Action.run_marker_of_none held),
        Action.run_bind_error (Action.run_marker_of_none held)]
    | some marker =>
      rw [run_perform_render_eq held] at failed ⊢
      -- only the questions can fail, not the line of the log
      rw [Action.run_bind_snd_of_fails (fun _ _ => ⟨_, rfl⟩) failed, asking,
        Action.run_bind_ok (Action.run_marker held)]
      exact Action.run_mapM_snd marker.resolve_bind_pure marker.tags session
  | resolve name tag =>
    rw [perform, Action.run_bind_pure_snd, asking, ← resolveTag_bind_pure, Action.run_bind_pure_snd]
  | resolveEach name giver =>
    cases found : session.marker? giver with
    | none =>
      rw [perform, asking, Action.run_bind_error (Action.run_marker_of_none found),
        Action.run_bind_error (Action.run_marker_of_none found)]
    | some held =>
      rw [perform, asking, Action.run_bind_ok (Action.run_marker found),
        Action.run_bind_ok (Action.run_marker found), Action.run_bind_pure_snd]
      exact Action.run_mapM_snd (resolveTag_bind_pure name) held.tags session
  | tags name | identifiers name | source name | options name =>
    rw [perform, Action.run_bind_pure_snd, Action.run_marker_snd]
    rfl
  | setSource name | setOptions name => rfl

/-- Nothing but assignments happens while an operation fails. -/
theorem happenings_of_fails {operation : Operation κ} {session : Session κ σ}
    (failed : operation.Fails session) :
    ∃ assignments : List (Assignment κ),
      operation.happenings session = assignments.map .assigned := by
  obtain ⟨fault, failed⟩ := failed
  cases operation with
  | create name text fields value =>
    refine ⟨[], ?_⟩
    rw [run_perform_create] at failed
    rw [happenings]
    split
    · rename_i marker made
      simp [made] at failed
    · rfl
  | assign name value => exact ⟨_, rfl⟩
  | copy name giver =>
    rw [happenings]
    cases session.marker? giver with
    | none => exact ⟨[], rfl⟩
    | some held => exact ⟨_, rfl⟩
  | render name =>
    cases held : session.marker? name with
    | none =>
      rw [happenings, held]
      exact ⟨[], rfl⟩
    | some marker =>
      refine ⟨assignmentsOf marker.resolve marker.assignments marker.tags session, ?_⟩
      simp only [happenings, held]
      rw [run_perform_render_eq held, Action.run_bind] at failed
      rcases outcome : (marker.tags.mapM marker.resolve : Action κ σ (List Text)).run session with
        ⟨other | shown, after⟩
      · exact List.append_nil _
      · rw [outcome] at failed
        exact absurd (show Except.ok _ = Except.error fault from failed) (by simp)
  | resolve name tag => exact ⟨_, rfl⟩
  | resolveEach name giver =>
    rw [happenings]
    cases session.marker? giver with
    | none => exact ⟨[], rfl⟩
    | some held => exact ⟨_, rfl⟩
  | tags name | identifiers name | source name | options name | setSource name
  | setOptions name => exact ⟨[], rfl⟩

end Operation

/-! ## What operations do to markers -/

/-- What the operations do to the markers of a session, and when they fail. -/
structure Session.Lawful (session : Session κ σ) : Prop where
  /-- What is read off a marker depends on its text and its options alone. -/
  reads : ∀ {name : Text} {marker : Marker κ}, session.marker? name = some marker →
    let reads (operation : Operation κ) (answer : Answer) : Prop :=
      (operation.perform : Action κ σ Answer).run session = (.ok answer, session)
    reads (.source name) (.text marker.source) ∧ reads (.options name) (.options marker.options) ∧
      reads (.tags name) (.tags (tags marker.source)) ∧
      reads (.identifiers name) (.texts (identifiers (tags marker.source)))
  /-- The text and the options cannot be changed. -/
  keeps : ∀ name : Text,
    ((Operation.setSource name).perform : Action κ σ Answer).run session =
        (.error .readOnly, session) ∧
      ((Operation.setOptions name).perform : Action κ σ Answer).run session =
        (.error .readOnly, session)
  /-- To assign fails on truth values and on nothing else. -/
  assign_fails_iff : ∀ {name : Text} {marker : Marker κ}, session.marker? name = some marker →
    ∀ (value : Value κ) (fault : Fault),
      ((((Operation.assign name value).perform : Action κ σ Answer).run session).1 = .error fault ↔
        ∃ truth, value = .truth truth ∧ fault = .ambiguousTruth truth)
  /-- What a value stands for becomes the criterion of the marker that it is assigned to. -/
  assigns : ∀ {name : Text} {marker : Marker κ}, session.marker? name = some marker →
    ∀ {value : Value κ} {criterion : Criterion κ},
      value.toCriterion session.describe = .ok criterion →
      ∃ after, ((Operation.assign name value).perform : Action κ σ Answer).run session =
          (.ok .done, after) ∧
        ∀ other, after.marker? other =
          if other = name then some { marker with criterion } else session.marker? other
  /-- A rule assigns as a caller does. -/
  performs_assign : ∀ (name : Text) (value : Value κ) (next : Except Fault Unit → Script κ σ),
    ((Script.assign name value next).perform : Action κ σ Bool).run session =
      match ((Operation.assign name value).perform : Action κ σ Answer).run session with
      | (.ok _, after) => ((next (.ok ())).perform : Action κ σ Bool).run after
      | (.error fault, after) => ((next (.error fault)).perform : Action κ σ Bool).run after
  /-- With good options, to make a marker fails on what is no text, and then on truth values as
  criteria, and on nothing else. -/
  create_fails_iff : ∀ {fields : List (Text × Value κ)} {options : Options},
    Options.ofFields fields = .ok options → ∀ (name : Text) (text value : Value κ) (fault : Fault),
      ((((Operation.create name text fields value).perform : Action κ σ Answer).run session).1 =
          .error fault ↔
        ((∀ source, text ≠ .text source) ∧ fault = .notText (text.kind Rules.kind)) ∨
          ∃ source truth, text = .text source ∧ value = .truth truth ∧
            fault = .ambiguousTruth truth)
  /-- To make a marker leaves those of other names alone. -/
  create_spares : ∀ (name : Text) (text : Value κ) (fields : List (Text × Value κ))
    (value : Value κ) {other : Text}, other ≠ name →
      (((Operation.create name text fields value).perform : Action κ σ Answer).run
        session).2.marker? other = session.marker? other
  /-- The criterion of a marker can always be given to another one, and it is the same criterion. -/
  copies : ∀ {name giver : Text} {marker held : Marker κ}, session.marker? name = some marker →
    session.marker? giver = some held →
      (Value.criterion held.criterion).origin = .same ∧
      ∃ after, ((Operation.copy name giver).perform : Action κ σ Answer).run session =
          (.ok .done, after) ∧
        ∀ other, after.marker? other =
          if other = name then some { marker with criterion := held.criterion }
          else session.marker? other
  /-- A failed operation changes nothing but what the criteria change that it asks, and those only
  assign criteria to markers. -/
  failures : ∀ {operation : Operation κ}, operation.Fails session →
    let after := ((operation.perform : Action κ σ Answer).run session).2
    after = (operation.asking.run session).2 ∧
      ∃ assignments : List (Assignment κ), session.Follows (assignments.map .assigned) after

/-- A value that stands for a criterion is assigned, and the other markers stay as they are. -/
theorem Operation.run_perform_assign_ok {session : Session κ σ} {name : Text} {marker : Marker κ}
    (held : session.marker? name = some marker) {value : Value κ} {criterion : Criterion κ}
    (made : value.toCriterion session.describe = .ok criterion) :
    ∃ after, ((assign name value).perform : Action κ σ Answer).run session = (.ok .done, after) ∧
      ∀ other, after.marker? other =
        if other = name then some { marker with criterion } else session.marker? other := by
  rw [run_perform_assign, Session.assign_of_ok held made]
  refine ⟨_, rfl, ?_⟩
  intro other
  rw [Session.marker?_note, Session.marker?_put]

theorem Session.lawful (session : Session κ σ) : session.Lawful where
  reads {name marker} held := by
    intro reads
    have reading (read : Marker κ → Answer) :
        (Action.marker name >>= fun held => pure (read held) : Action κ σ Answer).run session =
          (.ok (read marker), session) :=
      Action.run_bind_ok (Action.run_marker held) _
    exact ⟨reading fun held => .text held.source, reading fun held => .options held.options,
      reading fun held => .tags held.tags, reading fun held => .texts held.identifiers⟩
  keeps name := ⟨rfl, rfl⟩
  assign_fails_iff {name marker} held value fault := by
    rw [Operation.run_perform_assign, ← @Value.toCriterion_eq_error_iff κ session.describe]
    cases made : value.toCriterion session.describe with
    | error other => simp [assign_of_error held made]
    | ok criterion => simp [assign_of_ok held made]
  assigns {name marker} held {value criterion} made := Operation.run_perform_assign_ok held made
  performs_assign name value next := by
    rw [Script.perform, Action.run_bind, Action.run_tryAssign, Operation.run_perform_assign]
    cases session.assign name value <;> rfl
  create_fails_iff {fields options} good name text value fault := by
    rw [← @Marker.create_fails_iff κ Rules.kind session.describe text value fields options good,
      Operation.run_perform_create]
    cases Marker.create Rules.kind session.describe text fields value <;> simp
  create_spares name text fields value other apart := by
    rw [Operation.run_perform_create]
    cases Marker.create Rules.kind session.describe text fields value with
    | error fault => rfl
    | ok marker => rw [marker?_put, if_neg apart]
  copies {name giver marker held} taken found := by
    refine ⟨rfl, ?_⟩
    rw [Operation.run_perform_copy found]
    exact Operation.run_perform_assign_ok taken (Value.toCriterion_criterion _ held.criterion)
  failures {operation} failed := by
    obtain ⟨assignments, happened⟩ := Operation.happenings_of_fails failed
    refine ⟨Operation.run_perform_of_fails failed, assignments, ?_⟩
    rw [← happened]
    exact Operation.follows_perform operation session

/-! ## Runs -/

/-- **Provenance.** After any run a marker is there exactly if it stems from the last operation that
made one of its name, with the criterion that was assigned to it last since then, by a caller or by
a rule, and the log tells each assignment and each finished rendering. In every session that comes
up, the operations do to markers what `Session.Lawful` tells. -/
theorem run_provenance (operations : List (Operation κ)) (memory : σ) :
    let start : Session κ σ := .start memory
    let happened := Operation.history operations start
    let reached := (Operation.run operations start).2
    reached.log = happened.filterMap Happening.event? ∧
      (∀ name marker, reached.marker? name = some marker ↔
        ∃ earlier making since, happened = earlier ++ .made making :: since ∧
          making.name = name ∧ Unmade name since ∧ marker.StemsFrom making since) ∧
      ∀ session : Session κ σ, session.Lawful := by
  intro start happened reached
  have followed : start.Follows happened reached := Operation.follows_history operations start
  refine ⟨followed.log_eq, ?_, Session.lawful⟩
  intro name marker
  rw [followed.marker?_eq]
  exact foldl_turn_none_iff

/-- Two markers share a rule that assigns to the first of them while it is asked. After each was
rendered, the first one has what the rule assigned, and the second one still has the rule, as the
truth value that the caller tried to assign to it was refused. -/
theorem run_provenance_counting :
    let source := "<x:1?a|b>".toList
    let operations : List (Operation Counting) :=
      [.create ['m'] (.text source) [] (.criterion (.rule .deserting)),
        .create ['n'] (.text source) [] .absent, .copy ['n'] ['m'], .assign ['n'] (.truth true),
        .render ['m'], .render ['n'], .setSource ['n']]
    let happened := Operation.history operations (.start 0)
    let reached := (Operation.run operations (.start 0)).2
    reached.marker? ['m'] = some ⟨source, {}, .all⟩ ∧
      reached.marker? ['n'] = some ⟨source, {}, .rule .deserting⟩ ∧
      (∃ earlier making since, happened = earlier ++ .made making :: since ∧
        making.name = ['n'] ∧ Unmade ['n'] since ∧
        Marker.StemsFrom ⟨source, {}, .rule .deserting⟩ making since) ∧
      reached.log = happened.filterMap Happening.event? ∧ reached.log.length = 5 := by
  intro source operations happened reached
  obtain ⟨logged, stems, -⟩ := run_provenance operations 0
  refine ⟨rfl, rfl, (stems _ _).1 rfl, logged, rfl⟩

end Waymark
