import Waymark.Proofs.Session.History
import Waymark.Session.Transcript

/-!
# The log of a run

The log shows the transcript of a run, line by line (`run_logged`). One law for each operation says
which lines it adds to the log (`Operation.adds_perform`), and the run adds them one after another
(`Operation.transcript_run`).
-/

namespace Waymark

variable {κ σ α : Type} [Rules κ σ]

/-! ## Lines that are added -/

namespace Session

omit [Rules κ σ] in
theorem lines_start (memory : σ) : (start memory : Session κ σ).lines = [] := rfl

omit [Rules κ σ] in
theorem lines_note (session : Session κ σ) (event : Event κ) :
    (session.note event).lines = session.lines ++ [event.line] := by
  rw [lines, note, List.map_append]
  rfl

/-- An assignment that succeeds is logged at once. -/
theorem lines_of_assign {session next : Session κ σ} {name : Text} {value : Value κ}
    (assigned : session.assign name value = .ok next) :
    ∃ criterion, value.toCriterion session.describe = .ok criterion ∧
      next.lines =
        session.lines ++ ["Criterion set to ".toList ++ criterion.shown session.describe] := by
  cases held : session.marker? name with
  | none =>
    rw [assign_of_none held] at assigned
    cases assigned
  | some marker =>
    cases made : value.toCriterion session.describe with
    | error fault =>
      rw [assign_of_error held made] at assigned
      cases assigned
    | ok criterion =>
      rw [assign_of_ok held made] at assigned
      refine ⟨criterion, rfl, ?_⟩
      rw [← Except.ok.inj assigned, lines_note]
      rfl

end Session

/-- Where assignments are logged and nothing else, their lines are added. -/
theorem Action.Logs.lines {action : Action κ σ α} {happened : Session κ σ → List (Assignment κ)}
    (logs : action.Logs happened) (session : Session κ σ) :
    (action.run session).2.lines = session.lines ++ (happened session).map Assignment.line := by
  rw [Session.lines, logs, List.map_append, List.map_map]
  rfl

namespace Operation

/-! ## The lines of one operation -/

/-- An operation that never logs has nothing to log, whatever its outcome is. -/
theorem Silent.adds {operation : Operation κ} (silent : operation.Silent) (session : Session κ σ)
    (outcome : Except Fault Answer) (after : Session κ σ) :
    operation.Adds session outcome after [] := by
  cases outcome with
  | ok answer => exact Adds.silent silent
  | error fault => exact Adds.failed

/-- The outcome tells what an operation has to log. -/
theorem Adds.unique {session after : Session κ σ} {operation : Operation κ}
    {outcome : Except Fault Answer} {first second : List Text}
    (left : operation.Adds session outcome after first)
    (right : operation.Adds session outcome after second) : first = second := by
  cases left with
  | assigned made =>
    cases right with
    | assigned also =>
      rw [Except.ok.inj (made.symm.trans also)]
    | silent silent => exact silent.elim
  | copied held =>
    cases right with
    | copied also =>
      rw [Option.some.inj (held.symm.trans also)]
    | silent silent => exact silent.elim
  | rendered held =>
    cases right with
    | rendered also =>
      rw [Option.some.inj (held.symm.trans also)]
    | silent silent => exact silent.elim
  | silent silent =>
    cases right with
    | assigned | copied | rendered => exact silent.elim
    | silent => rfl
  | failed =>
    cases right with
    | failed => rfl

/-- What an operation adds to the log: the lines of the assignments that rules make meanwhile, and
then what it has to log itself. -/
def Logged (operation : Operation κ) (session : Session κ σ) : Prop :=
  let ran := (operation.perform : Action κ σ Answer).run session
  ∃ own, operation.Adds session ran.1 ran.2 own ∧
    ran.2.lines = session.lines ++ (operation.inside session).map Assignment.line ++ own

/-- A silent operation adds the lines of the assignments that rules make, and nothing else. -/
theorem Silent.logged {operation : Operation κ} (silent : operation.Silent) {session : Session κ σ}
    (lines : ((operation.perform : Action κ σ Answer).run session).2.lines =
      session.lines ++ (operation.inside session).map Assignment.line) :
    operation.Logged session :=
  ⟨[], silent.adds session _ _, by rw [List.append_nil, lines]⟩

/-- An operation that fails and leaves the session as it is adds nothing. -/
theorem logged_of_failed {operation : Operation κ} {session : Session κ σ} {fault : Fault}
    (failed : (operation.perform : Action κ σ Answer).run session = (.error fault, session))
    (alone : operation.inside session = []) : operation.Logged session := by
  refine ⟨[], ?_, ?_⟩
  · rw [failed]
    exact Adds.failed
  · rw [failed, alone]
    simp

theorem logged_create (name : Text) (text : Value κ) (fields : List (Text × Value κ))
    (value : Value κ) (session : Session κ σ) :
    (create name text fields value).Logged session := by
  have silent : (create name text fields value).Silent := trivial
  refine silent.logged ?_
  rw [run_perform_create]
  cases Marker.create Rules.kind session.describe text fields value with
  | ok marker => exact (List.append_nil _).symm
  | error fault => exact (List.append_nil _).symm

/-- An operation that does nothing but assign a value, where `adds` says that it has to log what
the value stands for. -/
theorem logged_of_assign {operation : Operation κ} {session : Session κ σ} {name : Text}
    {value : Value κ}
    (ran : (operation.perform : Action κ σ Answer).run session =
      match session.assign name value with
      | .ok next => (.ok .done, next)
      | .error fault => (.error fault, session))
    (alone : operation.inside session = [])
    (adds : ∀ criterion after, value.toCriterion session.describe = .ok criterion →
      operation.Adds session (.ok .done) after
        ["Criterion set to ".toList ++ criterion.shown session.describe]) :
    operation.Logged session := by
  cases assigned : session.assign name value with
  | error fault =>
    rw [assigned] at ran
    exact logged_of_failed ran alone
  | ok next =>
    rw [assigned] at ran
    obtain ⟨criterion, made, lines⟩ := Session.lines_of_assign assigned
    refine ⟨["Criterion set to ".toList ++ criterion.shown session.describe], ?_, ?_⟩
    · rw [ran]
      exact adds criterion next made
    · rw [ran, alone, List.map_nil, List.append_nil]
      exact lines

theorem logged_assign (name : Text) (value : Value κ) (session : Session κ σ) :
    (assign name value).Logged session := by
  refine logged_of_assign (run_perform_assign name value session) rfl ?_
  intro criterion after made
  exact Adds.assigned made

theorem logged_copy (name giver : Text) (session : Session κ σ) :
    (copy name giver).Logged session := by
  cases found : session.marker? giver with
  | none =>
    have failed : ((copy name giver).perform : Action κ σ Answer).run session =
        (.error (.noMarker giver), session) := by
      rw [perform, Action.run_bind_error (Action.run_marker_of_none found)]
    exact logged_of_failed failed rfl
  | some held =>
    refine logged_of_assign ((run_perform_copy found name).trans
      (run_perform_assign name (.criterion held.criterion) session)) rfl ?_
    intro criterion after made
    obtain rfl := Except.ok.inj made
    exact Adds.copied found

theorem logged_render (name : Text) (session : Session κ σ) : (render name).Logged session := by
  cases held : session.marker? name with
  | none =>
    have failed : ((render name).perform : Action κ σ Answer).run session =
        (.error (.noMarker name), session) := by
      rw [perform, Action.run_bind_error (Action.run_marker_of_none held)]
    refine logged_of_failed failed ?_
    rw [inside, held]
  | some marker =>
    have within : (render name).inside session =
        assignmentsOf marker.resolve marker.assignments marker.tags session := by
      simp only [inside, held]
    have resolved := (Action.logs_mapM marker.logs_resolve marker.tags).lines session
    rw [← within] at resolved
    have ran := run_perform_render_eq held
    rw [Action.run_bind] at ran
    rcases outcome : (marker.tags.mapM marker.resolve : Action κ σ (List Text)).run session with
      ⟨fault | shown, after⟩
    · -- the rendering ends with the fault, and only the rules have logged
      rw [outcome] at resolved ran
      refine ⟨[], ?_, ?_⟩
      · rw [ran]
        exact Adds.failed
      · rw [ran, List.append_nil]
        exact resolved
    · rw [outcome] at resolved ran
      refine ⟨[(Event.rendered marker.tags.length marker.source.length
        (marker.criterion.shown after.describe) : Event κ).line], ?_, ?_⟩
      · rw [ran]
        exact Adds.rendered held
      · rw [ran, ← resolved]
        exact Session.lines_note after _

theorem logged_resolve (name : Text) (tag : Tag) (session : Session κ σ) :
    (resolve name tag).Logged session := by
  have silent : (resolve name tag : Operation κ).Silent := trivial
  refine silent.logged ?_
  rw [perform, Action.run_bind_pure_snd]
  exact (logs_resolveTag name tag).lines session

theorem logged_resolveEach (name giver : Text) (session : Session κ σ) :
    (resolveEach name giver).Logged session := by
  have silent : (resolveEach name giver : Operation κ).Silent := trivial
  refine silent.logged ?_
  cases found : session.marker? giver with
  | none =>
    rw [perform, Action.run_bind_error (Action.run_marker_of_none found), inside, found]
    exact (List.append_nil _).symm
  | some held =>
    simp only [perform, inside, found]
    rw [Action.run_bind_ok (Action.run_marker found), Action.run_bind_pure_snd]
    exact (Action.logs_mapM (logs_resolveTag name) held.tags).lines session

/-- **Step.** What an operation adds to the log is told by its outcome, and by the assignments that
rules make while it is performed. -/
theorem adds_perform (operation : Operation κ) (session : Session κ σ) :
    operation.Logged session := by
  cases operation with
  | create name text fields value => exact logged_create name text fields value session
  | assign name value => exact logged_assign name value session
  | copy name giver => exact logged_copy name giver session
  | render name => exact logged_render name session
  | resolve name tag => exact logged_resolve name tag session
  | resolveEach name giver => exact logged_resolveEach name giver session
  | tags name | identifiers name | source name | options name =>
    refine Silent.logged ?_ ?_
    · trivial
    · rw [perform, Action.run_bind_pure_snd, Action.run_marker_snd]
      exact (List.append_nil _).symm
  | setSource name | setOptions name =>
    refine Silent.logged ?_ (List.append_nil _).symm
    trivial

/-! ## The lines of a run -/

/-- A run has one transcript. -/
theorem Transcript.unique {operations : List (Operation κ)} {session : Session κ σ}
    {first second : List Text} (left : Transcript operations session first)
    (right : Transcript operations session second) : first = second := by
  induction left generalizing second with
  | nil session =>
    cases right with
    | nil => rfl
  | cons ran adds _ ih =>
    cases right with
    | cons again also rest =>
      obtain ⟨rfl, rfl⟩ := Prod.mk.inj (ran.symm.trans again)
      rw [adds.unique also, ih rest]

/-- **Run.** A run adds its transcript to the log. -/
theorem transcript_run (operations : List (Operation κ)) (session : Session κ σ) :
    ∃ lines, Transcript operations session lines ∧
      (run operations session).2.lines = session.lines ++ lines := by
  induction operations generalizing session with
  | nil => exact ⟨[], Transcript.nil session, (List.append_nil _).symm⟩
  | cons operation rest ih =>
    obtain ⟨own, adds, first⟩ := operation.adds_perform session
    obtain ⟨later, transcript, second⟩ := ih ((operation.perform : Action κ σ Answer).run session).2
    refine ⟨_, Transcript.cons rfl adds transcript, ?_⟩
    show (run rest ((operation.perform : Action κ σ Answer).run session).2).2.lines = _
    rw [second, first]
    simp only [List.append_assoc]

end Operation

/-- **Log.** The log of a run shows its transcript, and nothing else. A line for an assignment comes
when a value is assigned, and shows what it stands for as that is shown then. So it is where a rule
assigns a value while it is asked; and where that fails, the rule goes on in the session as it was. -/
theorem run_logged (κ σ : Type) [Rules κ σ] :
    (∀ (operations : List (Operation κ)) (memory : σ) (lines : List Text),
      Operation.Transcript operations (Session.start memory) lines ↔
        (Operation.run operations (Session.start memory)).2.lines = lines) ∧
    (∀ (session after : Session κ σ) (name : Text) (value : Value κ),
      session.assign name value = .ok after →
        ∃ criterion, value.toCriterion session.describe = .ok criterion ∧
          after.lines =
            session.lines ++ ["Criterion set to ".toList ++ criterion.shown session.describe]) ∧
    ∀ (session : Session κ σ) (name : Text) (value : Value κ)
      (next : Except Fault Unit → Script κ σ),
      (Script.assign name value next).perform.run session =
        match session.assign name value with
        | .ok after => (next (.ok ())).perform.run after
        | .error fault => (next (.error fault)).perform.run session := by
  refine ⟨?_, ?_, ?_⟩
  · intro operations memory lines
    obtain ⟨shown, transcript, logged⟩ :=
      Operation.transcript_run operations (Session.start memory : Session κ σ)
    rw [Session.lines_start, List.nil_append] at logged
    constructor
    · intro other
      rw [logged, transcript.unique other]
    · intro same
      rw [← same, logged]
      exact transcript
  · intro session after name value assigned
    exact Session.lines_of_assign assigned
  · intro session name value next
    rw [Script.perform, Action.run_bind, Action.run_tryAssign]
    cases session.assign name value <;> rfl

/-- The lines of a rule that assigns all identifiers to the marker that is being rendered come
before the line of the rendering, which shows the rule, as it is at the end. What is refused has no
line. -/
theorem run_logged_deserting :
    let source := "<x:1?a|b><x:2?c|d>".toList
    let operations : List (Operation Counting) :=
      [.create ['m'] (.text source) [] (.criterion (.rule .deserting)), .render ['m'],
        .assign ['m'] (.truth true), .assign ['m'] (.integer 7), .render ['m']]
    Operation.Transcript operations (Session.start 0)
        ["Criterion set to MATCH_ALL".toList, "Criterion set to MATCH_ALL".toList,
          "Rendered 2 tags in 18 chars with 2".toList,
          "Criterion set to MatchId(identifier='7')".toList,
          "Rendered 2 tags in 18 chars with MatchId(identifier='7')".toList] ∧
      ∃ after, Counting.deserting.session.assign ['m'] (.integer 7) = .ok after ∧
        after.lines = ["Criterion set to MatchId(identifier='7')".toList] := by
  intro source operations
  have logged := run_logged Counting Nat
  refine ⟨?_, ?_⟩
  · refine (logged.1 operations 0 _).2 ?_
    decide
  · refine ⟨_, rfl, ?_⟩
    obtain ⟨criterion, made, lines⟩ :=
      logged.2.1 Counting.deserting.session _ ['m'] (.integer 7) rfl
    obtain rfl := Except.ok.inj made
    exact lines

end Waymark
