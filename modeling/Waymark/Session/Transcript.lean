import Waymark.Session.History

/-!
# What a run has to log

A transcript lists the lines that a run has to log, told from the outcomes of its operations without
a look at the log. While an operation is performed, rules may assign criteria, one line for each.
Behind these the operation may log a line of its own (`Operation.Adds`): an assignment that
succeeds, and a rendering that comes to its end.
-/

namespace Waymark

variable {κ σ : Type} [Rules κ σ]

/-- The lines of the log, from first to last. -/
def Session.lines (session : Session κ σ) : List Text := session.log.map Event.line

/-- The line of an assignment, with the criterion as it was shown then. -/
def Assignment.line (assignment : Assignment κ) : Text :=
  "Criterion set to ".toList ++ assignment.criterion.shown (Rules.describe · assignment.memory)

namespace Operation

/-- The assignments that rules make while an operation is performed, from first to last. -/
def inside : Operation κ → Session κ σ → List (Assignment κ)
  | render name, session =>
      match session.marker? name with
      | some marker => assignmentsOf marker.resolve marker.assignments marker.tags session
      | none => []
  | resolve name tag, session => assignments name tag session
  | resolveEach name giver, session =>
      match session.marker? giver with
      | some held => assignmentsOf (resolveTag name) (assignments name) held.tags session
      | none => []
  | _, _ => []

/-- The operation never logs a line of its own. -/
def Silent : Operation κ → Prop
  | assign _ _ | copy _ _ | render _ => False
  | _ => True

/-- The lines that an operation itself has to log, where it is performed in `session`, has the given
outcome, and leaves the session that is given behind. -/
inductive Adds (session : Session κ σ) :
    Operation κ → Except Fault Answer → Session κ σ → List Text → Prop where
  /-- The criterion that the value stands for is shown as it is at that time. -/
  | assigned {name : Text} {value : Value κ} {criterion : Criterion κ} {after : Session κ σ} :
      value.toCriterion session.describe = .ok criterion →
      Adds session (assign name value) (.ok .done) after
        ["Criterion set to ".toList ++ criterion.shown session.describe]
  | copied {name giver : Text} {held : Marker κ} {after : Session κ σ} :
      session.marker? giver = some held →
      Adds session (copy name giver) (.ok .done) after
        ["Criterion set to ".toList ++ held.criterion.shown session.describe]
  /-- The criterion is the one that the marker had at the beginning, shown as it is at the end. -/
  | rendered {name : Text} {marker : Marker κ} {text : Text} {after : Session κ σ} :
      session.marker? name = some marker →
      Adds session (render name) (.ok (.text text)) after
        ["Rendered ".toList ++ Text.ofNat (Waymark.tags marker.source).length ++
          " tags in ".toList ++ Text.ofNat marker.source.length ++ " chars with ".toList ++
          marker.criterion.shown after.describe]
  | silent {operation : Operation κ} {answer : Answer} {after : Session κ σ} :
      operation.Silent → Adds session operation (.ok answer) after []
  | failed {operation : Operation κ} {fault : Fault} {after : Session κ σ} :
      Adds session operation (.error fault) after []

/-- The lines that a run has to log. Those of the assignments that rules make while an operation is
performed come before the line of the operation itself. -/
inductive Transcript : List (Operation κ) → Session κ σ → List Text → Prop where
  | nil (session : Session κ σ) : Transcript [] session []
  | cons {operation : Operation κ} {rest : List (Operation κ)} {session after : Session κ σ}
      {outcome : Except Fault Answer} {own later : List Text} :
      (operation.perform : Action κ σ Answer).run session = (outcome, after) →
      operation.Adds session outcome after own → Transcript rest after later →
      Transcript (operation :: rest) session
        ((operation.inside session).map Assignment.line ++ own ++ later)

end Operation

end Waymark
