import Waymark.Session.Operation

/-!
# The history of a session

A history lists what happens in a session, from first to last: markers are made, criteria are
assigned to them, by a caller or by a rule while it is asked, and texts are rendered. Each entry
holds what was handed in, and what was made of it then. `Operation.history` tells the history of a
run, and `Happening.turn` what becomes of a marker by an entry.
-/

namespace Waymark

variable {κ σ : Type} [Rules κ σ]

/-- An assignment that succeeded. -/
structure Assignment (κ : Type) {σ : Type} [Rules κ σ] where
  /-- The name of the marker. -/
  marker : Text
  /-- What was handed in. -/
  value : Value κ
  /-- The memory of the rules at that time. -/
  memory : σ
  /-- What the value stood for. -/
  criterion : Criterion κ
  made : value.toCriterion (Rules.describe · memory) = .ok criterion

/-- A construction of a marker that succeeded. -/
structure Making (κ : Type) {σ : Type} [Rules κ σ] where
  name : Text
  /-- What was handed in as the text. -/
  text : Value κ
  /-- The fields that were handed in for the options. -/
  fields : List (Text × Value κ)
  /-- What was handed in for the criterion. -/
  value : Value κ
  /-- The memory of the rules at that time. -/
  memory : σ
  marker : Marker κ
  made : Marker.create Rules.kind (Rules.describe · memory) text fields value = .ok marker

/-- What happens in a session. -/
inductive Happening (κ : Type) {σ : Type} [Rules κ σ] where
  /-- A marker was made, in the place of the one that had its name. -/
  | made (making : Making κ)
  /-- A criterion was assigned to a marker. -/
  | assigned (assignment : Assignment κ)
  /-- The text of a marker was rendered to its end; the marker is as it was at the beginning, and the
  memory of the rules is that at the end. -/
  | rendered (marker : Marker κ) (memory : σ)

/-- An assignment as it is logged. -/
def Assignment.event (assignment : Assignment κ) : Event κ :=
  .criterionSet assignment.marker assignment.criterion
    (assignment.criterion.shown (Rules.describe · assignment.memory))

namespace Happening

/-- What is logged when something happens. -/
def event? : Happening κ → Option (Event κ)
  | made _ => none
  | assigned assignment => some assignment.event
  | rendered marker memory => some (.rendered marker.tags.length marker.source.length
      (marker.criterion.shown (Rules.describe · memory)))

/-- What becomes of the marker that has a name. -/
def turn (name : Text) (held : Option (Marker κ)) : Happening κ → Option (Marker κ)
  | made making => if making.name = name then some making.marker else held
  | assigned assignment =>
      if assignment.marker = name then
        held.map fun marker => { marker with criterion := assignment.criterion }
      else held
  | rendered _ _ => held

/-- The assignment to a marker that has a name. -/
def assignment? (name : Text) : Happening κ → Option (Assignment κ)
  | assigned assignment => if assignment.marker = name then some assignment else none
  | _ => none

end Happening

/-- The last assignment to a marker that has a name. -/
def lastAssignment? (name : Text) (happened : List (Happening κ)) : Option (Assignment κ) :=
  (happened.filterMap (Happening.assignment? name)).getLast?

/-! ## What happens while a criterion is asked -/

/-- The assignment of a value, if it stands for a criterion. -/
def Assignment.of? (marker : Text) (value : Value κ) (memory : σ) : Option (Assignment κ) :=
  match made : value.toCriterion (Rules.describe · memory) with
  | .ok criterion => some { marker, value, memory, criterion, made }
  | .error _ => none

/-- The assignment of a value to a marker of the session, if it succeeds. -/
def Session.assignment? (session : Session κ σ) (name : Text) (value : Value κ) :
    Option (Assignment κ) :=
  (session.marker? name).bind fun _ => Assignment.of? name value session.memory

/-- The assignments that succeed while a script is performed. -/
def Script.assignments : Script κ σ → Session κ σ → List (Assignment κ)
  | answer _, _ => []
  | fail _, _ => []
  | remember memory next, session => next.assignments { session with memory }
  | look marker next, session =>
      (next ((session.marker? marker).map (·.criterion))).assignments session
  | assign marker value next, session =>
      match session.assign marker value with
      | .ok after =>
          (session.assignment? marker value).toList ++ (next (.ok ())).assignments after
      | .error fault => (next (.error fault)).assignments session

/-- The assignments that succeed while a criterion is asked about an identifier. -/
def Criterion.assignments (identifier : Text) : Criterion κ → Session κ σ → List (Assignment κ)
  | rule name, session => (Rules.ask name identifier session.memory).assignments session
  | _, _ => []

/-- The assignments that succeed while a marker resolves a tag. -/
def Marker.assignments (marker : Marker κ) (tag : Tag) : Session κ σ → List (Assignment κ) :=
  marker.criterion.assignments tag.identifier

/-- The assignments that succeed while tags are resolved one after another, until that fails, where
`each` tells those of one tag. -/
def assignmentsOf (resolve : Tag → Action κ σ Text)
    (each : Tag → Session κ σ → List (Assignment κ)) : List Tag → Session κ σ → List (Assignment κ)
  | [], _ => []
  | tag :: later, session =>
      each tag session ++
        match (resolve tag).run session with
        | (.ok _, after) => assignmentsOf resolve each later after
        | (.error _, _) => []

/-! ## What happens in a run -/

namespace Operation

/-- The assignments that succeed while a tag is resolved with the criterion that a marker has now.
-/
def assignments (name : Text) (tag : Tag) (session : Session κ σ) : List (Assignment κ) :=
  match session.marker? name with
  | some marker => marker.assignments tag session
  | none => []

/-- What happens while an operation is performed. -/
def happenings : Operation κ → Session κ σ → List (Happening κ)
  | create name text fields value, session =>
      match made : Marker.create Rules.kind session.describe text fields value with
      | .ok marker => [.made { name, text, fields, value, memory := session.memory, marker, made }]
      | .error _ => []
  | assign name value, session => (session.assignment? name value).toList.map .assigned
  | copy name giver, session =>
      match session.marker? giver with
      | some held => (session.assignment? name (.criterion held.criterion)).toList.map .assigned
      | none => []
  | render name, session =>
      match session.marker? name with
      | some marker =>
          (assignmentsOf marker.resolve marker.assignments marker.tags session).map .assigned ++
            match (marker.tags.mapM marker.resolve).run session with
            | (.ok _, after) => [.rendered marker after.memory]
            | (.error _, _) => []
      | none => []
  | resolve name tag, session => (assignments name tag session).map .assigned
  | resolveEach name giver, session =>
      match session.marker? giver with
      | some held =>
          (assignmentsOf (resolveTag name) (assignments name) held.tags session).map .assigned
      | none => []
  | tags _, _ | identifiers _, _ | source _, _ | options _, _ | setSource _, _ | setOptions _, _ => []

/-- What happens while operations are performed one after another. -/
def history : List (Operation κ) → Session κ σ → List (Happening κ)
  | [], _ => []
  | operation :: rest, session =>
      operation.happenings session ++ history rest (operation.perform.run session).2

end Operation

end Waymark
