import Waymark.Marker

/-!
# Sessions

A session holds named markers, the memory that the rules of the caller share, and a log of what
happened. An `Action` changes the session and may fail; what it changed before it failed stays
changed. `Session.assign` is the one place where a marker's criterion changes.
-/

namespace Waymark

variable {κ σ : Type}

/-- What is logged. -/
inductive Event (κ : Type) where
  /-- A marker was given a criterion, which was shown as `shown` then. -/
  | criterionSet (marker : Text) (criterion : Criterion κ) (shown : Text)
  /-- A text of so many characters and tags was rendered with a criterion, which was shown as
  `shown` at the end. -/
  | rendered (tags characters : Nat) (shown : Text)
deriving Repr, DecidableEq

/-- The line that a log shows for an event. -/
def Event.line : Event κ → Text
  | criterionSet _ _ shown => "Criterion set to ".toList ++ shown
  | rendered tags characters shown =>
      "Rendered ".toList ++ Text.ofNat tags ++ " tags in ".toList ++ Text.ofNat characters ++
        " chars with ".toList ++ shown

/-- Named markers, the memory of the rules, and the log. -/
structure Session (κ σ : Type) where
  /-- The markers by name, each name once. -/
  markers : List (Text × Marker κ)
  memory : σ
  /-- What happened, from first to last. -/
  log : List (Event κ)

/-- A step that changes a session and may fail. -/
abbrev Action (κ σ α : Type) := ExceptT Fault (StateM (Session κ σ)) α

namespace Session

/-- A session without markers. -/
def start (memory : σ) : Session κ σ := { markers := [], memory, log := [] }

/-- The marker of a name. -/
def marker? (session : Session κ σ) (name : Text) : Option (Marker κ) :=
  session.markers.lookup name

/-- A list of named markers with `marker` under `name`, in the place of the marker that had it. -/
def putIn (name : Text) (marker : Marker κ) : List (Text × Marker κ) → List (Text × Marker κ)
  | [] => [(name, marker)]
  | (other, held) :: rest =>
      if other = name then (name, marker) :: rest else (other, held) :: putIn name marker rest

/-- The session with `marker` under `name`. -/
def put (session : Session κ σ) (name : Text) (marker : Marker κ) : Session κ σ :=
  { session with markers := putIn name marker session.markers }

/-- The session with one more event in its log. -/
def note (session : Session κ σ) (event : Event κ) : Session κ σ :=
  { session with log := session.log ++ [event] }

/-- A rule as it is shown in the present state of the session. -/
def describe [Rules κ σ] (session : Session κ σ) (rule : κ) : Text :=
  Rules.describe rule session.memory

/-- The session after the criterion that `value` stands for was assigned to a marker, and logged. -/
def assign [Rules κ σ] (session : Session κ σ) (name : Text) (value : Value κ) :
    Except Fault (Session κ σ) :=
  match session.marker? name with
  | none => .error (.noMarker name)
  | some marker =>
      (value.toCriterion session.describe).map fun criterion =>
        (session.put name { marker with criterion }).note
          (.criterionSet name criterion (criterion.shown session.describe))

/-! ## Looking up what was put -/

private theorem lookup_putIn (name wanted : Text) (marker : Marker κ)
    (markers : List (Text × Marker κ)) :
    (putIn name marker markers).lookup wanted =
      if wanted = name then some marker else markers.lookup wanted := by
  have cons (key : Text) (held : Marker κ) (rest : List (Text × Marker κ)) :
      ((key, held) :: rest).lookup wanted =
        if wanted = key then some held else rest.lookup wanted := by
    by_cases h : wanted = key
    · simp [h]
    · simp [List.lookup_cons, beq_eq_false_iff_ne.2 h, h]
  induction markers with
  | nil => simp [putIn, cons]
  | cons entry rest ih =>
    obtain ⟨other, held⟩ := entry
    by_cases ho : other = name
    · subst ho
      by_cases hw : wanted = other <;> simp [putIn, cons, hw]
    · by_cases hw : wanted = other
      · subst hw
        simp [putIn, ho, cons]
      · simp [putIn, ho, cons, hw, ih]

/-- Under its name stands the marker that was put there, under other names nothing changed. -/
theorem marker?_put (session : Session κ σ) (name wanted : Text) (marker : Marker κ) :
    (session.put name marker).marker? wanted =
      if wanted = name then some marker else session.marker? wanted :=
  lookup_putIn name wanted marker session.markers

@[simp] theorem marker?_note (session : Session κ σ) (event : Event κ) (wanted : Text) :
    (session.note event).marker? wanted = session.marker? wanted := rfl

end Session

namespace Action

/-- The marker of a name; it is a fault if there is none. -/
def marker (name : Text) : Action κ σ (Marker κ) := do
  match (← get).marker? name with
  | some marker => pure marker
  | none => throw (.noMarker name)

/-- Assigns a criterion to a marker and answers whether that failed. -/
def tryAssign [Rules κ σ] (name : Text) (value : Value κ) : Action κ σ (Except Fault Unit) := do
  match (← get).assign name value with
  | .ok session => set session; pure (.ok ())
  | .error fault => pure (.error fault)

/-- Assigns a criterion to a marker. -/
def assign [Rules κ σ] (name : Text) (value : Value κ) : Action κ σ Unit := do
  match ← tryAssign name value with
  | .ok _ => pure ()
  | .error fault => throw fault

end Action

end Waymark
