import Waymark.Fault

/-!
# Criteria from values, and the rules of a caller

`Value.toCriterion` makes a criterion from whatever a caller hands in: it fails on truth values and
on nothing else.

A caller may bring criteria of its own, called rules. What a rule does when it is asked about an
identifier is a `Script`: it may keep a memory, fail, look at the criteria of markers, and assign
criteria to them, also to the one that is being rendered, and it learns whether an assignment
failed.
-/

namespace Waymark

variable {κ σ : Type}

namespace Value

/-- The criterion that a value stands for: nothing if it is absent, a criterion itself, and else the
single identifier that the value selects. Truth values are refused, as they would be compared as
texts and select nothing. -/
def toCriterion (describe : κ → Text) : Value κ → Except Fault (Criterion κ)
  | absent => .ok .nothing
  | truth value => .error (.ambiguousTruth value)
  | criterion value => .ok value
  | value => .ok (.ident (value.identifier describe))

/-- Where the criterion of a value comes from. -/
inductive Origin where
  /-- The value is a criterion. -/
  | same
  /-- The value is absent, and nothing is selected. -/
  | standard
  /-- The criterion is made from the value. -/
  | made
deriving Repr, DecidableEq

/-- Where the criterion of a value comes from. -/
def origin : Value κ → Origin
  | criterion _ => .same
  | absent => .standard
  | _ => .made

/-- Making a criterion fails on truth values and on nothing else. -/
theorem toCriterion_eq_error_iff {describe : κ → Text} {v : Value κ} {fault : Fault} :
    v.toCriterion describe = .error fault ↔
      ∃ value, v = .truth value ∧ fault = .ambiguousTruth value := by
  cases v <;> simp [toCriterion, eq_comm]

/-- A criterion stands for itself. -/
@[simp] theorem toCriterion_criterion (describe : κ → Text) (c : Criterion κ) :
    (criterion c).toCriterion describe = .ok c := rfl

end Value

/-- What a rule does when it is asked about an identifier. -/
inductive Script (κ σ : Type) where
  /-- The rule answers. -/
  | answer (selected : Bool)
  /-- The rule fails. -/
  | fail (fault : Fault)
  /-- The rules' memory becomes `memory`. -/
  | remember (memory : σ) (next : Script κ σ)
  /-- The rule looks at the criterion that a marker has now, if there is such a marker. -/
  | look (marker : Text) (next : Option (Criterion κ) → Script κ σ)
  /-- The criterion that `value` stands for is assigned to a marker; what comes next may depend on
  whether that failed. -/
  | assign (marker : Text) (value : Value κ) (next : Except Fault Unit → Script κ σ)

/-- The rules of a caller: `κ` are their names, `σ` is their common memory. -/
class Rules (κ : Type) (σ : outParam Type) where
  /-- What a rule does when it is asked about an identifier. -/
  ask : κ → Text → σ → Script κ σ
  /-- A rule as a log line shows it. -/
  describe : κ → σ → Text
  /-- The kind of a rule. -/
  kind : κ → Text

namespace Script

/-- A script that leaves the criterion of a marker alone, whatever comes of its other
assignments. -/
def Spares (name : Text) : Script κ σ → Prop
  | answer _ => True
  | fail _ => True
  | remember _ next => next.Spares name
  | look _ next => ∀ held, (next held).Spares name
  | assign marker _ next => marker ≠ name ∧ ∀ outcome, (next outcome).Spares name

end Script

end Waymark
