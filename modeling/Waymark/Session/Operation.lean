import Waymark.Session.Render

/-!
# Operations of a session

`Operation` lists what can be asked of a session, and `perform` does it. `run` performs a list of
operations; one that fails does not stop those after it.
-/

namespace Waymark

variable {κ σ : Type}

/-- What can be asked of a session. -/
inductive Operation (κ : Type) where
  /-- Makes a new marker in the place of the one that has the name. -/
  | create (name : Text) (text : Value κ) (fields : List (Text × Value κ)) (criterion : Value κ)
  /-- Assigns a criterion. -/
  | assign (name : Text) (value : Value κ)
  /-- Assigns the criterion of another marker. -/
  | copy (name giver : Text)
  /-- Renders the marker's text. -/
  | render (name : Text)
  /-- The text that stands for a tag. -/
  | resolve (name : Text) (tag : Tag)
  /-- The texts that stand for the tags of another marker. -/
  | resolveEach (name giver : Text)
  /-- The tags of the marker's text. -/
  | tags (name : Text)
  /-- The identifiers of its tags, each once. -/
  | identifiers (name : Text)
  /-- The marker's text as it was handed in. -/
  | source (name : Text)
  /-- The marker's options. -/
  | options (name : Text)
  /-- Tries to change the marker's text. -/
  | setSource (name : Text)
  /-- Tries to change the marker's options. -/
  | setOptions (name : Text)

/-- What an operation answers. -/
inductive Answer where
  | done
  | text (value : Text)
  | texts (values : List Text)
  | tags (values : List Tag)
  | options (value : Options)
deriving Repr, DecidableEq

namespace Operation

variable [Rules κ σ]

/-- The text that stands for a tag, with the criterion that the marker has now. -/
def resolveTag (name : Text) (tag : Tag) : Action κ σ Text := do
  (← Action.marker name).resolve tag

/-- Performs an operation. -/
def perform : Operation κ → Action κ σ Answer
  | create name text fields criterion => do
      let marker ← Action.newMarker text fields criterion
      modify fun session => session.put name marker
      pure .done
  | assign name value => do
      Action.assign name value
      pure .done
  | copy name giver => do
      Action.assign name (.criterion (← Action.marker giver).criterion)
      pure .done
  | render name => return .text (← (← Action.marker name).render)
  | resolve name tag => return .text (← resolveTag name tag)
  | resolveEach name giver => do
      return .texts (← (← Action.marker giver).tags.mapM (resolveTag name))
  | tags name => return .tags (← Action.marker name).tags
  | identifiers name => return .texts (← Action.marker name).identifiers
  | source name => return .text (← Action.marker name).source
  | options name => return .options (← Action.marker name).options
  | setSource _ => throw .readOnly
  | setOptions _ => throw .readOnly

/-- Performs operations one after another, and answers the outcome of each. -/
def run : List (Operation κ) → Session κ σ → List (Except Fault Answer) × Session κ σ
  | [], session => ([], session)
  | operation :: rest, session =>
      let (outcome, next) := operation.perform.run session
      let (outcomes, last) := run rest next
      (outcome :: outcomes, last)

end Operation

end Waymark
