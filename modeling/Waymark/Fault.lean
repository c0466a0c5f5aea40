import Waymark.Options

/-!
# Faults

Why an operation on markers fails, and the wording of each fault.
-/

namespace Waymark

/-- Why an operation fails. -/
inductive Fault where
  /-- A truth value was handed in as a criterion. -/
  | ambiguousTruth (value : Bool)
  /-- A value of another kind was handed in as a text. -/
  | notText (kind : Text)
  /-- Fields of the options have wrong values. -/
  | invalidOptions (errors : List FieldError)
  /-- A part of a marker that never changes was to be changed. -/
  | readOnly
  /-- There is no marker of this name. -/
  | noMarker (name : Text)
  /-- A rule of the caller raised a fault of its own. -/
  | raised (message : Text)
deriving Repr, DecidableEq

/-- The wording of a fault. -/
def Fault.message : Fault → Text
  | ambiguousTruth value =>
      "boolean criterion ".toList ++ Text.ofBool value ++
        " is ambiguous, use MATCH_ALL or MATCH_NONE".toList
  | notText kind => "text must be a str, got ".toList ++ kind
  | invalidOptions errors =>
      (errors.map fun error => error.field ++ ": ".toList ++ error.problem.message).flatten
  | readOnly => "this part of a marker cannot be changed".toList
  | noMarker name => "there is no marker ".toList ++ Text.quoted name
  | raised message => message

end Waymark
