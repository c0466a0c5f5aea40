import Waymark.Rules
import Waymark.Tag.Scan

/-!
# Markers

A marker holds a text with tags, options, and the criterion that selects identifiers. The text and
the options never change; the criterion may be assigned anew.
-/

namespace Waymark

variable {κ : Type}

/-- A text with tags, and what it takes to render it. -/
structure Marker (κ : Type) where
  /-- The text that is rendered. -/
  source : Text
  /-- What stands in for absent branches. -/
  options : Options
  /-- What selects identifiers. -/
  criterion : Criterion κ

/-- The identifiers of a list of tags, each once, in the order in which they first occur. -/
def identifiers (found : List Tag) : List Text := (found.map (·.identifier)).eraseDups

namespace Marker

/-- A new marker. The options are looked at first, then the text, then the criterion. -/
def create (ruleKind describe : κ → Text) (text : Value κ) (fields : List (Text × Value κ))
    (criterion : Value κ) : Except Fault (Marker κ) :=
  match Options.ofFields fields, text with
  | .error errors, _ => .error (.invalidOptions errors)
  | .ok options, .text source =>
      (criterion.toCriterion describe).map fun criterion => { source, options, criterion }
  | .ok _, other => .error (.notText (other.kind ruleKind))

/-- The tags of a marker's text. -/
def tags (marker : Marker κ) : List Tag := Waymark.tags marker.source

/-- The identifiers of a marker's tags, each once. -/
def identifiers (marker : Marker κ) : List Text := Waymark.identifiers marker.tags

end Marker

end Waymark
