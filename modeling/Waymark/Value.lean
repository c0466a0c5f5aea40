import Waymark.Criterion
import Waymark.Number.Layout

/-!
# Values that a caller hands in

A caller may hand in any value where a text or a criterion is expected. `Value.quoted` is the text
of a value inside a list, `Value.plain` its text when it stands alone, and they differ only for
texts. `Value.identifier` is the identifier that a value selects: its plain text, except that a
number without a fraction is written as an integer.
-/

namespace Waymark

/-- The text of a truth value. -/
def Text.ofBool (value : Bool) : Text := if value then "True".toList else "False".toList

/-- A value that a caller hands in. -/
inductive Value (κ : Type) where
  | absent
  | truth (value : Bool)
  | integer (value : Int)
  | float (value : Binary64)
  | text (value : Text)
  | octets (value : List UInt8)
  | list (items : List (Value κ))
  | criterion (value : Criterion κ)

namespace Value

variable {κ : Type}

mutual

/-- The text of a value inside a list. -/
def quoted (describe : κ → Text) : Value κ → Text
  | absent => "None".toList
  | truth value => Text.ofBool value
  | integer value => Text.ofInt value
  | float value => value.text
  | text value => Text.quoted value
  | octets value => Text.quotedOctets value
  | list items => '[' :: (quotedItems describe items ++ [']'])
  | criterion value => value.shown describe

/-- The texts of the items of a list, with a comma and a space between them. -/
def quotedItems (describe : κ → Text) : List (Value κ) → Text
  | [] => []
  | [item] => quoted describe item
  | item :: next :: rest =>
      quoted describe item ++ ',' :: ' ' :: quotedItems describe (next :: rest)

end

/-- The text of a value that stands alone. -/
def plain (describe : κ → Text) : Value κ → Text
  | text value => value
  | value => value.quoted describe

/-- The identifier that a value selects. -/
def identifier (describe : κ → Text) : Value κ → Text
  | float value =>
      match value.integer? with
      | some n => Text.ofInt n
      | none => value.text
  | value => value.plain describe

/-- The kind of a value, where `ruleKind` is the kind of a rule. -/
def kind (ruleKind : κ → Text) : Value κ → Text
  | absent => "NoneType".toList
  | truth _ => "bool".toList
  | integer _ => "int".toList
  | float _ => "float".toList
  | text _ => "str".toList
  | octets _ => "bytes".toList
  | list _ => "list".toList
  | criterion value => value.kind ruleKind

@[simp] theorem identifier_text (describe : κ → Text) (value : Text) :
    (text value : Value κ).identifier describe = value := rfl

@[simp] theorem identifier_integer (describe : κ → Text) (value : Int) :
    (integer value : Value κ).identifier describe = Text.ofInt value := by
  simp [identifier, plain, quoted]

/-- A number that denotes an integer selects what the integer selects. -/
theorem identifier_float {x : Binary64} {n : Int} (whole : x.integer? = some n)
    (describe : κ → Text) : (float x : Value κ).identifier describe = Text.ofInt n := by
  simp [identifier, whole]

end Value

end Waymark
