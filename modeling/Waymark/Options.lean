import Waymark.Value
import Waymark.Text.Escape
import Waymark.Tag.Basic

/-!
# Rendering options

The options are the texts that stand in for absent branches. They are made from named fields, where
a field that is not named takes its default and other names are passed over, and they never change
afterwards. `Options.textFor` is the text that stands for a tag.
-/

namespace Waymark

/-- What is wrong with the value of a field. -/
inductive FieldProblem where
  /-- It is no text. -/
  | notText
  /-- It is made of octets that are no text in UTF-8. -/
  | notUnicode
  /-- It is to be changed, and options do not change. -/
  | frozen
deriving Repr, DecidableEq

/-- A field and what is wrong with its value. -/
structure FieldError where
  field : Text
  problem : FieldProblem
deriving Repr, DecidableEq

/-- The short name of a problem. -/
def FieldProblem.code : FieldProblem → Text
  | notText => "string_type".toList
  | notUnicode => "string_unicode".toList
  | frozen => "frozen_instance".toList

/-- The wording of a problem. -/
def FieldProblem.message : FieldProblem → Text
  | notText => "Input should be a valid string".toList
  | notUnicode =>
      "Input should be a valid string, unable to parse raw data as a unicode string".toList
  | frozen => "Instance is frozen".toList

/-- The texts that stand in for absent branches. -/
structure Options where
  /-- Stands for a selected tag that has no true branch. -/
  trueDefault : Text := ['X']
  /-- Stands for a tag that is not selected and has no false branch. -/
  falseDefault : Text := [' ']
deriving Repr, DecidableEq, Inhabited

namespace Options

variable {κ : Type}

/-- A field's value as a text: a text itself, or octets that are a text in UTF-8. -/
def fieldText : Value κ → Except FieldProblem Text
  | .text value => .ok value
  | .octets value =>
      match String.fromUTF8? ⟨value.toArray⟩ with
      | some decoded => .ok decoded.toList
      | none => .error .notUnicode
  | _ => .error .notText

/-- The field that is named, its default if it is absent. -/
def field (name default : Text) (fields : List (Text × Value κ)) : Except FieldError Text :=
  match fields.lookup name with
  | none => .ok default
  | some value => (fieldText value).mapError (FieldError.mk name)

/-- The options that have the given fields. All problems are reported, in the order of the
fields. -/
def ofFields (fields : List (Text × Value κ)) : Except (List FieldError) Options :=
  let standard : Options := {}
  match field "true_default".toList standard.trueDefault fields,
      field "false_default".toList standard.falseDefault fields with
  | .ok trueDefault, .ok falseDefault => .ok { trueDefault, falseDefault }
  | .error first, .ok _ => .error [first]
  | .ok _, .error second => .error [second]
  | .error first, .error second => .error [first, second]

/-- An attempt to give a field a new value. It always fails. -/
def assign (_options : Options) (name : Text) (_value : Value κ) :
    Except (List FieldError) Options :=
  .error [⟨name, .frozen⟩]

/-- The text that stands for a tag: the true branch of a selected tag and the false branch of any
other, without the doubling of delimiters, or what stands in for it. -/
def textFor (options : Options) (selected : Bool) (tag : Tag) : Text :=
  if selected then
    match tag.trueBranch with
    | some branch => Text.unescapeTrue branch
    | none => options.trueDefault
  else
    match tag.falseBranch with
    | some branch => Text.unescapeFalse branch
    | none => options.falseDefault

/-- Without fields the options are the standard ones. -/
theorem ofFields_nil : ofFields ([] : List (Text × Value κ)) = .ok {} := rfl

end Options

end Waymark
