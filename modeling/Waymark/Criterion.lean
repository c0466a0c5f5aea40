import Waymark.Text.Quoted

/-!
# Criteria

A criterion decides which identifiers are selected: all, none, a single one, or those that a rule
of the caller selects. What a rule answers is not fixed here; `κ` is the type of the rules' names.
-/

namespace Waymark

/-- What decides which identifiers are selected. -/
inductive Criterion (κ : Type) where
  /-- Every identifier. -/
  | all
  /-- No identifier. -/
  | nothing
  /-- The identifiers that equal this text. -/
  | ident (identifier : Text)
  /-- Those that a rule of the caller selects. -/
  | rule (name : κ)
deriving Repr, DecidableEq

namespace Criterion

variable {κ : Type}

/-- A criterion as a log line shows it, where `describe` shows a rule. -/
def shown (describe : κ → Text) : Criterion κ → Text
  | all => "MATCH_ALL".toList
  | nothing => "MATCH_NONE".toList
  | ident identifier => "MatchId(identifier=".toList ++ Text.quoted identifier ++ [')']
  | rule name => describe name

/-- The kind of a criterion, where `kind` is the kind of a rule. -/
def kind (ruleKind : κ → Text) : Criterion κ → Text
  | all => "MatchAll".toList
  | nothing => "MatchNone".toList
  | ident _ => "MatchId".toList
  | rule name => ruleKind name

/-- Two criteria are alike if they are of one kind, and if they select single identifiers, if those
are equal. -/
def alike (ruleKind : κ → Text) : Criterion κ → Criterion κ → Bool
  | ident first, ident second => first == second
  | first, second => first.kind ruleKind == second.kind ruleKind

end Criterion

end Waymark
