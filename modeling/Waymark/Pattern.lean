import Waymark.Text.Basic

/-!
# Patterns with ordered choice

A pattern is matched at the beginning of a text. `successes` lists every way to match it, the
preferred one first: the first alternative before the second, an optional part before its absence,
more repetitions before fewer. `findAll` lists the leftmost matches of a pattern in a text that do
not overlap. `ι` names the parts of a match that are captured.
-/

namespace Waymark

/-- A pattern whose choices are ordered. -/
inductive Pattern (ι : Type) where
  /-- One character of a class. -/
  | one (accepts : Char → Bool)
  /-- One pattern and then another. -/
  | sequence (first second : Pattern ι)
  /-- One pattern, or else another. -/
  | choice (first second : Pattern ι)
  /-- A pattern, or else nothing. -/
  | optional (inner : Pattern ι)
  /-- A pattern any number of times, as often as possible. -/
  | many (inner : Pattern ι)
  /-- A pattern whose text is captured. -/
  | capture (name : ι) (inner : Pattern ι)

/-- One way to match a pattern at the beginning of a text. -/
structure Success (ι : Type) where
  /-- The captured texts with their names. -/
  captures : List (ι × Text)
  /-- The text that comes after the match. -/
  rest : Text

/-- A match of a pattern in a text. -/
structure Match (ι : Type) where
  start : Nat
  stop : Nat
  captures : List (ι × Text)

namespace Pattern

variable {ι : Type}

/-- Repeats a step at most so many times, more repetitions first. -/
def repeated (step : Text → List (Success ι)) : Nat → Text → List (Success ι)
  | 0, s => [⟨[], s⟩]
  | count + 1, s =>
      ((step s).flatMap fun first => (repeated step count first.rest).map fun second =>
        ⟨first.captures ++ second.captures, second.rest⟩) ++ [⟨[], s⟩]

/-- Every way to match a pattern at the beginning of a text, the preferred one first. A repetition
ends at the latest when each of its rounds took one character. -/
def successes : Pattern ι → Text → List (Success ι)
  | one accepts, s =>
      match s with
      | c :: rest => if accepts c then [⟨[], rest⟩] else []
      | [] => []
  | sequence first second, s =>
      (successes first s).flatMap fun done => (successes second done.rest).map fun last =>
        ⟨done.captures ++ last.captures, last.rest⟩
  | choice first second, s => successes first s ++ successes second s
  | optional inner, s => successes inner s ++ [⟨[], s⟩]
  | many inner, s => repeated (successes inner) s.length s
  | capture name inner, s =>
      (successes inner s).map fun done =>
        ⟨(name, s.take (s.length - done.rest.length)) :: done.captures, done.rest⟩

section Successes

variable (first second inner : Pattern ι) (s : Text)

theorem successes_one_nil (accepts : Char → Bool) :
    (one accepts : Pattern ι).successes [] = [] := rfl

theorem successes_one_cons (accepts : Char → Bool) (c : Char) (rest : Text) :
    (one accepts : Pattern ι).successes (c :: rest) =
      if accepts c then [⟨[], rest⟩] else [] := rfl

theorem successes_sequence :
    (sequence first second).successes s = (first.successes s).flatMap fun done =>
      (second.successes done.rest).map fun last =>
        ⟨done.captures ++ last.captures, last.rest⟩ := rfl

theorem successes_choice :
    (choice first second).successes s = first.successes s ++ second.successes s := rfl

theorem successes_optional : (optional inner).successes s = inner.successes s ++ [⟨[], s⟩] := rfl

theorem successes_many : (many inner).successes s = repeated inner.successes s.length s := rfl

theorem successes_capture (name : ι) :
    (capture name inner).successes s = (inner.successes s).map fun done =>
      ⟨(name, s.take (s.length - done.rest.length)) :: done.captures, done.rest⟩ := rfl

theorem repeated_succ (step : Text → List (Success ι)) (count : Nat) :
    repeated step (count + 1) s = ((step s).flatMap fun first =>
      (repeated step count first.rest).map fun second =>
        ⟨first.captures ++ second.captures, second.rest⟩) ++ [⟨[], s⟩] := rfl

end Successes

/-- The preferred way to match a pattern at the beginning of a text. -/
def first? (p : Pattern ι) (s : Text) : Option (Success ι) := (p.successes s).head?

/-- The leftmost matches of a pattern in the text from `pos` on, its first `skip` characters left
out; behind a match the search goes on at its end. -/
def findAllFrom (p : Pattern ι) (pos : Nat) : Nat → Text → List (Match ι)
  | _, [] => []
  | skip + 1, _ :: rest => p.findAllFrom (pos + 1) skip rest
  | 0, c :: rest =>
      match p.first? (c :: rest) with
      | some found =>
          let width := (c :: rest).length - found.rest.length
          ⟨pos, pos + width, found.captures⟩ :: p.findAllFrom (pos + 1) (width - 1) rest
      | none => p.findAllFrom (pos + 1) 0 rest

/-- The leftmost matches of a pattern in a text that do not overlap. -/
def findAll (p : Pattern ι) (s : Text) : List (Match ι) := p.findAllFrom 0 0 s

/-- A given character. -/
def char (c : Char) : Pattern ι := one (· == c)

end Pattern

end Waymark
