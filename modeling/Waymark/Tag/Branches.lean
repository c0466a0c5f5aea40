import Waymark.Text.Basic

/-!
# The branches of a tag

After the `?` of a tag comes its true branch, written in units: a pair `||`, a pair `>>`, or one
character that is neither `|` nor `>`. A single `|` ends it and begins the false branch, whose
units are pairs `>>` and all characters but `>`. A single `>` ends the tag.

Reading goes no further than the last `>` of the line. Where the units would run past it, reading
backs off: a branch gives up its last pair, and the first `>` of that pair ends the tag.
-/

namespace Waymark

/-- Where the branches of a tag end, as offsets from the character after the `?`. -/
structure Branches where
  /-- Offset just after the true branch. -/
  trueStop : Nat
  /-- Offset of the false branch: one further than `trueStop` if a `|` stands there. -/
  falseStart : Nat
  /-- Offset of the `>` that ends the tag, and with it the false branch. -/
  bracket : Nat
deriving Repr, DecidableEq

namespace Branches

/-- The length of the true branch at the beginning of a text, where `reach` characters may be read:
as many units as possible, but the last character is not given to a unit. -/
def trueLength : Nat → Text → Nat
  | reach + 3, '|' :: '|' :: rest => 2 + trueLength (reach + 1) rest
  | reach + 3, '>' :: '>' :: rest => 2 + trueLength (reach + 1) rest
  | reach + 2, c :: rest => if c = '|' ∨ c = '>' then 0 else 1 + trueLength (reach + 1) rest
  | _, _ => 0

/-- Offset of the first single `>` of a text, where `reach` characters may be read and each `>>` is
a pair. -/
def bracket? : Nat → Text → Option Nat
  | reach + 2, '>' :: '>' :: rest => (bracket? reach rest).map (2 + ·)
  | _ + 1, '>' :: _ => some 0
  | reach + 1, _ :: rest => (bracket? reach rest).map (1 + ·)
  | _, _ => none

/-- Reads the branches at the beginning of a text, where `reach` counts the characters up to and
including the last `>` of the line; without one there is no tag. If no single `>` ends the false
branch, the first `>` of the last pair ends it. -/
def read? (reach : Nat) (s : Text) : Option Branches :=
  if reach = 0 then none
  else
    let trueStop := trueLength reach s
    let falseStart := if s[trueStop]? = some '|' then trueStop + 1 else trueStop
    let bracket := (bracket? (reach - falseStart) (s.drop falseStart)).map (falseStart + ·)
    some { trueStop, falseStart, bracket := bracket.getD (reach - 2) }

/-- The text of the true branch, as written. -/
def trueText (branches : Branches) (s : Text) : Text := s.take branches.trueStop

/-- The text of the false branch, as written. -/
def falseText (branches : Branches) (s : Text) : Text :=
  (s.drop branches.falseStart).take (branches.bracket - branches.falseStart)

/-! ## The true branch -/

/-- A pair of delimiters is one unit. -/
theorem trueLength_pair {c : Char} (delimiter : c = '|' ∨ c = '>') (reach : Nat) (rest : Text) :
    trueLength (reach + 3) (c :: c :: rest) = 2 + trueLength (reach + 1) rest := by
  rcases delimiter with rfl | rfl <;> rfl

/-- Any other character is a unit of its own. -/
theorem trueLength_plain {c : Char} (separator : c ≠ '|') (bracket : c ≠ '>') (reach : Nat)
    (rest : Text) : trueLength (reach + 2) (c :: rest) = 1 + trueLength (reach + 1) rest := by
  cases reach with
  | zero => simp [trueLength, separator, bracket]
  | succ reach =>
    rw [trueLength.eq_def]
    split <;> simp_all

/-- A single delimiter ends the true branch. -/
theorem trueLength_single {c : Char} (delimiter : c = '|' ∨ c = '>') {rest : Text}
    (single : rest.head? ≠ some c) (reach : Nat) : trueLength reach (c :: rest) = 0 := by
  rw [trueLength.eq_def]
  split <;> grind

/-- The true branch leaves at least one of the characters that may be read. -/
theorem trueLength_lt {reach : Nat} (room : 0 < reach) (s : Text) : trueLength reach s < reach := by
  fun_induction trueLength reach s with
  | case1 reach rest ih => have := ih (Nat.succ_pos _); omega
  | case2 reach rest ih => have := ih (Nat.succ_pos _); omega
  | case3 => exact room
  | case4 reach c rest _ _ _ ih => have := ih (Nat.succ_pos _); omega
  | case5 => exact room

/-! ## The bracket that ends a tag -/

/-- A pair `>>` does not end a tag. -/
theorem bracket?_pair (reach : Nat) (rest : Text) :
    bracket? (reach + 2) ('>' :: '>' :: rest) = (bracket? reach rest).map (2 + ·) := rfl

/-- A `>` that has no other one to read behind it ends the tag. -/
theorem bracket?_single {reach : Nat} {rest : Text} (ends : reach = 0 ∨ rest.head? ≠ some '>') :
    bracket? (reach + 1) ('>' :: rest) = some 0 := by
  rw [bracket?.eq_def]
  split <;> grind

/-- Any other character is passed over. -/
theorem bracket?_plain {c : Char} (other : c ≠ '>') (reach : Nat) (rest : Text) :
    bracket? (reach + 1) (c :: rest) = (bracket? reach rest).map (1 + ·) := by
  rw [bracket?.eq_def]
  split <;> simp_all

/-- The characters that may be read have a `>` at an offset, and the next of them is another
character. -/
structure IsBracket (reach : Nat) (s : Text) (offset : Nat) : Prop where
  inside : offset < reach
  here : s[offset]? = some '>'
  alone : offset + 1 < reach → s[offset + 1]? ≠ some '>'

theorem IsBracket.behind {reach : Nat} {s : Text} {offset : Nat} (single : IsBracket reach s offset)
    (c : Char) : IsBracket (reach + 1) (c :: s) (1 + offset) where
  inside := by
    rw [Nat.add_comm]
    exact Nat.succ_lt_succ single.inside
  here := by
    rw [Nat.add_comm, List.getElem?_cons_succ]
    exact single.here
  alone next := by
    rw [Nat.add_comm 1, List.getElem?_cons_succ]
    exact single.alone (by omega)

/-- What ends the tag is a single `>`. -/
theorem isBracket_of_bracket? {reach : Nat} {s : Text} {offset : Nat}
    (found : bracket? reach s = some offset) : IsBracket reach s offset := by
  fun_induction bracket? reach s generalizing offset with
  | case1 reach rest ih =>
    obtain ⟨inner, hi, rfl⟩ := Option.map_eq_some_iff.1 found
    have later := ((ih hi).behind '>').behind '>'
    rwa [← Nat.add_assoc] at later
  | case2 reach rest single =>
    obtain rfl : 0 = offset := by simpa using found
    refine ⟨Nat.succ_pos _, rfl, fun inside next => ?_⟩
    rw [Nat.zero_add, List.getElem?_cons_succ, ← List.head?_eq_getElem?] at next
    obtain ⟨after, rfl⟩ := List.head?_eq_some_iff.1 next
    -- with two characters to read the two `>` would be a pair
    exact single (reach - 1) after (by omega) rfl
  | case3 reach c rest _ _ ih =>
    obtain ⟨inner, hi, rfl⟩ := Option.map_eq_some_iff.1 found
    exact (ih hi).behind c
  | case4 => simp at found

/-! ## Reading both branches -/

@[simp] theorem read?_zero (s : Text) : read? 0 s = none := rfl

/-- Branches are read exactly when the line has a `>` left. -/
theorem read?_isSome_iff (reach : Nat) (s : Text) : (read? reach s).isSome ↔ 0 < reach := by
  unfold read?
  split <;> simp <;> omega

end Branches

end Waymark
