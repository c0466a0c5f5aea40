import Waymark.Text.Escape

/-!
# Runs of a delimiter

A run of a character is a stretch of a text that consists of it alone, with no more of it on either
side. Where a character is doubled all its runs are of even length (`evenRuns_double`), and doubling
another character changes nothing about that, as it does not matter which one is doubled first
(`double_comm`). So all runs of the delimiters of a branch are of even length in the branch.
-/

namespace Waymark.Text

/-- Every run of the character has an even length. The text before a run does not end in the
character, and the text behind it does not begin with it. -/
def EvenRuns (c : Char) (s : Text) : Prop :=
  ∀ (before : Text) (count : Nat) (after : Text),
    s = before ++ List.replicate count c ++ after →
      before.getLast? ≠ some c → after.head? ≠ some c → count % 2 = 0

variable {c d : Char} {s : Text}

theorem evenRuns_nil (d : Char) : EvenRuns d [] := by
  intro before count after split _ _
  have lengths := congrArg List.length split
  simp only [List.length_nil, List.length_append, List.length_replicate] at lengths
  omega

/-- What ends a text ends it with more in front of it. -/
private theorem getLast?_cons_ne {b : Char} {before : Text}
    (other : (b :: before).getLast? ≠ some d) : before.getLast? ≠ some d := by
  intro last
  apply other
  rw [List.getLast?_cons, last]
  rfl

/-- Another character in front is in no run. -/
theorem EvenRuns.cons (even : EvenRuns d s) (other : c ≠ d) : EvenRuns d (c :: s) := by
  intro before count after split left right
  cases before with
  | nil =>
    cases count with
    | zero => rfl
    | succ count => exact absurd (List.cons.inj split).1 other
  | cons b before =>
    exact even before count after (List.cons.inj split).2 (getLast?_cons_ne left) right

/-- Two more of the character in front make a run longer by two, or are a run themselves. -/
theorem EvenRuns.pair (even : EvenRuns d s) : EvenRuns d (d :: d :: s) := by
  intro before count after split left right
  match before, count with
  | [], 0 => rfl
  | [], 1 =>
    obtain rfl := (List.cons.inj split).2
    exact absurd rfl right
  | [], count + 2 =>
    have rest : s = [] ++ List.replicate count d ++ after := (List.cons.inj (List.cons.inj split).2).2
    have shorter := even [] count after rest (by simp) right
    omega
  | [b], count =>
    obtain rfl := (List.cons.inj split).1
    exact absurd rfl left
  | _ :: _ :: before, count =>
    have rest : s = before ++ List.replicate count d ++ after :=
      (List.cons.inj (List.cons.inj split).2).2
    exact even before count after rest (getLast?_cons_ne (getLast?_cons_ne left)) right

/-- Without another character in front the runs are the same. -/
theorem EvenRuns.of_cons (even : EvenRuns d (c :: s)) (other : c ≠ d) : EvenRuns d s := by
  intro before count after split left right
  refine even (c :: before) count after (by rw [split]; rfl) ?_ right
  rw [List.getLast?_cons]
  cases last : before.getLast? with
  | none => simpa using other
  | some b => simpa [last] using left

/-- Without two of the character in front a run is shorter by two, or is gone. -/
theorem EvenRuns.of_pair (even : EvenRuns d (d :: d :: s)) : EvenRuns d s := by
  intro before count after split left right
  cases before with
  | nil =>
    have longer := even [] (count + 2) after (by rw [split]; rfl) (by simp) right
    omega
  | cons b before =>
    refine even (d :: d :: b :: before) count after (by rw [split]; rfl) ?_ right
    simpa only [List.getLast?_cons_cons] using left

/-- A single one of the character in front is a run of odd length. -/
theorem not_evenRuns_single (single : s.head? ≠ some d) : ¬ EvenRuns d (d :: s) := by
  intro even
  have odd := even [] 1 s rfl (by simp) single
  omega

/-- A text ends in a run of the character, which may have no character in it. -/
theorem exists_run_behind (d : Char) (s : Text) :
    ∃ before count, s = before ++ List.replicate count d ∧ before.getLast? ≠ some d := by
  induction s with
  | nil => exact ⟨[], 0, rfl, by simp⟩
  | cons c rest ih =>
    obtain ⟨before, count, rfl, left⟩ := ih
    cases before with
    | cons b before => exact ⟨c :: b :: before, count, rfl, by rwa [List.getLast?_cons_cons]⟩
    | nil =>
      by_cases same : c = d
      · exact ⟨[], count + 1, by rw [same]; rfl, by simp⟩
      · exact ⟨[c], count, rfl, by simpa using same⟩

/-- A text that ends in the character ends in whole pairs of it, if no run has an odd length. -/
theorem EvenRuns.exists_pairs (even : EvenRuns d s) (last : s.getLast? = some d) :
    ∃ before pairs, s = before ++ List.replicate (2 * pairs + 2) d ∧
      before.getLast? ≠ some d := by
  obtain ⟨before, count, rfl, left⟩ := exists_run_behind d s
  have parity := even before count [] (by rw [List.append_nil]) left (by simp)
  have nonempty : count ≠ 0 := by
    rintro rfl
    rw [List.replicate_zero, List.append_nil] at last
    exact left last
  exact ⟨before, count / 2 - 1, by rw [show 2 * (count / 2 - 1) + 2 = count by omega], left⟩

/-- A character that is doubled has no run of odd length. -/
theorem evenRuns_double (d : Char) (s : Text) : EvenRuns d (double d s) := by
  induction s with
  | nil => exact evenRuns_nil d
  | cons c rest ih =>
    by_cases same : c = d
    · rw [double, if_pos same]
      exact ih.pair
    · rw [double, if_neg same]
      exact ih.cons same

theorem double_comm (c d : Char) (s : Text) : double c (double d s) = double d (double c s) := by
  induction s with
  | nil => rfl
  | cons a rest ih =>
    by_cases hc : a = c
    · by_cases hd : a = d
      · rw [← hc, ← hd]
      · subst hc
        simp [double, hd, ih]
    · by_cases hd : a = d
      · subst hd
        simp [double, hc, ih]
      · simp [double, hc, hd, ih]

theorem evenRuns_escapeTrue (s : Text) :
    EvenRuns '|' (escapeTrue s) ∧ EvenRuns '>' (escapeTrue s) := by
  refine ⟨evenRuns_double '|' _, ?_⟩
  rw [escapeTrue, double_comm]
  exact evenRuns_double '>' _

theorem evenRuns_escapeFalse (s : Text) : EvenRuns '>' (escapeFalse s) := evenRuns_double '>' s

end Waymark.Text
