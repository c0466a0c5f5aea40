import Waymark.Text.Basic

/-!
# The line ahead

A tag may not span a line break, and how its branches end depends on the last `>` of the line. So
before branches are read, the line ahead of them is measured. Positions only move forward while a
text is scanned, so a measured line is kept as long as the position has not passed its end
(`Line.refresh`), and each line is measured once. Main statement: a line that is kept tells the same
as one measured anew (`Line.reach_refresh`).
-/

namespace Waymark

namespace Text

/-- Offset of the last `>` of a text. -/
def lastBracket? : Text → Option Nat
  | [] => none
  | c :: rest =>
      match lastBracket? rest with
      | some offset => some (offset + 1)
      | none => if c = '>' then some 0 else none

/-- A text has a last `>` exactly when it has a `>`. -/
theorem lastBracket?_eq_none_iff {s : Text} : lastBracket? s = none ↔ '>' ∉ s := by
  induction s with
  | nil => simp [lastBracket?]
  | cons c rest ih =>
    cases hr : lastBracket? rest with
    | some offset =>
      have inside : '>' ∈ rest := Decidable.byContradiction fun absent => by
        simp [ih.2 absent] at hr
      simp [lastBracket?, hr, inside]
    | none =>
      have absent : '>' ∉ rest := ih.1 hr
      by_cases hc : c = '>'
      · simp [lastBracket?, hr, hc]
      · simp [lastBracket?, hr, hc, absent, Ne.symm hc]

/-- At the offset of the last `>` stands a `>`. -/
theorem getElem?_of_lastBracket? {s : Text} {offset : Nat} (found : lastBracket? s = some offset) :
    s[offset]? = some '>' := by
  induction s generalizing offset with
  | nil => simp [lastBracket?] at found
  | cons c rest ih =>
    cases hr : lastBracket? rest with
    | some inner =>
      simp only [lastBracket?, hr, Option.some.injEq] at found
      subst found
      simpa using ih hr
    | none =>
      by_cases hc : c = '>'
      · simp only [lastBracket?, hr, hc, if_true, Option.some.injEq] at found
        subst found
        simp [hc]
      · simp [lastBracket?, hr, hc] at found

end Text

/-- A measured line. -/
structure Line where
  /-- Offset of the first line break at or after the measured position, or of the text's end. -/
  stop : Nat
  /-- Offset of the last `>` between the measured position and `stop`. -/
  bracket? : Option Nat
deriving Repr, DecidableEq

namespace Line

/-- Measures the line that is ahead of position `pos`, where `s` is the text from `pos` on. -/
def measure (pos : Nat) (s : Text) : Line where
  stop := pos + (Text.line s).length
  bracket? := (Text.lastBracket? (Text.line s)).map (pos + ·)

/-- The line ahead of `pos`: the known line as long as `pos` has not passed its end, else the
line measured anew. -/
def refresh (known : Option Line) (pos : Nat) (s : Text) : Line :=
  match known with
  | some line => if pos ≤ line.stop then line else measure pos s
  | none => measure pos s

/-- How many characters there are from `pos` up to and including the last `>` of the line; none if
no `>` is left. -/
def reach (line : Line) (pos : Nat) : Nat :=
  match line.bracket? with
  | some last => last + 1 - pos
  | none => 0

@[simp] theorem refresh_none (pos : Nat) (s : Text) : refresh none pos s = measure pos s := rfl

theorem refresh_of_le {line : Line} {pos : Nat} (inside : pos ≤ line.stop) (s : Text) :
    refresh (some line) pos s = line := by
  simp [refresh, inside]

theorem refresh_of_lt {line : Line} {pos : Nat} (passed : line.stop < pos) (s : Text) :
    refresh (some line) pos s = measure pos s := by
  simp [refresh, Nat.not_le.2 passed]

theorem le_measure_stop (pos : Nat) (s : Text) : pos ≤ (measure pos s).stop :=
  Nat.le_add_right ..

/-- After a refresh the position is within the line. -/
theorem le_refresh_stop (known : Option Line) (pos : Nat) (s : Text) :
    pos ≤ (refresh known pos s).stop := by
  cases known with
  | none => exact le_measure_stop pos s
  | some line =>
    by_cases inside : pos ≤ line.stop
    · rw [refresh_of_le inside]
      exact inside
    · rw [refresh_of_lt (Nat.lt_of_not_le inside)]
      exact le_measure_stop pos s

/-- How far a line reaches does not depend on where it is measured. -/
theorem reach_measure (pos : Nat) (s : Text) :
    (measure pos s).reach pos = (measure 0 s).reach 0 := by
  cases h : Text.lastBracket? (Text.line s) <;> simp [reach, measure, h]
  omega

/-! ## Lines that are kept -/

/-- What is known of a line is right for the text `s` from `pos` on, unless `pos` has passed its
end. -/
def Knows (line : Line) (pos : Nat) (s : Text) : Prop :=
  pos ≤ line.stop →
    line.stop = (measure pos s).stop ∧
      ∀ later, pos ≤ later → line.reach later = (measure pos s).reach later

theorem knows_measure (pos : Nat) (s : Text) : (measure pos s).Knows pos s :=
  fun _ => ⟨rfl, fun _ _ => rfl⟩

/-- A character that does not end the line changes only where the line is measured. -/
theorem stop_measure_cons {c : Char} (inner : Text.isLineBreak c = false) (pos : Nat)
    (rest : Text) : (measure pos (c :: rest)).stop = (measure (pos + 1) rest).stop := by
  simp [measure, Text.line_cons inner]
  omega

/-- Behind its first character a line reaches as far as the rest of it. -/
theorem reach_measure_cons {c : Char} (inner : Text.isLineBreak c = false) (pos : Nat)
    (rest : Text) {later : Nat} (after : pos < later) :
    (measure pos (c :: rest)).reach later = (measure (pos + 1) rest).reach later := by
  cases h : Text.lastBracket? (Text.line rest) with
  | some offset =>
    simp only [reach, measure, Text.line_cons inner, Text.lastBracket?, h, Option.map_some]
    omega
  | none =>
    by_cases hc : c = '>'
    · simp only [reach, measure, Text.line_cons inner, Text.lastBracket?, h, if_pos hc,
        Option.map_some, Option.map_none]
      omega
    · simp [reach, measure, Text.line_cons inner, Text.lastBracket?, h, hc]

/-- Where there is no `>` and no line break ahead, measuring may as well begin behind it. -/
theorem measure_append {between : Text}
    (plain : ∀ c ∈ between, Text.isLineBreak c = false ∧ c ≠ '>') (pos : Nat) (rest : Text) :
    measure pos (between ++ rest) = measure (pos + between.length) rest := by
  induction between generalizing pos with
  | nil => rfl
  | cons c between ih =>
    obtain ⟨inner, other⟩ := plain c (by simp)
    have step : measure pos (c :: (between ++ rest)) = measure (pos + 1) (between ++ rest) := by
      cases h : Text.lastBracket? (Text.line (between ++ rest)) <;>
        simp [measure, Text.line_cons inner, Text.lastBracket?, h, other] <;> omega
    rw [List.cons_append, step, ih fun d member => plain d (by simp [member]), List.length_cons]
    congr 1
    omega

/-- A line that is known at a position is known at the next one. -/
theorem Knows.tail {line : Line} {pos : Nat} {c : Char} {rest : Text}
    (known : line.Knows pos (c :: rest)) : line.Knows (pos + 1) rest := by
  intro inside
  obtain ⟨stop, reaches⟩ := known (by omega)
  have inner : Text.isLineBreak c = false := by
    cases hc : Text.isLineBreak c with
    | false => rfl
    | true =>
      simp only [measure, Text.line, List.takeWhile_cons, hc, Bool.not_true, Bool.false_eq_true,
        if_false, List.length_nil] at stop
      omega
  refine ⟨stop.trans (stop_measure_cons inner pos rest), ?_⟩
  intro later after
  rw [reaches later (by omega), reach_measure_cons inner pos rest after]

/-- A line that is known at a position is known at any later one. -/
theorem Knows.drop {line : Line} {pos : Nat} {before rest : Text}
    (known : line.Knows pos (before ++ rest)) : line.Knows (pos + before.length) rest := by
  induction before generalizing pos with
  | nil => exact known
  | cons c before ih =>
    have next := ih known.tail
    rwa [Nat.add_assoc, Nat.add_comm 1] at next

/-- A refreshed line is known. -/
theorem knows_refresh {known : Option Line} {pos : Nat} {s : Text}
    (right : ∀ line ∈ known, line.Knows pos s) : (refresh known pos s).Knows pos s := by
  cases known with
  | none => exact knows_measure pos s
  | some line =>
    by_cases inside : pos ≤ line.stop
    · rw [refresh_of_le inside]
      exact right line rfl
    · rw [refresh_of_lt (Nat.lt_of_not_le inside)]
      exact knows_measure pos s

/-- A line that is kept reaches as far as one measured anew. -/
theorem reach_refresh {known : Option Line} {pos : Nat} {s : Text}
    (right : ∀ line ∈ known, line.Knows pos s) :
    (refresh known pos s).reach pos = (measure pos s).reach pos :=
  (knows_refresh right (le_refresh_stop known pos s)).2 pos (Nat.le_refl pos)

end Line

end Waymark
