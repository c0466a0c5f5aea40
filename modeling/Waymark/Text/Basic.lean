/-!
# Texts and lines

A text is a list of characters, so every offset and every length counts characters. A line ends at
a line feed or a carriage return and at nothing else. The lemmas say what `line` cuts off: it is the
longest beginning of the text without a line break. `LineEnd` says where the line ahead of a
position ends.
-/

namespace Waymark

/-- A text, character by character. -/
abbrev Text := List Char

namespace Text

/-- The two characters that end a line. -/
def isLineBreak (c : Char) : Bool := c == '\n' || c == '\r'

/-- The text before its first line break, the whole text if it has none. -/
def line (s : Text) : Text := s.takeWhile (!isLineBreak ·)

/-- A character that is no line break belongs to the line. -/
theorem line_cons {c : Char} (inner : isLineBreak c = false) (rest : Text) :
    line (c :: rest) = c :: line rest := by
  simp [line, inner]

/-- Every character of a line is no line break. -/
theorem isLineBreak_of_mem_line {s : Text} {c : Char} (member : c ∈ line s) :
    isLineBreak c = false := by
  induction s with
  | nil => simp [line] at member
  | cons d rest ih =>
    cases hd : isLineBreak d with
    | true => simp [line, hd] at member
    | false =>
      simp only [line, List.takeWhile_cons, hd, Bool.not_false, if_true, List.mem_cons] at member
      rcases member with rfl | member
      · exact hd
      · exact ih member

theorem length_line_le (s : Text) : (line s).length ≤ s.length :=
  (List.takeWhile_sublist _).length_le

/-- A text without a line break is one line. -/
theorem line_eq_self {s : Text} (plain : ∀ c ∈ s, isLineBreak c = false) : line s = s := by
  induction s with
  | nil => rfl
  | cons c rest ih =>
    have head := plain c (by simp)
    have tail := ih fun d member => plain d (by simp [member])
    simpa [line, head] using tail

/-- A line that has ended goes no further in a longer text. -/
theorem line_append {s : Text} {c : Char} (member : c ∈ s) (ends : isLineBreak c = true)
    (after : Text) : line (s ++ after) = line s := by
  induction s with
  | nil => simp at member
  | cons d rest ih =>
    cases hd : isLineBreak d with
    | true => simp [line, hd]
    | false =>
      rcases List.mem_cons.1 member with rfl | member
      · rw [ends] at hd
        exact absurd hd (by simp)
      · rw [List.cons_append, line_cons hd, line_cons hd, ih member]

theorem take_length_line (s : Text) : s.take (line s).length = line s := by
  obtain ⟨after, split⟩ : line s <+: s := List.takeWhile_prefix _
  have cut := congrArg (List.take (line s).length) split
  rw [List.take_left] at cut
  exact cut.symm

/-! ## Where a line ends -/

/-- The line ahead of `pos` ends at `stop`: there stands the first line break at or after `pos`, or
there is none and the text ends. -/
structure LineEnd (s : Text) (pos stop : Nat) : Prop where
  le_stop : pos ≤ stop
  stop_le : stop ≤ s.length
  inner : ∀ offset, pos ≤ offset → offset < stop →
    s[offset]? ≠ some '\n' ∧ s[offset]? ≠ some '\r'
  ends : stop = s.length ∨ s[stop]? = some '\n' ∨ s[stop]? = some '\r'

/-- The characters of a line are those of its text. -/
theorem getElem?_line {s : Text} {offset : Nat} (inside : offset < (line s).length) :
    (line s)[offset]? = s[offset]? := by
  obtain ⟨after, split⟩ : line s <+: s := List.takeWhile_prefix _
  conv => rhs; rw [← split, List.getElem?_append_left inside]

/-- What stands behind a line is a line break. -/
theorem isLineBreak_behind_line {s : Text} {c : Char} (here : s[(line s).length]? = some c) :
    isLineBreak c = true := by
  induction s with
  | nil => simp [line] at here
  | cons d rest ih =>
    cases hd : isLineBreak d with
    | true =>
      obtain rfl : d = c := by simpa [line, hd] using here
      exact hd
    | false =>
      rw [line_cons hd, List.length_cons, List.getElem?_cons_succ] at here
      exact ih here

theorem lineEnd_drop {s : Text} {pos : Nat} (inside : pos ≤ s.length) :
    LineEnd s pos (pos + (line (s.drop pos)).length) := by
  have short := length_line_le (s.drop pos)
  rw [List.length_drop] at short
  refine ⟨Nat.le_add_right .., by omega, ?_, ?_⟩
  · intro offset behind before
    have here := @getElem?_line (s.drop pos) (offset - pos) (by omega)
    rw [List.getElem?_drop, Nat.add_sub_cancel' behind] at here
    rw [← here]
    constructor
    · intro breaks
      exact absurd (isLineBreak_of_mem_line (List.mem_of_getElem? breaks)) (by decide)
    · intro breaks
      exact absurd (isLineBreak_of_mem_line (List.mem_of_getElem? breaks)) (by decide)
  · cases here : s[pos + (line (s.drop pos)).length]? with
    | none =>
      have beyond := List.getElem?_eq_none_iff.1 here
      exact .inl (by omega)
    | some c =>
      rw [← List.getElem?_drop] at here
      have breaks := isLineBreak_behind_line here
      simp only [isLineBreak, Bool.or_eq_true, beq_iff_eq] at breaks
      rcases breaks with rfl | rfl
      · exact .inr (.inl rfl)
      · exact .inr (.inr rfl)

end Text

end Waymark
