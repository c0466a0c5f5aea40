import Waymark.Tag.Basic
import Waymark.Tag.Line
import Waymark.Tag.Branches

/-!
# The tags of a text

`tags s` are the tags of `s` from left to right. Each position is tried in turn; behind a tag the
search goes on at its end, so no two tags overlap. What is known of the current line is handed
from one position to the next, which keeps the search linear in the length of the text.

Main statements: what is known of the line does not change the tags (`tagsFrom_known`), and in a
text that begins further on the same tags are found further on (`tagsFrom_shift`).
-/

namespace Waymark

namespace Tag

/-- The tag without branches at the beginning of `s`, the text from `pos` on. -/
def ofClosed (pos : Nat) (s identifier : Text) : Tag :=
  let width := identifier.length + 4
  { identifier, trueBranch := none, falseBranch := none,
    start := pos, stop := pos + width, raw := s.take width }

/-- The tag with branches at the beginning of `s`, the text from `pos` on; `body` is what comes
after its `?`. -/
def ofBranches (pos : Nat) (s identifier body : Text) (branches : Branches) : Tag :=
  let width := identifier.length + 4 + branches.bracket + 1
  { identifier,
    trueBranch := branch? (branches.trueText body),
    falseBranch := branch? (branches.falseText body),
    start := pos, stop := pos + width, raw := s.take width }

/-- The tag at the beginning of `s`, the text from `pos` on, if there is one, and what is known of
the line afterwards. -/
def read? (known : Option Line) (pos : Nat) (s : Text) : Option Tag × Option Line :=
  match Head.read? s with
  | none => (none, known)
  | some (.closed identifier) => (some (ofClosed pos s identifier), known)
  | some (.branched identifier body) =>
      let bodyStart := pos + (identifier.length + 4)
      let line := Line.refresh known bodyStart body
      let branches := Branches.read? (line.reach bodyStart) body
      (branches.map (ofBranches pos s identifier body), some line)

end Tag

/-- The tags of the text from `pos` on, its first `skip` characters left out, where `known` is what
is known of the line. -/
def tagsFrom (known : Option Line) (pos : Nat) : Nat → Text → List Tag
  | _, [] => []
  | skip + 1, _ :: rest => tagsFrom known (pos + 1) skip rest
  | 0, c :: rest =>
      match Tag.read? known pos (c :: rest) with
      | (some tag, line) => tag :: tagsFrom line (pos + 1) (tag.stop - (pos + 1)) rest
      | (none, line) => tagsFrom line (pos + 1) 0 rest

/-- The tags of a text from left to right. -/
def tags (s : Text) : List Tag := tagsFrom none 0 0 s

@[simp] theorem tagsFrom_nil (known : Option Line) (pos skip : Nat) :
    tagsFrom known pos skip [] = [] := by
  cases skip <;> rfl

/-- Characters to leave out can be cut off beforehand. -/
theorem tagsFrom_skip (known : Option Line) (pos skip : Nat) (s : Text) :
    tagsFrom known pos skip s = tagsFrom known (pos + skip) 0 (s.drop skip) := by
  induction skip generalizing pos s with
  | zero => rfl
  | succ skip ih =>
    cases s with
    | nil => simp
    | cons c rest =>
      rw [tagsFrom, ih, List.drop_succ_cons]
      congr 1
      omega

/-! ## Reading one tag -/

namespace Tag

/-- A tag starts where it was read. -/
theorem start_of_read? {known : Option Line} {pos : Nat} {s : Text} {tag : Tag}
    (found : (read? known pos s).1 = some tag) : tag.start = pos := by
  unfold read? at found
  split at found
  · simp at found
  · obtain rfl := Option.some.inj found
    rfl
  · obtain ⟨branches, _, rfl⟩ := Option.map_eq_some_iff.1 found
    rfl

/-- Before the branches of a tag there is neither a `>` nor the end of a line. -/
theorem plain_before_body {letter : Char} {identifier : Text}
    (opener : letter = 'x' ∨ letter = 'X') (digits : ∀ c ∈ identifier, c.isDigit) :
    ∀ c ∈ '<' :: letter :: ':' :: (identifier ++ ['?']), Text.isLineBreak c = false ∧ c ≠ '>' := by
  intro c member
  simp only [List.mem_cons, List.mem_append, List.not_mem_nil, or_false] at member
  rcases member with rfl | rfl | rfl | member | rfl
  · decide
  · rcases opener with rfl | rfl <;> decide
  · decide
  · have digit := digits c member
    constructor
    · cases h : Text.isLineBreak c with
      | false => rfl
      | true =>
        simp only [Text.isLineBreak, Bool.or_eq_true, beq_iff_eq] at h
        rcases h with rfl | rfl <;> simp at digit
    · rintro rfl
      simp at digit
  · decide

/-- What is known of the line does not change the tag that is read. -/
theorem read?_known {known : Option Line} {pos : Nat} {s : Text}
    (right : ∀ line ∈ known, line.Knows pos s) : (read? known pos s).1 = (read? none pos s).1 := by
  unfold read?
  split
  · rfl
  · rfl
  · rename_i identifier body found
    obtain ⟨letter, _, rfl, _⟩ := Head.eq_of_branched found
    have ahead : ∀ line ∈ known, line.Knows (pos + (identifier.length + 4)) body := by
      intro line member
      have here := right line member
      rw [show '<' :: letter :: ':' :: (identifier ++ '?' :: body) =
        ('<' :: letter :: ':' :: (identifier ++ ['?'])) ++ body by simp] at here
      simpa [Nat.add_assoc] using here.drop
    simp only [Line.reach_refresh ahead, Line.refresh_none]

/-- What is known of the line afterwards is right. -/
theorem knows_of_read? {known : Option Line} {pos : Nat} {s : Text}
    (right : ∀ line ∈ known, line.Knows pos s) :
    ∀ line ∈ (read? known pos s).2, line.Knows pos s := by
  unfold read?
  split
  · exact right
  · exact right
  · rename_i identifier body found
    obtain ⟨letter, opener, rfl, _, digits⟩ := Head.eq_of_branched found
    have anew : (Line.measure (pos + (identifier.length + 4)) body).Knows pos
        ('<' :: letter :: ':' :: (identifier ++ '?' :: body)) := by
      have same := Line.measure_append (plain_before_body opener digits) pos body
      simp only [List.length_cons, List.length_append, List.length_nil, List.cons_append,
        List.append_assoc, List.nil_append] at same
      rw [← same]
      exact Line.knows_measure pos _
    intro line member
    obtain rfl := Option.some.inj member
    cases known with
    | none => exact anew
    | some line =>
      by_cases inside : pos + (identifier.length + 4) ≤ line.stop
      · rw [Line.refresh_of_le inside]
        exact right line rfl
      · rw [Line.refresh_of_lt (Nat.lt_of_not_le inside)]
        exact anew

/-- In a text that begins further on, the same tag is read further on. -/
theorem read?_shift (pos amount : Nat) (s : Text) :
    (read? none (pos + amount) s).1 = ((read? none pos s).1).map (shift amount) := by
  unfold read?
  split
  · rfl
  · simp [ofClosed, shift]
    omega
  · rename_i identifier body _
    have same : (Line.measure (pos + amount + (identifier.length + 4)) body).reach
        (pos + amount + (identifier.length + 4)) =
        (Line.measure (pos + (identifier.length + 4)) body).reach
          (pos + (identifier.length + 4)) := by
      rw [Line.reach_measure, Line.reach_measure (pos + (identifier.length + 4))]
    simp only [Line.refresh_none, same, Option.map_map]
    congr 1
    funext branches
    simp [ofBranches, shift]
    omega

end Tag

/-! ## The scan -/

/-- One step of the scan. -/
theorem tagsFrom_zero_cons (known : Option Line) (pos : Nat) (c : Char) (rest : Text) :
    tagsFrom known pos 0 (c :: rest) =
      match (Tag.read? known pos (c :: rest)).1 with
      | some tag =>
          tag :: tagsFrom (Tag.read? known pos (c :: rest)).2 (pos + 1) (tag.stop - (pos + 1)) rest
      | none => tagsFrom (Tag.read? known pos (c :: rest)).2 (pos + 1) 0 rest := by
  rw [tagsFrom]
  rcases Tag.read? known pos (c :: rest) with ⟨_ | tag, line⟩ <;> rfl

/-- What is known of the line does not change the tags. -/
theorem tagsFrom_known {known : Option Line} {pos : Nat} {s : Text}
    (right : ∀ line ∈ known, line.Knows pos s) (skip : Nat) :
    tagsFrom known pos skip s = tagsFrom none pos skip s := by
  induction s generalizing known pos skip with
  | nil => simp
  | cons c rest ih =>
    cases skip with
    | succ skip => exact ih (fun line member => (right line member).tail) skip
    | zero =>
      have after := Tag.knows_of_read? right
      have alone : ∀ line ∈ (Tag.read? none pos (c :: rest)).2, line.Knows pos (c :: rest) :=
        Tag.knows_of_read? (by simp)
      have later (skip : Nat) :=
        (ih (fun line member => (after line member).tail) skip).trans
          (ih (fun line member => (alone line member).tail) skip).symm
      simp only [tagsFrom_zero_cons, Tag.read?_known right, later]

/-- One step of a scan that hands nothing from one position to the next. -/
theorem tagsFrom_none_zero_cons (pos : Nat) (c : Char) (rest : Text) :
    tagsFrom none pos 0 (c :: rest) =
      match (Tag.read? none pos (c :: rest)).1 with
      | some tag => tag :: tagsFrom none (pos + 1) (tag.stop - (pos + 1)) rest
      | none => tagsFrom none (pos + 1) 0 rest := by
  have alone : ∀ line ∈ (Tag.read? none pos (c :: rest)).2, line.Knows pos (c :: rest) :=
    Tag.knows_of_read? (by simp)
  rw [tagsFrom_zero_cons]
  simp only [tagsFrom_known fun line member => (alone line member).tail]

/-- In a text that begins further on, the same tags are found further on. -/
theorem tagsFrom_shift (pos amount skip : Nat) (s : Text) :
    tagsFrom none (pos + amount) skip s = (tagsFrom none pos skip s).map (Tag.shift amount) := by
  induction s generalizing pos skip with
  | nil => simp
  | cons c rest ih =>
    cases skip with
    | succ skip =>
      have step := ih (pos + 1) skip
      rwa [Nat.add_right_comm] at step
    | zero =>
      rw [tagsFrom_none_zero_cons, tagsFrom_none_zero_cons, Tag.read?_shift]
      cases found : (Tag.read? none pos (c :: rest)).1 with
      | none =>
        have step := ih (pos + 1) 0
        rwa [Nat.add_right_comm] at step
      | some tag =>
        have step := ih (pos + 1) (tag.stop - (pos + 1))
        rw [Nat.add_right_comm] at step
        have width : (tag.shift amount).stop - (pos + amount + 1) = tag.stop - (pos + 1) := by
          simp only [Tag.shift]
          omega
        simp only [Option.map_some, List.map_cons, width, step]

end Waymark
