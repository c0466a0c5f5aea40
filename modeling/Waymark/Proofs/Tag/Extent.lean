import Waymark.Proofs.Tag.Reading

/-!
# What a tag covers

A tag covers a stretch of its text, and that is its raw text (`Tag.Covers`). It ends at the last `>`
of the line at the latest, so there is no line break in it (`isLineBreak_of_mem_raw`), and its
branches are made of characters of the text (`mem_of_mem_branch`).
-/

namespace Waymark

/-- No more can be reached than there is on the line. -/
theorem Text.reach_le_length_line (s : Text) : reach s ≤ (line s).length := by
  unfold reach
  cases found : lastBracket? (line s) with
  | none => exact Nat.zero_le _
  | some offset =>
    have bracket := getElem?_of_lastBracket? found
    exact (List.getElem?_eq_some_iff.1 bracket).1

/-- What ends the branches is reached. -/
theorem Branches.bracket_lt_reach {s : Text} {branches : Branches}
    (found : ofText? s = some branches) : branches.bracket < Text.reach s := by
  rw [← read?_reach, read?] at found
  split at found
  · simp at found
  · rename_i reached
    obtain rfl := Option.some.inj found
    show Option.getD (Option.map _ _) _ < _
    cases single : bracket? (Text.reach s - _) _ with
    | none =>
      show Text.reach s - 2 < Text.reach s
      omega
    | some offset =>
      have inside := (isBracket_of_bracket? single).inside
      show _ + offset < Text.reach s
      omega

/-- The characters up to the end of the branches are on the line. -/
theorem Branches.isLineBreak_of_mem_take {s : Text} {branches : Branches}
    (found : ofText? s = some branches) {c : Char} (member : c ∈ s.take (branches.bracket + 1)) :
    Text.isLineBreak c = false := by
  have reached := bracket_lt_reach found
  have inside := Text.reach_le_length_line s
  obtain ⟨after, split⟩ : Text.line s <+: s := List.takeWhile_prefix _
  rw [← split, List.take_append_of_le_length (by omega)] at member
  exact Text.isLineBreak_of_mem_line (List.mem_of_mem_take member)

namespace Tag

/-- The tag covers a stretch of the text that is not empty. -/
structure Covers (s : Text) (tag : Tag) : Prop where
  start_lt_stop : tag.start < tag.stop
  stop_le : tag.stop ≤ s.length
  raw_eq : tag.raw = (s.drop tag.start).take (tag.stop - tag.start)

theorem covers_of_mem {s : Text} {tag : Tag} (member : tag ∈ tags s) : Covers s tag := by
  have stands := standsAt_of_at? (at?_of_mem member)
  have wide := stands.lt_stop
  have inside := stands.stop_le
  rw [List.length_drop] at inside
  exact ⟨wide, by omega, stands.raw_eq⟩

/-- What a tag covers is found in its raw text. -/
theorem Covers.getElem?_raw {s : Text} {tag : Tag} (covers : Covers s tag) {offset : Nat}
    (after : tag.start ≤ offset) (before : offset < tag.stop) :
    tag.raw[offset - tag.start]? = s[offset]? := by
  rw [covers.raw_eq, List.getElem?_take_of_lt (by omega), List.getElem?_drop]
  congr 1
  omega

/-! ## The raw text -/

theorem raw_ofClosed (pos : Nat) (letter : Char) (identifier after : Text) :
    (ofClosed pos ('<' :: letter :: ':' :: (identifier ++ '>' :: after)) identifier).raw =
      ('<' :: letter :: ':' :: identifier) ++ ['>'] := by
  have width : identifier.length + 4 = ('<' :: letter :: ':' :: identifier).length + 1 := rfl
  show List.take (identifier.length + 4) _ = _
  rw [width]
  exact @List.take_length_add_append _ ('<' :: letter :: ':' :: identifier) _ 1

theorem raw_ofBranches (pos : Nat) (letter : Char) (identifier body : Text) (branches : Branches) :
    (ofBranches pos ('<' :: letter :: ':' :: (identifier ++ '?' :: body)) identifier body
      branches).raw =
      ('<' :: letter :: ':' :: (identifier ++ ['?'])) ++ body.take (branches.bracket + 1) := by
  have width : identifier.length + 4 + branches.bracket + 1 =
      ('<' :: letter :: ':' :: (identifier ++ ['?'])).length + (branches.bracket + 1) := by
    simp only [List.length_cons, List.length_append, List.length_nil]
    omega
  have split : '<' :: letter :: ':' :: (identifier ++ '?' :: body) =
      ('<' :: letter :: ':' :: (identifier ++ ['?'])) ++ body := by
    simp
  show List.take (identifier.length + 4 + branches.bracket + 1) _ = _
  rw [width, split, List.take_length_add_append]

theorem isLineBreak_of_mem_raw_of_at? {pos : Nat} {s : Text} {tag : Tag}
    (found : at? pos s = some tag) : ∀ c ∈ tag.raw, Text.isLineBreak c = false := by
  unfold at? at found
  split at found
  · simp at found
  · rename_i identifier head
    obtain rfl := Option.some.inj found
    obtain ⟨letter, after, front, rfl⟩ := Head.front_of_closed head
    intro c member
    rw [raw_ofClosed] at member
    rcases List.mem_append.1 member with inside | last
    · exact (front.plain c inside).1
    · rw [List.mem_singleton.1 last]
      rfl
  · rename_i identifier body head
    obtain ⟨branches, read, rfl⟩ := Option.map_eq_some_iff.1 found
    obtain ⟨letter, front, rfl⟩ := Head.front_of_branched head
    intro c member
    rw [raw_ofBranches] at member
    rcases List.mem_append.1 member with inside | inside
    · exact (plain_before_body front.opener front.digits c inside).1
    · exact Branches.isLineBreak_of_mem_take read inside

/-- A tag has no line break in it. -/
theorem isLineBreak_of_mem_raw {s : Text} {tag : Tag} (member : tag ∈ tags s) :
    ∀ c ∈ tag.raw, Text.isLineBreak c = false :=
  isLineBreak_of_mem_raw_of_at? (at?_of_mem member)

/-! ## The branches -/

/-- A stored branch is what was written. -/
theorem eq_of_branch? {written branch : Text} (held : branch? written = some branch) :
    branch = written := by
  cases written with
  | nil => simp at held
  | cons c rest => exact (Option.some.inj held).symm

/-- The branches of a tag are made of characters of the text. -/
theorem mem_of_mem_branch {s : Text} {tag : Tag} (member : tag ∈ tags s) {branch : Text}
    (held : tag.trueBranch = some branch ∨ tag.falseBranch = some branch) :
    ∀ c ∈ branch, c ∈ s := by
  obtain ⟨before, rest, rfl, found⟩ := exists_of_mem_tagsFrom member
  unfold at? at found
  split at found
  · simp at found
  · obtain rfl := Option.some.inj found
    simp [ofClosed] at held
  · rename_i identifier body head
    obtain ⟨branches, read, rfl⟩ := Option.map_eq_some_iff.1 found
    obtain ⟨letter, front, rfl⟩ := Head.front_of_branched head
    intro c inside
    have inBody : c ∈ body := by
      rcases held with held | held
      · rw [eq_of_branch? held] at inside
        exact List.mem_of_mem_take inside
      · rw [eq_of_branch? held] at inside
        exact List.mem_of_mem_drop (List.mem_of_mem_take inside)
    simp [inBody]

end Tag

end Waymark
