import Waymark.Proofs.Tag.Extent

/-!
# Tags that are backed off

Where no single `>` ends the branches of a tag, reading backs off and the first `>` of the last pair
ends the tag. So a `>` stands right behind a tag with branches exactly if it was backed off
(`Branches.backsOff_cases`), and then this is the last `>` of the line: nothing is left there for
another tag to end on (`Tag.reach_behind`). Taken together: `tags_back_off`.
-/

namespace Waymark

/-! ## Branches that are backed off -/

namespace Branches

/-- No single `>` behind the true branch ends the tag. -/
def BacksOff (branches : Branches) (s : Text) : Prop :=
  bracket? (Text.reach s - branches.falseStart) (s.drop branches.falseStart) = none

/-- What ends a false branch is a single `>`, or the first `>` of the last pair that is reached. -/
theorem backsOff_cases_of_closer? {s : Text} {offset : Nat} (closes : closer? s = some offset) :
    (bracket? (Text.reach s) s ≠ none ∧ s[offset + 1]? ≠ some '>') ∨
      (bracket? (Text.reach s) s = none ∧ s[offset + 1]? = some '>' ∧
        Text.reach s = offset + 2) := by
  rcases closer?_cases s with ⟨_, unclosed⟩ | ⟨other, single, here⟩ | ⟨absent, room, here⟩
  · rw [closes] at unclosed
    simp at unclosed
  · obtain rfl : other = offset := Option.some.inj (here.symm.trans closes)
    refine .inl ⟨by simp [single], ?_⟩
    have found := isBracket_of_bracket? single
    rcases Nat.lt_or_eq_of_le found.inside with inside | last
    · exact found.alone inside
    · rw [show other + 1 = Text.reach s from last, ← List.head?_drop]
      exact Text.head?_of_unreached (Text.reach_drop_reach s)
  · obtain rfl : Text.reach s - 2 = offset := Option.some.inj (here.symm.trans closes)
    refine .inr ⟨absent, ?_, by omega⟩
    rw [show Text.reach s - 2 + 1 = Text.reach s - 1 by omega]
    exact Text.getElem?_reach (by omega)

/-- **Backing off.** Either a single `>` ends the branches, or they are backed off, and then the `>`
behind them is the last one that is reached. -/
theorem backsOff_cases {s : Text} {branches : Branches} (found : ofText? s = some branches) :
    (¬ branches.BacksOff s ∧ s[branches.bracket + 1]? ≠ some '>') ∨
      (branches.BacksOff s ∧ s[branches.bracket + 1]? = some '>' ∧
        Text.reach s = branches.bracket + 2) := by
  have short := Nat.lt_of_le_of_lt (endIn_of_ofText? found).falseStart_le_bracket
    (bracket_lt_reach found)
  rw [← read?_reach, read?_eq_closer? (Nat.zero_lt_of_lt short)] at found
  obtain ⟨offset, closes, rfl⟩ := Option.map_eq_some_iff.1 found
  have ahead := Text.reach_drop short
  have ends := backsOff_cases_of_closer? closes
  rw [List.getElem?_drop, ahead, ← Nat.add_assoc] at ends
  rcases ends with single | ⟨absent, next, last⟩
  · exact .inl single
  · refine .inr ⟨absent, next, ?_⟩
    dsimp only at last ⊢
    omega

end Branches

namespace Tag

/-! ## Tags with branches -/

/-- A `?` follows the identifier of the tag. -/
def Branched (tag : Tag) : Prop := tag.raw[tag.identifier.length + 3]? = some '?'

instance (tag : Tag) : Decidable tag.Branched := inferInstanceAs (Decidable (_ = some '?'))

/-- Offset of the character after the `?` of a tag. -/
def bodyStart (tag : Tag) : Nat := tag.start + (tag.identifier.length + 4)

/-- Reading the branches of the tag backed off. -/
def BackedOff (s : Text) (tag : Tag) : Prop :=
  ∃ branches, Branches.read? (Text.reach (s.drop tag.bodyStart)) (s.drop tag.bodyStart) =
    some branches ∧ branches.BacksOff (s.drop tag.bodyStart)

/-- The branches of a tag are read behind its `?`. -/
theorem exists_branches_of_mem {s : Text} {tag : Tag} (member : tag ∈ tags s)
    (branched : tag.Branched) :
    ∃ branches, Branches.ofText? (s.drop tag.bodyStart) = some branches ∧
      tag.stop = tag.bodyStart + (branches.bracket + 1) := by
  obtain ⟨before, rest, rfl, found⟩ := exists_of_mem_tagsFrom member
  rw [Nat.zero_add] at found
  unfold at? at found
  split at found
  · simp at found
  · rename_i identifier head
    obtain rfl := Option.some.inj found
    obtain ⟨letter, after, front, rfl⟩ := Head.front_of_closed head
    rw [Branched, raw_ofClosed] at branched
    simp [ofClosed] at branched
  · rename_i identifier body head
    obtain ⟨branches, read, rfl⟩ := Option.map_eq_some_iff.1 found
    obtain ⟨letter, front, rfl⟩ := Head.front_of_branched head
    have behind : (before ++ '<' :: letter :: ':' :: (identifier ++ '?' :: body)).drop
        (before.length + (identifier.length + 4)) = body := by
      rw [List.drop_length_add_append]
      simp
    refine ⟨branches, ?_, ?_⟩
    · simpa only [bodyStart, ofBranches, behind] using read
    · simp only [bodyStart, ofBranches]
      omega

/-- A tag ends on a `>` of the line. -/
theorem reach_of_at? {pos : Nat} {s : Text} {tag : Tag} (found : at? pos s = some tag) :
    0 < Text.reach s := by
  unfold at? at found
  split at found
  · simp at found
  · rename_i identifier head
    obtain ⟨letter, after, front, rfl⟩ := Head.front_of_closed head
    have counted := @Text.reach_append ('<' :: letter :: ':' :: identifier) ('>' :: after)
      (fun c inside => (front.plain c inside).1) (by rw [Text.reach_bracket]; omega)
    simp only [List.cons_append] at counted
    rw [counted, Text.reach_bracket]
    omega
  · rename_i identifier body head
    obtain ⟨branches, read, -⟩ := Option.map_eq_some_iff.1 found
    obtain ⟨letter, front, rfl⟩ := Head.front_of_branched head
    have reached := Branches.bracket_lt_reach read
    have plain := plain_before_body front.opener front.digits
    have counted := @Text.reach_append ('<' :: letter :: ':' :: (identifier ++ ['?'])) body
      (fun c inside => (plain c inside).1) (by omega)
    simp only [List.cons_append, List.append_assoc, List.nil_append] at counted
    omega

/-- A tag begins with an opener. -/
theorem head?_of_at? {pos : Nat} {s : Text} {tag : Tag} (found : at? pos s = some tag) :
    s.head? = some '<' := by
  unfold at? at found
  split at found
  · simp at found
  · rename_i identifier head
    obtain ⟨letter, after, front, rfl⟩ := Head.front_of_closed head
    rfl
  · rename_i identifier body head
    obtain ⟨letter, front, rfl⟩ := Head.front_of_branched head
    rfl

/-- **What is left of the line.** A `>` right behind a tag that has branches is the last one of the
line. -/
theorem reach_behind {s : Text} {tag : Tag} (member : tag ∈ tags s) (branched : tag.Branched)
    (pair : s[tag.stop]? = some '>') : Text.reach (s.drop tag.stop) = 1 := by
  obtain ⟨branches, read, stop⟩ := exists_branches_of_mem member branched
  rw [stop, ← List.getElem?_drop] at pair
  rw [stop, ← List.drop_drop]
  rcases Branches.backsOff_cases read with ⟨_, single⟩ | ⟨_, _, last⟩
  · exact absurd pair single
  · rw [Text.reach_drop (by omega)]
    omega

/-- Where one `>` is left on the line, no tag begins before the end of the line. -/
theorem start_behind_line {s : Text} {pos : Nat} (bracket : s[pos]? = some '>')
    (last : Text.reach (s.drop pos) = 1) {tag : Tag} (member : tag ∈ tags s) :
    ¬ (pos ≤ tag.start ∧ tag.start ≤ pos + (Text.line (s.drop pos)).length) := by
  rintro ⟨behind, before⟩
  have found := at?_of_mem member
  have opener := head?_of_at? found
  rw [List.head?_drop] at opener
  rcases Nat.eq_or_lt_of_le behind with here | farther
  · rw [← here, bracket] at opener
    simp at opener
  · -- behind the `>` nothing can be reached
    rw [Text.drop_of_getElem? bracket, Text.line_cons (by decide), List.length_cons] at before
    rw [Text.drop_of_getElem? bracket, Text.reach_bracket] at last
    have reached := reach_of_at? found
    have unreached := @Text.reach_drop_of_unreached (s.drop (pos + 1)) (by omega)
      (tag.start - (pos + 1)) (by omega)
    rw [List.drop_drop, Nat.add_sub_cancel' farther] at unreached
    omega

end Tag

/-- Where one `>` is left on the line, and it comes next, there is no other one. -/
theorem Text.line_of_reach {s : Text} (first : s.head? = some '>') (last : reach s = 1) :
    ∃ after, line s = '>' :: after ∧ '>' ∉ after := by
  obtain ⟨rest, rfl⟩ := List.head?_eq_some_iff.1 first
  rw [reach_bracket] at last
  exact ⟨line rest, line_cons (by decide) rest, reach_eq_zero_iff.1 (by omega)⟩

/-- **Backing off.** Behind a tag with branches stands a `>` exactly if reading the branches backed
off. Then it is the last `>` before the end of the line and the only one that is left there, and no
tag begins on the rest of the line. Otherwise the `>` that ends the tag is the last one of a run. -/
theorem tags_back_off (s : Text) :
    ∀ tag ∈ tags s, tag.Branched →
      s[tag.stop - 1]? = some '>' ∧ (tag.BackedOff s ↔ s[tag.stop]? = some '>') ∧
      ∃ lineStop, Text.LineEnd s tag.stop lineStop ∧
        (s[tag.stop]? = some '>' →
          tag.stop < lineStop ∧
          (∀ offset, tag.stop < offset → offset < lineStop → s[offset]? ≠ some '>') ∧
          ((s.drop tag.stop).take (lineStop - tag.stop)).count '>' = 1 ∧
          ∀ other ∈ tags s, ¬ (tag.stop ≤ other.start ∧ other.start ≤ lineStop)) := by
  intro tag member branched
  obtain ⟨branches, read, stop⟩ := Tag.exists_branches_of_mem member branched
  have inside := (Tag.covers_of_mem member).stop_le
  have behind : s[tag.stop]? = (s.drop tag.bodyStart)[branches.bracket + 1]? := by
    rw [List.getElem?_drop, stop]
  have backs : tag.BackedOff s ↔ branches.BacksOff (s.drop tag.bodyStart) := by
    rw [Tag.BackedOff, Branches.read?_reach, read]
    simp
  refine ⟨?_, ?_, tag.stop + (Text.line (s.drop tag.stop)).length, Text.lineEnd_drop inside, ?_⟩
  · have bracket := (Branches.endIn_of_ofText? read).getElem?_bracket
    rw [List.getElem?_drop] at bracket
    rwa [stop, ← Nat.add_assoc, Nat.add_sub_cancel]
  · rw [backs, behind]
    rcases Branches.backsOff_cases read with ⟨kept, single⟩ | ⟨backed, pair, -⟩
    · exact iff_of_false kept single
    · exact iff_of_true backed pair
  · intro pair
    have last := Tag.reach_behind member branched pair
    obtain ⟨after, line, none⟩ := Text.line_of_reach (by rwa [List.head?_drop]) last
    refine ⟨?_, ?_, ?_, fun other listed => Tag.start_behind_line pair last listed⟩
    · rw [line, List.length_cons]
      omega
    · intro offset farther before bracket
      have here := @Text.getElem?_line (s.drop tag.stop) (offset - tag.stop) (by omega)
      rw [List.getElem?_drop, Nat.add_sub_cancel' (Nat.le_of_lt farther), bracket, line,
        show offset - tag.stop = offset - tag.stop - 1 + 1 by omega,
        List.getElem?_cons_succ] at here
      exact none (List.mem_of_getElem? here)
    · rw [Nat.add_sub_cancel_left, Text.take_length_line, line, List.count_cons_self,
        List.count_eq_zero.2 none]

/-- Backing off from the true branch and from the false branch, the latter behind a pair and before
the next line. -/
theorem tags_back_off_twice :
    let s := "<x:1?a>>\n<x:2?|>>b>> c\n<x:3>".toList
    let first : Tag := ⟨['1'], some ['a'], none, 0, 7, "<x:1?a>".toList⟩
    let second : Tag := ⟨['2'], none, some ">>b".toList, 9, 19, "<x:2?|>>b>".toList⟩
    (first ∈ tags s ∧ first.Branched ∧ first.BackedOff s) ∧
      second ∈ tags s ∧ second.Branched ∧ second.BackedOff s ∧
      ∃ lineStop, Text.LineEnd s 19 lineStop ∧
        ∀ other ∈ tags s, ¬ (19 ≤ other.start ∧ other.start ≤ lineStop) := by
  intro s first second
  have memberFirst : first ∈ tags s := by decide
  have memberSecond : second ∈ tags s := by decide
  have branchedFirst : first.Branched := by decide
  have branchedSecond : second.Branched := by decide
  have known := tags_back_off s second memberSecond branchedSecond
  obtain ⟨lineStop, lineEnd, rest⟩ := known.2.2
  exact ⟨⟨memberFirst, branchedFirst, (tags_back_off s first memberFirst branchedFirst).2.1.2 rfl⟩,
    memberSecond, branchedSecond, known.2.1.2 rfl, lineStop, lineEnd, (rest rfl).2.2.2⟩

end Waymark
