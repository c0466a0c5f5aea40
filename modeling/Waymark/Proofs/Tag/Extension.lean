import Waymark.Proofs.Tag.BackOff

/-!
# Longer texts

A text that goes on may have its last `>` of the line farther on, and openers in it may become tags.
But whether branches end at a `>` is decided by the next character: unless it is a `>`, too, they
end there in any longer text (`Branches.ofText?_append`). If they are backed off, the line has ended
before the next tag begins, and nothing is changed for them either
(`Branches.ofText?_append_of_later`). So a tag that is not followed by a `>` stays, with all tags
before it (`tags_stable`).
-/

namespace Waymark

/-- A `>` that is not reached stands on another line. -/
theorem Text.exists_isLineBreak {s : Text} (unreached : reach s = 0) (bracket : '>' ∈ s) :
    ∃ c ∈ s, isLineBreak c = true := by
  by_cases plain : ∀ c ∈ s, isLineBreak c = false
  · rw [reach_eq_zero_iff, line_eq_self plain] at unreached
    exact absurd bracket unreached
  · simpa using plain

/-! ## Branches in a longer text -/

namespace Branches

/-- What ends a false branch ends it in a longer text, unless it would be half of a pair there. -/
theorem closer?_append {s after : Text} {offset : Nat} (closes : closer? s = some offset)
    (single : (s ++ after)[offset + 1]? ≠ some '>') : closer? (s ++ after) = some offset := by
  fun_induction closer? s generalizing offset with
  | case1 rest ih =>
    obtain rfl := Option.some.inj closes
    cases found : closer? rest with
    | none => simp [found] at single
    | some inner =>
      rw [found, Option.elim_some, Nat.add_assoc, Nat.add_comm] at single
      simp [closer?_pair, ih found single]
  | case2 rest first =>
    obtain rfl := Option.some.inj closes
    have other : (rest ++ after).head? ≠ some '>' := by
      rw [List.head?_eq_getElem?]
      exact single
    exact closer?_lone other
  | case3 c rest _ _ ends => simp at closes
  | case4 c rest _ bracket inner ih =>
    have other : c ≠ '>' := fun h => bracket h
    obtain ⟨offset, found, rfl⟩ := Option.map_eq_some_iff.1 closes
    rw [Nat.add_comm 1] at single
    rw [List.cons_append, closer?_plain (by simpa using inner) other, ih found single]
    rfl
  | case5 => simp at closes

/-- **Longer texts.** Branches end in a longer text where they did, unless the `>` that ends them
would be half of a pair there. -/
theorem ofText?_append {s after : Text} {branches : Branches} (found : ofText? s = some branches)
    (single : (s ++ after)[branches.bracket + 1]? ≠ some '>') :
    ofText? (s ++ after) = some branches := by
  fun_induction ofText? s generalizing branches with
  | case1 rest ih =>
    obtain ⟨inner, read, rfl⟩ := Option.map_eq_some_iff.1 found
    simp only [shift, Nat.add_assoc, Nat.add_comm 2] at single
    simp [ofText?_bars, ih read single]
  | case2 rest ih =>
    obtain rfl := Option.some.inj found
    cases read : ofText? rest with
    | none => simp [read] at single
    | some inner =>
      simp only [read, Option.elim_some, shift, Nat.add_assoc, Nat.add_comm 2] at single
      simp [ofText?_brackets, ih read single]
  | case3 rest first =>
    obtain ⟨offset, closes, rfl⟩ := Option.map_eq_some_iff.1 found
    cases rest with
    | nil => simp [closer?] at closes
    | cons d rest =>
      have other : (d :: (rest ++ after)).head? ≠ some '|' := by
        intro h
        exact first rest (by rw [Option.some.inj h])
      simp only [Nat.add_assoc, Nat.add_comm 1] at single
      rw [List.cons_append, List.cons_append, ofText?_separator other, ← List.cons_append,
        closer?_append closes single]
      rfl
  | case4 rest first =>
    obtain rfl := Option.some.inj found
    have other : (rest ++ after).head? ≠ some '>' := by
      rw [List.head?_eq_getElem?]
      exact single
    exact ofText?_lone other
  | case5 c rest _ _ _ _ ends => simp at found
  | case6 c rest _ _ separator bracket unbroken ih =>
    have hs : c ≠ '|' := fun h => separator h
    have hb : c ≠ '>' := fun h => bracket h
    obtain ⟨inner, read, rfl⟩ := Option.map_eq_some_iff.1 found
    simp only [shift, Nat.add_assoc, Nat.add_comm 1] at single
    rw [List.cons_append, ofText?_plain (by simpa using unbroken) hs hb, ih read single]
    rfl
  | case7 => simp at found

/-- Branches depend on nothing but the line. -/
theorem ofText?_line (s : Text) : ofText? (Text.line s) = ofText? s := by
  have lineOfLine : Text.line (Text.line s) = Text.line s :=
    Text.line_eq_self fun c member => Text.isLineBreak_of_mem_line member
  cases found : ofText? s with
  | none =>
    rw [ofText?_eq_none_iff, Text.reach_eq_zero_iff] at found ⊢
    rwa [lineOfLine]
  | some branches =>
    have inside := Nat.lt_of_lt_of_le (bracket_lt_reach found) (Text.reach_le_length_line s)
    obtain ⟨after, split⟩ : Text.line s <+: s := List.takeWhile_prefix _
    rw [← split] at found
    exact ofText?_of_append found inside

/-- On a line that has ended, branches are in a longer text what they were. -/
theorem ofText?_append_of_isLineBreak {s : Text} {c : Char} (member : c ∈ s)
    (ends : Text.isLineBreak c = true) (after : Text) : ofText? (s ++ after) = ofText? s := by
  rw [← ofText?_line, Text.line_append member ends, ofText?_line]

/-- Branches with another `>` farther on end in a longer text where they did, even if they are
backed off: then the other `>` is not on their line. -/
theorem ofText?_append_of_later {s after : Text} {branches : Branches}
    (found : ofText? s = some branches) (later : '>' ∈ s.drop (branches.bracket + 2)) :
    ofText? (s ++ after) = some branches := by
  have inside : branches.bracket + 1 < s.length := by
    have room := List.length_pos_of_mem later
    rw [List.length_drop] at room
    omega
  rcases backsOff_cases found with ⟨_, single⟩ | ⟨_, _, last⟩
  · refine ofText?_append found ?_
    rwa [List.getElem?_append_left inside]
  · have unreached := Text.reach_drop_reach s
    rw [last] at unreached
    obtain ⟨c, member, ends⟩ := Text.exists_isLineBreak unreached later
    rw [ofText?_append_of_isLineBreak (List.mem_of_mem_drop member) ends, found]

end Branches

/-! ## Tags in a longer text -/

namespace Tag

/-- **Decided tags.** A tag that is not followed by a `>` in a longer text, or is followed by a `>`
farther on in its own text, is read in the longer text. -/
theorem at?_append {pos : Nat} {s after : Text} {tag : Tag} (found : at? pos s = some tag)
    (decided : (s ++ after)[tag.stop - pos]? ≠ some '>' ∨ '>' ∈ s.drop (tag.stop - pos + 1)) :
    at? pos (s ++ after) = some tag := by
  unfold at? at found
  split at found
  · simp at found
  · rename_i identifier head
    obtain rfl := Option.some.inj found
    obtain ⟨letter, rest, front, rfl⟩ := Head.front_of_closed head
    simp only [at?, Head.read?_append head after, Head.append, ofClosed]
    rw [List.take_append_of_le_length (by simp)]
  · rename_i identifier body head
    obtain ⟨branches, read, rfl⟩ := Option.map_eq_some_iff.1 found
    obtain ⟨letter, front, rfl⟩ := Head.front_of_branched head
    let opening : Text := '<' :: letter :: ':' :: (identifier ++ ['?'])
    have split : '<' :: letter :: ':' :: (identifier ++ '?' :: body) = opening ++ body := by
      simp [opening]
    have width : (ofBranches pos (opening ++ body) identifier body branches).stop - pos =
        opening.length + (branches.bracket + 1) := by
      simp [ofBranches, opening]
      omega
    have kept : Branches.ofText? (body ++ after) = some branches := by
      rw [split, width] at decided
      rcases decided with single | later
      · rw [List.append_assoc, List.getElem?_append_right (Nat.le_add_right ..),
          Nat.add_sub_cancel_left] at single
        exact Branches.ofText?_append read single
      · rw [Nat.add_assoc, List.drop_length_add_append] at later
        exact Branches.ofText?_append_of_later read later
    have ends := Branches.endIn_of_ofText? read
    have inside := ends.bracket_lt
    simp only [at?, Head.read?_append head after, Head.append, kept, Option.map_some,
      Option.some.injEq, ofBranches, ends.trueText_append, ends.falseText_append]
    rw [List.take_append_of_le_length (by simp; omega)]

/-- A text that has a `>` holds all of a head that it begins with when it goes on. -/
private theorem length_le_of_bracket {letter mark : Char} {identifier rest s after : Text}
    (front : Head.Front letter identifier) (bracket : '>' ∈ s)
    (split : s ++ after = '<' :: letter :: ':' :: (identifier ++ mark :: rest)) :
    identifier.length + 4 ≤ s.length := by
  apply Nat.le_of_not_lt
  intro short
  -- then the text is a part of the opener and the digits, where no `>` stands
  have cut := congrArg (List.take s.length) split
  rw [List.take_left, ← List.cons_append, ← List.cons_append, ← List.cons_append,
    List.take_append_of_le_length (by simp; omega)] at cut
  rw [cut] at bracket
  exact (front.plain '>' (List.mem_of_mem_take bracket)).2 rfl

/-- Where there is no tag but a `>` farther on, there is none in a longer text. -/
theorem at?_append_of_absent {pos : Nat} {s after : Text} (absent : at? pos s = none)
    (bracket : '>' ∈ s) : at? pos (s ++ after) = none := by
  cases head : Head.read? (s ++ after) with
  | none => simp only [at?, head]
  | some first =>
    cases first with
    | closed identifier =>
      obtain ⟨letter, rest, front, written⟩ := Head.front_of_closed head
      have here := Head.read?_closed_of_append head (length_le_of_bracket front bracket written)
      simp [at?, here] at absent
    | branched identifier body =>
      obtain ⟨letter, front, written⟩ := Head.front_of_branched head
      obtain ⟨left, rfl, here⟩ :=
        Head.read?_branched_of_append head (length_le_of_bracket front bracket written)
      obtain ⟨letter, front, rfl⟩ := Head.front_of_branched here
      simp only [at?, here, Option.map_eq_none_iff, Branches.ofText?_eq_none_iff] at absent
      -- the line has ended before the `>`
      have farther : '>' ∈ left := by
        have plain := plain_before_body front.opener front.digits
        rw [show '<' :: letter :: ':' :: (identifier ++ '?' :: left) =
          ('<' :: letter :: ':' :: (identifier ++ ['?'])) ++ left by simp] at bracket
        rcases List.mem_append.1 bracket with opening | farther
        · exact absurd rfl (plain '>' opening).2
        · exact farther
      obtain ⟨c, member, ends⟩ := Text.exists_isLineBreak absent farther
      simp only [at?, head, Branches.ofText?_append_of_isLineBreak member ends,
        Option.map_eq_none_iff, Branches.ofText?_eq_none_iff, absent]

end Tag

/-! ## The scan of a longer text -/

/-- The tags that a scan finds stand behind what it leaves out, and a `>` ends them. -/
theorem bracket_behind_of_mem {pos skip : Nat} {s : Text} {tag : Tag}
    (member : tag ∈ tagsFrom none pos skip s) : pos < tag.stop ∧ '>' ∈ s.drop (skip + 1) := by
  rw [tagsFrom_skip] at member
  obtain ⟨before, rest, split, found⟩ := exists_of_mem_tagsFrom member
  refine ⟨?_, ?_⟩
  · have behind := (Tag.standsAt_of_at? found).lt_stop
    omega
  · -- the tag begins with another character, so the `>` stands behind its first one
    obtain ⟨tail, rfl⟩ := List.head?_eq_some_iff.1 (Tag.head?_of_at? found)
    have reached := Tag.reach_of_at? found
    have bracket := List.mem_of_getElem? (Text.getElem?_reach reached)
    have inTail : '>' ∈ tail := by simpa using bracket
    rw [← List.drop_drop, split]
    cases before with
    | nil => exact inTail
    | cons c before => simp [inTail]

/-- **Longer texts.** The scan of a longer text finds the same tags up to one that is not followed
by a `>`. -/
theorem exists_tagsFrom_append {pos skip : Nat} {s : Text} (after : Text) {before later : List Tag}
    {tag : Tag} (found : tagsFrom none pos skip s = before ++ tag :: later)
    (single : (s ++ after)[tag.stop - pos]? ≠ some '>') :
    ∃ more, tagsFrom none pos skip (s ++ after) = before ++ tag :: more := by
  induction s generalizing pos skip before with
  | nil => simp at found
  | cons c rest ih =>
    -- behind the first character the induction goes on with the rest of the text
    have goOn {skip : Nat} {before : List Tag}
        (found : tagsFrom none (pos + 1) skip rest = before ++ tag :: later) :
        ∃ more, tagsFrom none (pos + 1) skip (rest ++ after) = before ++ tag :: more := by
      have member : tag ∈ tagsFrom none (pos + 1) skip rest := by simp [found]
      have behind := (bracket_behind_of_mem member).1
      refine ih found ?_
      rwa [show tag.stop - pos = tag.stop - (pos + 1) + 1 by omega, List.cons_append,
        List.getElem?_cons_succ] at single
    cases skip with
    | succ skip => exact goOn found
    | zero =>
      have member : tag ∈ tagsFrom none pos 0 (c :: rest) := by simp [found]
      cases here : Tag.at? pos (c :: rest) with
      | none =>
        have bracket := List.mem_of_mem_drop (bracket_behind_of_mem member).2
        have absent := @Tag.at?_append_of_absent _ _ after here bracket
        rw [tagsFrom_of_absent here] at found
        rw [List.cons_append] at absent ⊢
        rw [tagsFrom_of_absent absent]
        exact goOn found
      | some first =>
        rw [tagsFrom_of_found here] at found
        cases before with
        | nil =>
          obtain ⟨rfl, -⟩ := List.cons.inj found
          have kept := Tag.at?_append here (.inl single)
          rw [List.cons_append] at kept ⊢
          exact ⟨_, tagsFrom_of_found kept⟩
        | cons other before =>
          obtain ⟨rfl, behind⟩ := List.cons.inj found
          -- the tags behind this one have a `>` farther on than the one that may follow it
          have listed : tag ∈ tagsFrom none (pos + 1) (first.stop - (pos + 1)) rest := by
            rw [behind]
            simp
          have wide := (Tag.standsAt_of_at? here).lt_stop
          have bracket := (bracket_behind_of_mem listed).2
          rw [← @List.drop_succ_cons _ c,
            show first.stop - (pos + 1) + 1 + 1 = first.stop - pos + 1 by omega] at bracket
          have kept := @Tag.at?_append _ _ after _ here (.inr bracket)
          obtain ⟨more, same⟩ := goOn behind
          rw [List.cons_append] at kept ⊢
          exact ⟨more, by rw [tagsFrom_of_found kept, same]; rfl⟩

/-- **Longer texts.** If a tag of a text is not followed by a `>` when the text goes on, then it and
all tags before it are the first tags of the longer text. -/
theorem tags_stable (u v : Text) :
    ∀ before tag later, tags u = before ++ tag :: later → (u ++ v)[tag.stop]? ≠ some '>' →
      before ++ [tag] <+: tags (u ++ v) := by
  intro before tag later found single
  obtain ⟨more, same⟩ := exists_tagsFrom_append v found single
  refine ⟨more, ?_⟩
  rw [tags, same, List.append_assoc]
  rfl

/-- The first tag is backed off, and behind the second stands an opener that becomes a tag when the
text goes on. -/
theorem tags_stable_open :
    let u := "<x:1?a>>\n<x:2?b>c<x:3?".toList
    let v := "d>>|>".toList
    let first : Tag := ⟨['1'], some ['a'], none, 0, 7, "<x:1?a>".toList⟩
    let second : Tag := ⟨['2'], some ['b'], none, 9, 16, "<x:2?b>".toList⟩
    tags u = [first] ++ second :: [] ∧ (u ++ v)[second.stop]? ≠ some '>' ∧
      [first] ++ [second] <+: tags (u ++ v) := by
  intro u v first second
  have found : tags u = [first] ++ second :: [] := by decide
  have single : (u ++ v)[second.stop]? ≠ some '>' := by decide
  exact ⟨found, single, tags_stable u v [first] second [] found single⟩

end Waymark
