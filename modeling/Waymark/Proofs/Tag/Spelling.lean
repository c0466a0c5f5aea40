import Waymark.Document
import Waymark.Proofs.Tag.Extent
import Waymark.Proofs.Weaving
import Waymark.Text.Runs

/-!
# How tags are spelled

Reading a branch takes whole units off the text, and what it gives back when it backs off is a whole
unit, too. So each branch is the escaped form of some text (`Branches.trueText_escaped`,
`Branches.falseText_escaped`), and between the branches stand the separator and the closing `>` and
nothing else (`Branches.EndIn.take_eq`). This tells how the raw text of a tag is made up of what the
tag holds (`Tag.Spelled`). Together with where the tags stand: `tags_lossless`.
-/

namespace Waymark

/-! ## What is cut off for the branches -/

namespace Branches

/-- A false branch ends behind a whole unit. -/
theorem closer?_escaped {s : Text} {offset : Nat} (closes : closer? s = some offset) :
    ∃ text, s.take offset = Text.escapeFalse text := by
  fun_induction closer? s generalizing offset with
  | case1 rest ih =>
    obtain rfl := Option.some.inj closes
    cases found : closer? rest with
    | none => exact ⟨[], rfl⟩
    | some inner =>
      obtain ⟨text, cut⟩ := ih found
      refine ⟨'>' :: text, ?_⟩
      rw [Option.elim_some, Nat.add_comm, Text.escapeFalse_bracket, ← cut]
      rfl
  | case2 rest single =>
    obtain rfl := Option.some.inj closes
    exact ⟨[], rfl⟩
  | case3 c rest _ _ ends => simp at closes
  | case4 c rest _ bracket inner ih =>
    have other : c ≠ '>' := fun h => bracket h
    obtain ⟨offset, found, rfl⟩ := Option.map_eq_some_iff.1 closes
    obtain ⟨text, cut⟩ := ih found
    refine ⟨c :: text, ?_⟩
    rw [Nat.add_comm, Text.escapeFalse_plain other, ← cut]
    rfl
  | case5 => simp at closes

/-- What stands in front of the text that is read belongs to the true branch. -/
theorem trueText_shift (branches : Branches) (front rest : Text) :
    (branches.shift front.length).trueText (front ++ rest) = front ++ branches.trueText rest := by
  show (front ++ rest).take (front.length + branches.trueStop) = front ++ rest.take branches.trueStop
  exact List.take_length_add_append branches.trueStop

/-- A true branch is an escaped text. -/
theorem trueText_escaped {s : Text} {branches : Branches} (found : ofText? s = some branches) :
    ∃ text, branches.trueText s = Text.escapeTrue text := by
  fun_induction ofText? s generalizing branches with
  | case1 rest ih =>
    obtain ⟨inner, read, rfl⟩ := Option.map_eq_some_iff.1 found
    obtain ⟨text, cut⟩ := ih read
    refine ⟨'|' :: text, ?_⟩
    rw [Text.escapeTrue_bar, ← cut]
    exact inner.trueText_shift ['|', '|'] rest
  | case2 rest ih =>
    obtain rfl := Option.some.inj found
    cases read : ofText? rest with
    | none => exact ⟨[], rfl⟩
    | some inner =>
      obtain ⟨text, cut⟩ := ih read
      refine ⟨'>' :: text, ?_⟩
      rw [Text.escapeTrue_bracket, ← cut]
      exact inner.trueText_shift ['>', '>'] rest
  | case3 rest single =>
    obtain ⟨offset, closes, rfl⟩ := Option.map_eq_some_iff.1 found
    exact ⟨[], rfl⟩
  | case4 rest single =>
    obtain rfl := Option.some.inj found
    exact ⟨[], rfl⟩
  | case5 c rest _ _ _ _ ends => simp at found
  | case6 c rest _ _ separator bracket inner ih =>
    have hs : c ≠ '|' := fun h => separator h
    have hb : c ≠ '>' := fun h => bracket h
    obtain ⟨inner, read, rfl⟩ := Option.map_eq_some_iff.1 found
    obtain ⟨text, cut⟩ := ih read
    refine ⟨c :: text, ?_⟩
    rw [Text.escapeTrue_plain hs hb, ← cut]
    exact inner.trueText_shift [c] rest
  | case7 => simp at found

/-- A false branch is an escaped text. -/
theorem falseText_escaped {s : Text} {branches : Branches} (found : ofText? s = some branches) :
    ∃ text, branches.falseText s = Text.escapeFalse text := by
  cases endIn_of_ofText? found with
  | @separated trueStop offset bar closes =>
    rw [falseText, Nat.add_sub_cancel_left]
    exact closer?_escaped closes
  | single bracket =>
    rw [falseText, Nat.sub_self]
    exact ⟨[], rfl⟩

/-- What is read of a text are the branches, with a `|` between them if there are two, and the `>`
that ends the tag. -/
theorem EndIn.take_eq {s : Text} {branches : Branches} (ends : EndIn s branches) :
    s.take (branches.bracket + 1) =
        branches.trueText s ++ '|' :: (branches.falseText s ++ ['>']) ∨
      s.take (branches.bracket + 1) = branches.trueText s ++ ['>'] ∧
        branches.falseText s = [] := by
  cases ends with
  | @separated trueStop offset bar closes =>
    have bracket := getElem?_of_closer? closes
    have first : s.take (trueStop + 1) = s.take trueStop ++ ['|'] := by
      rw [List.take_add_one, bar]
      rfl
    have second : (s.drop (trueStop + 1)).take (offset + 1) =
        (s.drop (trueStop + 1)).take offset ++ ['>'] := by
      rw [List.take_add_one, bracket]
      rfl
    refine .inl ?_
    show s.take (trueStop + 1 + offset + 1) = s.take trueStop ++
      '|' :: ((s.drop (trueStop + 1)).take (trueStop + 1 + offset - (trueStop + 1)) ++ ['>'])
    rw [Nat.add_assoc, List.take_add, first, second, Nat.add_sub_cancel_left, List.append_assoc]
    rfl
  | @single trueStop bracket =>
    refine .inr ⟨?_, ?_⟩
    · show s.take (trueStop + 1) = s.take trueStop ++ ['>']
      rw [List.take_add_one, bracket]
      rfl
    · rw [falseText, Nat.sub_self]
      rfl

end Branches

/-! ## The spelling of a tag -/

namespace Tag

/-- The true branch as it is written; nothing is written for an absent one. -/
def trueWritten (tag : Tag) : Text := tag.trueBranch.getD []

/-- The false branch as it is written; nothing is written for an absent one. -/
def falseWritten (tag : Tag) : Text := tag.falseBranch.getD []

/-- What may stand behind the identifier of a tag. -/
inductive Ending (tag : Tag) : Text → Prop where
  | closed : tag.trueBranch = none → tag.falseBranch = none → Ending tag ['>']
  | single : tag.falseBranch = none → Ending tag ('?' :: (tag.trueWritten ++ ['>']))
  | double : Ending tag ('?' :: (tag.trueWritten ++ '|' :: (tag.falseWritten ++ ['>'])))

/-- How a tag is spelled. Its raw text is an opener of three characters, the identifier, and an
ending; in the branches there is no line break, and the delimiters are in pairs. -/
structure Spelled (tag : Tag) : Prop where
  nonempty : tag.identifier ≠ []
  digits : ∀ c ∈ tag.identifier, c.isDigit
  raw_eq : ∃ letter ending, (letter = 'x' ∨ letter = 'X') ∧ tag.Ending ending ∧
    tag.raw = ['<', letter, ':'] ++ tag.identifier ++ ending
  trueBranch_ne : tag.trueBranch ≠ some []
  falseBranch_ne : tag.falseBranch ≠ some []
  trueBars : Text.EvenRuns '|' tag.trueWritten
  trueBrackets : Text.EvenRuns '>' tag.trueWritten
  falseBrackets : Text.EvenRuns '>' tag.falseWritten
  oneLine : ∀ c ∈ tag.trueWritten ++ tag.falseWritten, c ≠ '\n' ∧ c ≠ '\r'

theorem getD_branch? (written : Text) : (branch? written).getD [] = written := by
  cases written <;> rfl

theorem trueWritten_ofBranches (pos : Nat) (s identifier body : Text) (branches : Branches) :
    (ofBranches pos s identifier body branches).trueWritten = branches.trueText body :=
  getD_branch? _

theorem falseWritten_ofBranches (pos : Nat) (s identifier body : Text) (branches : Branches) :
    (ofBranches pos s identifier body branches).falseWritten = branches.falseText body :=
  getD_branch? _

/-- What is read behind the `?` is an ending. -/
theorem ending_ofBranches {body : Text} {branches : Branches} (ends : branches.EndIn body)
    (pos : Nat) (s identifier : Text) :
    (ofBranches pos s identifier body branches).Ending
      ('?' :: body.take (branches.bracket + 1)) := by
  rcases ends.take_eq with written | ⟨written, absent⟩
  · rw [written, ← trueWritten_ofBranches pos s identifier,
      ← falseWritten_ofBranches pos s identifier]
    exact Ending.double
  · have without : (ofBranches pos s identifier body branches).falseBranch = none := by
      show branch? (branches.falseText body) = none
      rw [absent]
      rfl
    rw [written, ← trueWritten_ofBranches pos s identifier]
    exact Ending.single without

/-- The branches stand on the line that is read. -/
theorem mem_take_of_mem_branches {body : Text} {branches : Branches} (ends : branches.EndIn body)
    {c : Char} (member : c ∈ branches.trueText body ++ branches.falseText body) :
    c ∈ body.take (branches.bracket + 1) := by
  rcases ends.take_eq with written | ⟨written, absent⟩
  · rw [written]
    rcases List.mem_append.1 member with first | second
    · exact List.mem_append_left _ first
    · exact List.mem_append_right _ (List.mem_cons_of_mem _ (List.mem_append_left _ second))
  · rw [absent, List.append_nil] at member
    rw [written]
    exact List.mem_append_left _ member

theorem spelled_ofClosed {letter : Char} {identifier : Text} (front : Head.Front letter identifier)
    (pos : Nat) (after : Text) :
    (ofClosed pos ('<' :: letter :: ':' :: (identifier ++ '>' :: after)) identifier).Spelled where
  nonempty := front.nonempty
  digits := front.digits
  raw_eq := ⟨letter, ['>'], front.opener, .closed rfl rfl, raw_ofClosed pos letter identifier after⟩
  trueBranch_ne := nofun
  falseBranch_ne := nofun
  trueBars := Text.evenRuns_nil '|'
  trueBrackets := Text.evenRuns_nil '>'
  falseBrackets := Text.evenRuns_nil '>'
  oneLine := nofun

theorem spelled_ofBranches {letter : Char} {identifier body : Text} {branches : Branches}
    (front : Head.Front letter identifier) (read : Branches.ofText? body = some branches)
    (pos : Nat) :
    (ofBranches pos ('<' :: letter :: ':' :: (identifier ++ '?' :: body)) identifier body
      branches).Spelled := by
  have ends := Branches.endIn_of_ofText? read
  obtain ⟨trueText, trueEq⟩ := Branches.trueText_escaped read
  obtain ⟨falseText, falseEq⟩ := Branches.falseText_escaped read
  have evenTrue := Text.evenRuns_escapeTrue trueText
  have evenFalse := Text.evenRuns_escapeFalse falseText
  rw [← trueEq] at evenTrue
  rw [← falseEq] at evenFalse
  refine ⟨front.nonempty, front.digits, ?_, branch?_ne_some_nil _, branch?_ne_some_nil _, ?_, ?_, ?_,
    ?_⟩
  · refine ⟨letter, _, front.opener, ending_ofBranches ends pos _ identifier, ?_⟩
    rw [raw_ofBranches]
    simp [ofBranches]
  · rw [trueWritten_ofBranches]
    exact evenTrue.1
  · rw [trueWritten_ofBranches]
    exact evenTrue.2
  · rw [falseWritten_ofBranches]
    exact evenFalse
  · intro c member
    rw [trueWritten_ofBranches, falseWritten_ofBranches] at member
    have inner := Branches.isLineBreak_of_mem_take read (mem_take_of_mem_branches ends member)
    simpa [Text.isLineBreak] using inner

theorem spelled_of_at? {pos : Nat} {s : Text} {tag : Tag} (found : at? pos s = some tag) :
    tag.Spelled := by
  unfold at? at found
  split at found
  · simp at found
  · rename_i identifier head
    obtain rfl := Option.some.inj found
    obtain ⟨letter, after, front, rfl⟩ := Head.front_of_closed head
    exact spelled_ofClosed front pos after
  · rename_i identifier body head
    obtain ⟨branches, read, rfl⟩ := Option.map_eq_some_iff.1 found
    obtain ⟨letter, front, rfl⟩ := Head.front_of_branched head
    exact spelled_ofBranches front read pos

end Tag

/-- **Nothing is lost.** The tags of a text stand in it one after another, without overlap and up to
its end at most; the raw text of each is the stretch of the text that it covers, and it is spelled
out of the opener, the identifier and the branches that the tag holds, with nothing left over. -/
theorem tags_lossless (s : Text) :
    Tag.Between s.length 0 (tags s) ∧
      ∀ tag ∈ tags s,
        tag.raw = (s.drop tag.start).take (tag.stop - tag.start) ∧ tag.Spelled := by
  refine ⟨tags_between s, ?_⟩
  intro tag member
  refine ⟨(Tag.covers_of_mem member).raw_eq, ?_⟩
  obtain ⟨before, rest, -, found⟩ := exists_of_mem_tagsFrom member
  exact Tag.spelled_of_at? found

/-- A tag whose branches are full of delimiters, and which is backed off from the last pair of its
line. -/
theorem tags_lossless_backed_off :
    let s := "<x:1>a<X:07?b||>>|>>c|>>\n".toList
    let tag : Tag :=
      ⟨['0', '7'], some "b||>>".toList, some ">>c|".toList, 6, 23, "<X:07?b||>>|>>c|>".toList⟩
    Tag.Between s.length 0 (tags s) ∧ tag ∈ tags s ∧
      tag.raw = (s.drop tag.start).take (tag.stop - tag.start) ∧ tag.Spelled := by
  intro s tag
  have member : tag ∈ tags s := by decide
  exact ⟨(tags_lossless s).1, member, (tags_lossless s).2 tag member⟩

end Waymark
