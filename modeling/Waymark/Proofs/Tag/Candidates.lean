import Waymark.Proofs.Resolving
import Waymark.Proofs.Session.Asking

/-!
# Where tags begin

A text has a candidate for a tag wherever an opener and digits are followed by a `>`, or by a `?`
with a `>` somewhere behind it on the same line. Whatever stands in between, the branches find a `>`
to end on, so at each candidate a tag can be read (`Tag.at?_isSome_iff`). The scan passes no
candidate by unless a tag that begins earlier covers it (`exists_covering`). Taken together:
`tags_candidates`.
-/

namespace Waymark

/-! ## Candidates -/

/-- A `>` is reached exactly if there is one with no line break before it. -/
theorem Text.reach_pos_iff {s : Text} :
    0 < reach s ↔ ∃ between after, (∀ c ∈ between, c ≠ '\n' ∧ c ≠ '\r') ∧
      s = between ++ '>' :: after := by
  have inner {c : Char} : isLineBreak c = false ↔ c ≠ '\n' ∧ c ≠ '\r' := by
    simp [isLineBreak]
  constructor
  · intro found
    induction s with
    | nil => exact absurd found (Nat.lt_irrefl 0)
    | cons c rest ih =>
      by_cases bracket : c = '>'
      · subst bracket
        exact ⟨[], rest, List.forall_mem_nil _, rfl⟩
      · cases ends : isLineBreak c with
        | true =>
          rw [reach_of_isLineBreak ends] at found
          exact absurd found (Nat.lt_irrefl 0)
        | false =>
          have reached : 0 < reach rest := by
            rw [reach_plain ends bracket] at found
            split at found
            · exact absurd found (Nat.lt_irrefl 0)
            · omega
          obtain ⟨between, after, plain, rfl⟩ := ih reached
          exact ⟨c :: between, after, List.forall_mem_cons.2 ⟨inner.1 ends, plain⟩, rfl⟩
  · rintro ⟨between, after, plain, rfl⟩
    have reached : 0 < reach ('>' :: after) := by
      rw [reach_bracket]
      omega
    rw [reach_append (fun c member => inner.2 (plain c member)) reached]
    omega

namespace Tag

/-- At the offset the text has an opener and digits, and behind them a `>`, or a `?` with a `>`
farther on and no line break up to that. As neither mark is a digit, these are all the digits. -/
inductive Candidate (s : Text) (offset : Nat) : Prop where
  | closed {letter : Char} {digits after : Text} : Head.Front letter digits →
      s.drop offset = '<' :: letter :: ':' :: (digits ++ '>' :: after) → Candidate s offset
  | branched {letter : Char} {digits between after : Text} : Head.Front letter digits →
      (∀ c ∈ between, c ≠ '\n' ∧ c ≠ '\r') →
      s.drop offset = '<' :: letter :: ':' :: (digits ++ '?' :: (between ++ '>' :: after)) →
      Candidate s offset

/-- **Candidates.** A tag can be read at each candidate, and nowhere else. -/
theorem at?_isSome_iff {s : Text} {pos offset : Nat} :
    (at? pos (s.drop offset)).isSome ↔ Candidate s offset := by
  constructor
  · intro found
    obtain ⟨tag, found⟩ := Option.isSome_iff_exists.1 found
    unfold at? at found
    split at found
    · simp at found
    · rename_i identifier head
      obtain ⟨letter, after, front, written⟩ := Head.front_of_closed head
      exact Candidate.closed front written
    · rename_i identifier body head
      obtain ⟨branches, read, -⟩ := Option.map_eq_some_iff.1 found
      obtain ⟨letter, front, written⟩ := Head.front_of_branched head
      have reached : 0 < Text.reach body := by
        apply Nat.pos_of_ne_zero
        intro unreached
        rw [Branches.ofText?_eq_none_iff.2 unreached] at read
        simp at read
      obtain ⟨between, after, plain, rfl⟩ := Text.reach_pos_iff.1 reached
      exact Candidate.branched front plain written
  · intro candidate
    cases candidate with
    | closed front written => simp [at?, written, front.read?_closed]
    | @branched letter digits between after front plain written =>
      have reached := Text.reach_pos_iff.2 ⟨between, after, plain, rfl⟩
      have read : Branches.ofText? (between ++ '>' :: after) ≠ none := by
        rw [Ne, Branches.ofText?_eq_none_iff]
        omega
      simpa [at?, written, front.read?_branched, Option.isSome_iff_ne_none] using read

end Tag

/-! ## The scan passes no candidate by -/

/-- Where a tag can be read, one is, or an earlier one reaches farther. -/
theorem exists_covering {pos skip : Nat} {s : Text} {offset : Nat} (behind : skip ≤ offset)
    (found : (Tag.at? (pos + offset) (s.drop offset)).isSome) :
    ∃ tag ∈ tagsFrom none pos skip s, tag.start ≤ pos + offset ∧ pos + offset < tag.stop := by
  induction s generalizing pos skip offset with
  | nil => simp at found
  | cons c rest ih =>
    -- behind the first character the induction goes on with the rest of the text
    have later {skip offset : Nat} (behind : skip ≤ offset)
        (found : (Tag.at? (pos + (offset + 1)) (rest.drop offset)).isSome) :
        ∃ tag ∈ tagsFrom none (pos + 1) skip rest,
          tag.start ≤ pos + (offset + 1) ∧ pos + (offset + 1) < tag.stop := by
      rw [Nat.add_comm offset, ← Nat.add_assoc] at found ⊢
      exact ih behind found
    cases skip with
    | succ skip =>
      obtain ⟨offset, rfl⟩ : ∃ inner, offset = inner + 1 := ⟨offset - 1, by omega⟩
      exact later (Nat.le_of_succ_le_succ behind) found
    | zero =>
      cases here : Tag.at? pos (c :: rest) with
      | none =>
        rw [tagsFrom_of_absent here]
        cases offset with
        | zero =>
          rw [Nat.add_zero, List.drop_zero, here] at found
          simp at found
        | succ offset => exact later (Nat.zero_le _) found
      | some tag =>
        have stands := Tag.standsAt_of_at? here
        have start := stands.start_eq
        rw [tagsFrom_of_found here]
        by_cases inside : pos + offset < tag.stop
        · exact ⟨tag, List.mem_cons_self, by omega, inside⟩
        · have wide := stands.lt_stop
          obtain ⟨offset, rfl⟩ : ∃ inner, offset = inner + 1 := ⟨offset - 1, by omega⟩
          obtain ⟨other, member, covers⟩ :=
            @later (tag.stop - (pos + 1)) offset (by omega) found
          exact ⟨other, List.mem_cons_of_mem tag member, covers⟩

theorem candidate_of_mem_tags {s : Text} {tag : Tag} (member : tag ∈ tags s) :
    Tag.Candidate s tag.start := by
  rw [← @Tag.at?_isSome_iff _ tag.start, Tag.at?_of_mem member]
  rfl

theorem exists_of_candidate {s : Text} {offset : Nat} (candidate : Tag.Candidate s offset) :
    ∃ tag ∈ tags s, tag.start ≤ offset ∧ offset < tag.stop := by
  have covered := @exists_covering 0 0 s offset (Nat.zero_le _) (Tag.at?_isSome_iff.2 candidate)
  rwa [Nat.zero_add] at covered

/-! ## Literal stretches -/

namespace Text

/-- Where the stretches between tags stand: before each tag, from `pos` or from where the tag before
it ends, and behind the last one. -/
def spansFrom (s : Text) : Nat → List Tag → List (Nat × Nat)
  | pos, [] => [(pos, s.length)]
  | pos, tag :: later => (pos, tag.start) :: spansFrom s tag.stop later

/-- Where the literal stretches of a text stand. -/
def spans (s : Text) : List (Nat × Nat) := spansFrom s 0 (tags s)

theorem map_slice_spansFrom (s : Text) (pos : Nat) (found : List Tag) :
    (spansFrom s pos found).map (fun span => s.slice span.1 span.2) =
      stretchesFrom s pos found := by
  induction found generalizing pos with
  | nil =>
    have whole : s.slice pos s.length = s.drop pos := by
      rw [slice, ← List.length_drop, List.take_length]
    simp [spansFrom, stretchesFrom, whole]
  | cons tag later ih => simp [spansFrom, stretchesFrom, ih]

/-- No tag reaches into a stretch between the tags. -/
theorem apart_of_mem_spansFrom {s : Text} {stop pos : Nat} {found : List Tag}
    (between : Tag.Between stop pos found) {span : Nat × Nat} (member : span ∈ spansFrom s pos found)
    {offset : Nat} (after : span.1 ≤ offset) (before : offset < span.2) :
    pos ≤ offset ∧ ∀ tag ∈ found, offset < tag.start ∨ tag.stop ≤ offset := by
  induction found generalizing pos with
  | nil =>
    obtain rfl := List.mem_singleton.1 member
    exact ⟨after, nofun⟩
  | cons tag later ih =>
    obtain ⟨start, wide, rest⟩ := between
    rcases List.mem_cons.1 member with rfl | there
    · refine ⟨after, List.forall_mem_cons.2 ⟨.inl before, ?_⟩⟩
      intro other listed
      have behind := rest.le_start listed
      exact .inl (Nat.lt_of_lt_of_le before (by omega))
    · obtain ⟨behind, apart⟩ := ih rest there
      exact ⟨by omega, List.forall_mem_cons.2 ⟨.inr behind, apart⟩⟩

end Text

/-- To exchange tags is to put the answers between the literal stretches. -/
theorem substitute_eq_interleave (answer : Tag → Text) (s : Text) :
    substitute (m := Id) (fun tag => pure (answer tag)) s =
      Text.interleave (s.spans.map fun span => s.slice span.1 span.2) ((tags s).map answer) := by
  have woven := @weave_eq_interleave s _ 0 _ _ (tags_between s) (List.length_map answer).symm
  rw [List.drop_zero, ← Text.map_slice_spansFrom] at woven
  rw [substitute_eq_weave, List.mapM_pure]
  exact woven

theorem not_candidate_of_literal {s : Text} {span : Nat × Nat} (member : span ∈ s.spans)
    {offset : Nat} (after : span.1 ≤ offset) (before : offset < span.2) :
    ¬ Tag.Candidate s offset := by
  intro candidate
  obtain ⟨tag, listed, start, stop⟩ := exists_of_candidate candidate
  have apart := (Text.apart_of_mem_spansFrom (tags_between s) member after before).2
  rcases apart tag listed with ahead | behind
  · omega
  · omega

/-- A marker without tags renders to its text, whatever its criterion does. -/
theorem Marker.renders_of_tags_eq_nil {κ σ : Type} [Rules κ σ] {marker : Marker κ}
    (none : marker.tags = []) : marker.Renders marker.source := by
  intro session
  rw [render_eq, none]
  rfl

/-- **Candidates and tags.** Each tag begins at a candidate, and each candidate is where a tag
begins or is inside a tag that begins before it. So there is no candidate in the stretches that are
left as they are when tags are exchanged, and a text without candidates has no tags and renders to
itself with every criterion and all options. -/
theorem tags_candidates {κ σ : Type} [Rules κ σ] (s : Text) :
    (∀ tag ∈ tags s, Tag.Candidate s tag.start) ∧
    (∀ offset, Tag.Candidate s offset →
      ∃ tag ∈ tags s, tag.start = offset ∨ tag.start < offset ∧ offset < tag.stop) ∧
    ((∀ answer : Tag → Text, substitute (m := Id) (fun tag => pure (answer tag)) s =
        Text.interleave (s.spans.map fun span => s.slice span.1 span.2) ((tags s).map answer)) ∧
      ∀ span ∈ s.spans, ∀ offset, span.1 ≤ offset → offset < span.2 → ¬ Tag.Candidate s offset) ∧
    ((∀ offset, ¬ Tag.Candidate s offset) →
      tags s = [] ∧ ∀ (options : Options) (criterion : Criterion κ),
        (Marker.mk s options criterion).Renders s) := by
  refine ⟨fun tag => candidate_of_mem_tags, ?_, ⟨fun answer => substitute_eq_interleave answer s, ?_⟩,
    ?_⟩
  · intro offset candidate
    obtain ⟨tag, member, start, stop⟩ := exists_of_candidate candidate
    rcases Nat.eq_or_lt_of_le start with same | earlier
    · exact ⟨tag, member, .inl same⟩
    · exact ⟨tag, member, .inr ⟨earlier, stop⟩⟩
  · intro span member offset after before
    exact not_candidate_of_literal member after before
  · intro without
    have none : tags s = [] := by
      rw [List.eq_nil_iff_forall_not_mem]
      intro tag member
      exact without tag.start (candidate_of_mem_tags member)
    exact ⟨none, fun options criterion => Marker.renders_of_tags_eq_nil none⟩

/-- A candidate inside the branch of a tag, an opener whose `>` is on the next line, and a text that
has nothing but such an opener. -/
theorem tags_candidates_nested :
    let s := "<x:1?<x:2>>> <x:3?a\n>".toList
    let plain : Text := "<x:3?a\n>".toList
    (∃ tag ∈ tags s, tag.start = 5 ∨ tag.start < 5 ∧ 5 < tag.stop) ∧
      (∀ tag ∈ tags s, Tag.Candidate s tag.start) ∧ ¬ Tag.Candidate s 13 ∧
      (∀ offset, ¬ Tag.Candidate plain offset) ∧ tags plain = [] ∧
      (Marker.mk plain {} (.all : Criterion Empty)).Renders plain := by
  intro s plain
  have known := @tags_candidates Empty Unit _ s
  have front : Head.Front 'x' ['2'] := ⟨.inl rfl, by simp, by simp⟩
  have inner : Tag.Candidate s 5 := .closed front rfl
  have literal : (12, 21) ∈ Text.spans s := by decide
  have without : ∀ offset, ¬ Tag.Candidate plain offset := by
    intro offset
    rw [← @Tag.at?_isSome_iff plain 0]
    rcases Nat.lt_or_ge offset 8 with inside | beyond
    · revert offset
      decide
    · rw [List.drop_of_length_le beyond]
      exact Bool.false_ne_true
  obtain ⟨none, renders⟩ := (@tags_candidates Empty Unit _ plain).2.2.2 without
  exact ⟨known.2.1 5 inner, known.1, known.2.2.1.2 _ literal 13 (by decide) (by decide), without,
    none, renders {} .all⟩

end Waymark
