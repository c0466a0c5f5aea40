import Waymark.Text.Lines
import Waymark.Proofs.Session.Asking
import Waymark.Proofs.Tag.Extent
import Waymark.Proofs.Weaving

/-!
# Line by line

A line break is in no tag, and so a text may be cut at each of its line breaks, whatever stands
before and behind it: its tags are the tags of its lines (`tags_lineBreak`), tags are exchanged line
by line (`substitute_lineBreak`), and a text renders to its rendered lines (`renderBy_lines`). At
any other character this fails for some texts (`tags_across`). Taken together: `lines_apart`.
-/

namespace Waymark

/-! ## Cutting at a line break -/

theorem Text.isLineBreak_iff {c : Char} : isLineBreak c = true ↔ c = '\n' ∨ c = '\r' := by
  simp [isLineBreak]

/-- No tag reaches from before a line break to behind it. -/
theorem not_covers_lineBreak {c : Char} (ends : Text.isLineBreak c = true) {a b : Text} {tag : Tag}
    (member : tag ∈ tags (a ++ c :: b)) : ¬ (tag.start ≤ a.length ∧ a.length < tag.stop) := by
  rintro ⟨after, before⟩
  have here := (Tag.covers_of_mem member).getElem?_raw after before
  rw [List.getElem?_append_right (Nat.le_refl _), Nat.sub_self] at here
  have inside : c ∈ tag.raw := List.mem_of_getElem? here
  rw [Tag.isLineBreak_of_mem_raw member c inside] at ends
  exact Bool.false_ne_true ends

/-- A line break by itself has no tag. -/
theorem tags_singleton (c : Char) : tags [c] = [] := by
  have absent : Tag.at? 0 [c] = none := by
    rw [Tag.at?, Head.read?]
    · intro rest h
      simp at h
    · intro rest h
      simp at h
  rw [tags, tagsFrom_of_absent absent, tagsFrom_nil]

section LineBreak

variable {c : Char} (ends : Text.isLineBreak c = true) (a b : Text)

include ends

/-- Before a line break the text may be cut. -/
theorem uncut_before {tag : Tag} (member : tag ∈ tags (a ++ c :: b)) :
    ¬ (tag.start < a.length ∧ a.length < tag.stop) := by
  rintro ⟨start, stop⟩
  exact not_covers_lineBreak ends member ⟨Nat.le_of_lt start, stop⟩

/-- Behind a line break the text may be cut. -/
theorem uncut_behind {tag : Tag} (member : tag ∈ tags ((a ++ [c]) ++ b)) :
    ¬ (tag.start < (a ++ [c]).length ∧ (a ++ [c]).length < tag.stop) := by
  rintro ⟨start, stop⟩
  rw [List.append_assoc] at member
  rw [List.length_append, List.length_singleton] at start stop
  exact not_covers_lineBreak ends member ⟨Nat.le_of_lt_succ start, by omega⟩

/-- **Tags line by line.** The tags of a text are those before a line break, and those behind it. -/
theorem tags_lineBreak :
    tags (a ++ c :: b) = tags a ++ (tags b).map (Tag.shift (a.length + 1)) := by
  have front : tags (a ++ [c]) = tags a := by
    rw [tags_append fun tag member => uncut_before ends a [] member, tags_singleton]
    exact List.append_nil _
  have split := tags_append fun tag member => uncut_behind ends a b member
  rw [front, List.length_append, List.append_assoc] at split
  exact split

/-- **Exchanging line by line.** The tags before a line break are exchanged, and then those behind
it. -/
theorem substitute_lineBreak {m : Type → Type} [Monad m] [LawfulMonad m] {resolve : Tag → m Text}
    (contents : ReadsContents resolve) :
    substitute resolve (a ++ c :: b) = (do
      let front ← substitute resolve a
      let back ← substitute resolve b
      pure (front ++ c :: back)) := by
  have front : substitute resolve (a ++ [c]) = (do
      let front ← substitute resolve a
      pure (front ++ [c])) := by
    rw [substitute_append contents fun tag member => uncut_before ends a [] member,
      substitute_of_tags_eq_nil resolve (tags_singleton c)]
    simp only [pure_bind]
  have split := substitute_append contents fun tag member => uncut_behind ends a b member
  rw [front, List.append_assoc] at split
  refine split.trans ?_
  simp only [bind_assoc, pure_bind, List.append_assoc, List.singleton_append]

theorem renderBy_lineBreak (selects : Text → Bool) (options : Options) :
    renderBy selects options (a ++ c :: b) =
      renderBy selects options a ++ c :: renderBy selects options b :=
  congrArg Id.run (substitute_lineBreak ends a b (readsContents_textFor selects options))

end LineBreak

/-- A text with a tag at its beginning has tags. -/
theorem tags_ne_nil_of_at? {s : Text} (found : Tag.at? 0 s ≠ none) : tags s ≠ [] := by
  cases s with
  | nil => exact absurd (Tag.at?_nil 0) found
  | cons c rest =>
    obtain ⟨tag, here⟩ := Option.ne_none_iff_exists'.1 found
    rw [tags, tagsFrom_of_found here]
    exact List.cons_ne_nil _ _

/-- **Across other characters.** At a character that is no line break a text cannot always be cut:
it may stand in the branch of a tag. -/
theorem tags_across {c : Char} (inner : Text.isLineBreak c = false) :
    tags (['<', 'x', ':', '1', '?'] ++ c :: ['>']) ≠ [] := by
  have front : Head.Front 'x' ['1'] := ⟨.inl rfl, by decide, List.forall_mem_singleton.2 rfl⟩
  have head : Head.read? (['<', 'x', ':', '1', '?'] ++ c :: ['>']) =
      some (.branched ['1'] [c, '>']) := front.read?_branched [c, '>']
  have reached : Text.reach [c, '>'] = 2 := @Text.reach_cons c ['>'] inner Nat.one_pos
  apply tags_ne_nil_of_at?
  rw [Tag.at?, head]
  show Option.map _ (Branches.ofText? [c, '>']) ≠ none
  rw [Ne, Option.map_eq_none_iff, Branches.ofText?_eq_none_iff, reached]
  exact Nat.succ_ne_zero 1

/-! ## Rendering the lines -/

/-- The line breaks of a text whose lines may be rendered apart stay between its lines. -/
theorem renderBy_text (selects : Text → Bool) (options : Options) {lines : Lines}
    (between : ∀ entry ∈ lines.later, Text.isLineBreak entry.1 = true) :
    renderBy selects options lines.text = (lines.map (renderBy selects options)).text := by
  obtain ⟨first, later⟩ := lines
  induction later generalizing first with
  | nil =>
    rw [Lines.text_nil]
    exact (Lines.text_nil _).symm
  | cons entry later ih =>
    obtain ⟨ending, line⟩ := entry
    have ends : Text.isLineBreak ending = true := between (ending, line) List.mem_cons_self
    have rest := ih line fun entry member => between entry (List.mem_cons_of_mem _ member)
    rw [Lines.text_cons, renderBy_lineBreak ends, rest]
    exact (Lines.text_cons _ _ _ _).symm

/-- **Rendering line by line.** A text renders to its rendered lines, with the line breaks as they
are. -/
theorem renderBy_lines (selects : Text → Bool) (options : Options) (s : Text) :
    renderBy selects options s = ((Text.lines s).map (renderBy selects options)).text := by
  have whole := renderBy_text selects options (Text.isLineBreak_of_mem_lines s).2
  rwa [Text.text_lines] at whole

theorem mem_of_mem_weave {pos : Nat} {rest : Text} {found : List Tag} {shown : List Text} {c : Char}
    (member : c ∈ weave pos rest found shown) : c ∈ rest ∨ ∃ answer ∈ shown, c ∈ answer := by
  induction found generalizing pos rest shown with
  | nil => exact .inl member
  | cons tag later ih =>
    cases shown with
    | nil => exact .inl member
    | cons first answers =>
      rw [weave, List.mem_append, List.mem_append] at member
      rcases member with (before | exchanged) | behind
      · exact .inl (List.mem_of_mem_take before)
      · exact .inr ⟨first, List.mem_cons_self, exchanged⟩
      · rcases ih behind with literal | ⟨answer, listed, inside⟩
        · exact .inl (List.mem_of_mem_drop literal)
        · exact .inr ⟨answer, List.mem_cons_of_mem first listed, inside⟩

/-- What stands for a tag is made of characters of the text and of the defaults. -/
theorem mem_of_mem_textFor {s : Text} {tag : Tag} (held : tag ∈ tags s) {selected : Bool}
    {options : Options} {c : Char} (member : c ∈ options.textFor selected tag) :
    c ∈ s ∨ c ∈ options.trueDefault ∨ c ∈ options.falseDefault := by
  unfold Options.textFor at member
  cases selected with
  | true =>
    rw [if_pos rfl] at member
    split at member
    · rename_i branch here
      have kept := (Text.halve_sublist '>' _).trans (Text.halve_sublist '|' branch)
      exact .inl (Tag.mem_of_mem_branch held (.inl here) c (kept.subset member))
    · exact .inr (.inl member)
  | false =>
    rw [if_neg Bool.false_ne_true] at member
    split at member
    · rename_i branch here
      have kept := Text.halve_sublist '>' branch
      exact .inl (Tag.mem_of_mem_branch held (.inr here) c (kept.subset member))
    · exact .inr (.inr member)

/-- A rendering makes no characters up. -/
theorem mem_of_mem_renderBy {selects : Text → Bool} {options : Options} {s : Text} {c : Char}
    (member : c ∈ renderBy selects options s) :
    c ∈ s ∨ c ∈ options.trueDefault ∨ c ∈ options.falseDefault := by
  rw [renderBy_eq_weave] at member
  rcases mem_of_mem_weave member with literal | ⟨answer, listed, inside⟩
  · exact .inl literal
  · obtain ⟨tag, held, rfl⟩ := List.mem_map.1 listed
    exact mem_of_mem_textFor held inside

/-- **Line breaks.** Unless there are line breaks in the defaults, a rendering has the line breaks
of its text, in their order. -/
theorem filter_isLineBreak_renderBy (selects : Text → Bool) {options : Options}
    (plain : ∀ c ∈ options.trueDefault ++ options.falseDefault, Text.isLineBreak c = false)
    (s : Text) :
    (renderBy selects options s).filter Text.isLineBreak = s.filter Text.isLineBreak := by
  obtain ⟨inner, between⟩ := Text.isLineBreak_of_mem_lines s
  have source := Lines.filter_text inner between
  rw [Text.text_lines] at source
  have rendered : ∀ line ∈ ((Text.lines s).map (renderBy selects options)).list,
      ∀ c ∈ line, Text.isLineBreak c = false := by
    intro shown listed c member
    obtain ⟨line, here, rfl⟩ :
        ∃ line ∈ (Text.lines s).list, renderBy selects options line = shown := by
      rwa [Lines.list_map, List.mem_map] at listed
    rcases mem_of_mem_renderBy member with literal | default
    · exact inner line here c literal
    · exact plain c (List.mem_append.2 default)
  have kept : ∀ entry ∈ ((Text.lines s).map (renderBy selects options)).later,
      Text.isLineBreak entry.1 = true := by
    intro entry member
    obtain ⟨before, here, rfl⟩ := List.mem_map.1 member
    exact between before here
  rw [renderBy_lines, Lines.filter_text rendered kept, source]
  exact List.map_map ..

/-! ## Lines apart -/

/-- **Lines apart.** Line feeds and carriage returns, and no other characters, are such that the
tags of any two texts with one of them in between are the tags of the first text and those of the
second one, moved. So whatever is answered for tags by what they hold, they are exchanged line by
line. With a criterion that always gives the same answer for an identifier a text renders to its
rendered lines with their line breaks, and these are the only ones unless there are some in the
defaults. -/
theorem lines_apart {κ σ : Type} [Rules κ σ] {m : Type → Type} [Monad m] [LawfulMonad m] :
    (∀ c : Char, (c = '\n' ∨ c = '\r') ↔
      ∀ a b : Text, tags (a ++ c :: b) = tags a ++ (tags b).map (Tag.shift (a.length + 1))) ∧
    (∀ resolve : Tag → m Text, ReadsContents resolve → ∀ c : Char, c = '\n' ∨ c = '\r' →
      ∀ a b : Text, substitute resolve (a ++ c :: b) = (do
        let front ← substitute resolve a
        let back ← substitute resolve b
        pure (front ++ c :: back))) ∧
    ∀ (options : Options) (criterion : Criterion κ) (selects : Text → Bool),
      criterion.Answers selects → ∀ s : Text,
        (Marker.mk s options criterion).Renders (renderBy selects options s) ∧
        renderBy selects options s = ((Text.lines s).map (renderBy selects options)).text ∧
        ((∀ c ∈ options.trueDefault ++ options.falseDefault, c ≠ '\n' ∧ c ≠ '\r') →
          (renderBy selects options s).filter (fun c => c = '\n' ∨ c = '\r') =
            s.filter fun c => c = '\n' ∨ c = '\r') := by
  refine ⟨?_, ?_, ?_⟩
  · intro c
    constructor
    · intro ends
      exact tags_lineBreak (Text.isLineBreak_iff.2 ends)
    · intro apart
      cases ends : Text.isLineBreak c with
      | true => exact Text.isLineBreak_iff.1 ends
      | false =>
        have parts : tags ['<', 'x', ':', '1', '?'] = [] ∧ tags ['>'] = [] := by decide
        have cut := apart ['<', 'x', ':', '1', '?'] ['>']
        rw [parts.1, parts.2] at cut
        exact absurd cut (tags_across ends)
  · intro resolve contents c ends a b
    exact substitute_lineBreak (Text.isLineBreak_iff.2 ends) a b contents
  · intro options criterion selects answers s
    refine ⟨Marker.renders_of_answers answers, renderBy_lines selects options s, ?_⟩
    intro plain
    have breaks : (fun c : Char => decide (c = '\n' ∨ c = '\r')) = Text.isLineBreak := by
      funext c
      rw [Bool.eq_iff_iff, decide_eq_true_iff, Text.isLineBreak_iff]
    rw [breaks]
    refine filter_isLineBreak_renderBy selects ?_ s
    intro c member
    rw [← Bool.not_eq_true, Text.isLineBreak_iff, not_or]
    exact plain c member

/-- The first line ends within a branch, and the second begins with what would have closed it. -/
theorem lines_apart_open_branch :
    let a := "<x:1?a>>b<x:2?".toList
    let b := ">c<x:3>".toList
    tags (a ++ '\r' :: b) = tags a ++ (tags b).map (Tag.shift 15) ∧
      substitute (m := Id) (fun tag => pure tag.identifier) (a ++ '\r' :: b) =
        "1>b<x:2?\r>c3".toList ∧
      (renderBy (['3'] == ·) {} (a ++ '\r' :: b)).filter (fun c => c = '\n' ∨ c = '\r') =
        ['\r'] := by
  intro a b
  have apart := @lines_apart Empty Unit _ Id _ _
  have contents : ReadsContents fun tag : Tag => (pure tag.identifier : Id Text) :=
    fun tag other same _ _ => congrArg pure same
  have rendered := apart.2.2 {} (.ident ['3']) _ (Criterion.answers_ident ['3']) (a ++ '\r' :: b)
  refine ⟨(apart.1 '\r').1 (.inr rfl) a b, ?_, ?_⟩
  · rw [apart.2.1 _ contents '\r' (.inr rfl) a b]
    rfl
  · rw [rendered.2.2 (by simp)]
    decide

end Waymark
