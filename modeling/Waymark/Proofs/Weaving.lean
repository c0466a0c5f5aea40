import Waymark.Proofs.Tag.Reading
import Waymark.Rendering

/-!
# Exchanging tags in two parts

The tags of a text stand in it one after another (`tagsFrom_between`). In a text that is cut where
no tag is cut they may therefore be exchanged in two parts, whatever exchanging them does besides
(`substitute_append`), and so it renders in two parts (`renderBy_append`).
-/

namespace Waymark

namespace Tag

/-- Tags one after another, none of them before `pos` or behind `stop`. -/
def Between (stop : Nat) : Nat → List Tag → Prop
  | pos, [] => pos ≤ stop
  | pos, tag :: later => pos ≤ tag.start ∧ tag.start < tag.stop ∧ Between stop tag.stop later

theorem Between.le {stop pos : Nat} {found : List Tag} (between : Between stop pos found) :
    pos ≤ stop := by
  induction found generalizing pos with
  | nil => exact between
  | cons tag later ih =>
    obtain ⟨before, wide, after⟩ := between
    have behind := ih after
    omega

theorem Between.earlier {stop pos first : Nat} {found : List Tag}
    (between : Between stop pos found) (before : first ≤ pos) : Between stop first found := by
  cases found with
  | nil => exact Nat.le_trans before between
  | cons tag later =>
    obtain ⟨start, rest⟩ := between
    exact ⟨Nat.le_trans before start, rest⟩

theorem Between.le_start {stop pos : Nat} {found : List Tag} (between : Between stop pos found)
    {tag : Tag} (member : tag ∈ found) : pos ≤ tag.start := by
  induction found generalizing pos with
  | nil => cases member
  | cons first later ih =>
    obtain ⟨before, wide, after⟩ := between
    rcases List.mem_cons.1 member with rfl | there
    · exact before
    · have behind := ih after there
      omega

end Tag

/-- The tags of a text stand in it, one after another. -/
theorem tagsFrom_between {pos skip : Nat} {s : Text} (fits : skip ≤ s.length) :
    Tag.Between (pos + s.length) (pos + skip) (tagsFrom none pos skip s) := by
  induction s generalizing pos skip with
  | nil =>
    rw [tagsFrom_nil]
    exact Nat.add_le_add_left fits pos
  | cons c rest ih =>
    rw [List.length_cons] at fits ⊢
    rw [show pos + (rest.length + 1) = pos + 1 + rest.length by omega]
    cases skip with
    | succ skip =>
      have inner := @ih (pos + 1) skip (by omega)
      rwa [Nat.add_assoc pos 1 skip, Nat.add_comm 1 skip] at inner
    | zero =>
      cases found : Tag.at? pos (c :: rest) with
      | none =>
        rw [tagsFrom_of_absent found]
        exact (@ih (pos + 1) 0 (Nat.zero_le _)).earlier (Nat.le_succ pos)
      | some tag =>
        have stands := Tag.standsAt_of_at? found
        have behind := stands.lt_stop
        have inside := stands.stop_le
        rw [List.length_cons] at inside
        have inner := @ih (pos + 1) (tag.stop - (pos + 1)) (by omega)
        rw [show pos + 1 + (tag.stop - (pos + 1)) = tag.stop by omega] at inner
        rw [tagsFrom_of_found found]
        refine ⟨?_, ?_, inner⟩
        · rw [stands.start_eq]
          exact Nat.le_refl _
        · rw [stands.start_eq]
          exact behind

theorem tags_between (s : Text) : Tag.Between s.length 0 (tags s) := by
  have between := @tagsFrom_between 0 0 s (Nat.zero_le _)
  rwa [Nat.zero_add] at between

/-! ## Weaving -/

/-- Literal text before the tags stays as it is. -/
theorem weave_literal {stop pos : Nat} {s after : Text} {found : List Tag}
    (behind : Tag.Between stop (pos + s.length) found) (shown : List Text) :
    weave pos (s ++ after) found shown = s ++ weave (pos + s.length) after found shown := by
  cases found with
  | nil => rfl
  | cons tag later =>
    cases shown with
    | nil => rfl
    | cons first shown =>
      obtain ⟨start, wide, -⟩ := behind
      have here : tag.start - pos = s.length + (tag.start - (pos + s.length)) := by omega
      have there : tag.stop - pos = s.length + (tag.stop - (pos + s.length)) := by omega
      rw [weave, weave, here, there, List.take_length_add_append, List.drop_length_add_append]
      simp only [List.append_assoc]

/-- A tag at the beginning is exchanged. -/
theorem weave_tag {pos : Nat} {s rest : Text} {tag : Tag} (start : tag.start = pos)
    (stop : tag.stop = pos + s.length) (later : List Tag) (shown : Text) (answers : List Text) :
    weave pos (s ++ rest) (tag :: later) (shown :: answers) =
      shown ++ weave tag.stop rest later answers := by
  rw [weave, start, stop, Nat.sub_self, Nat.add_sub_cancel_left, List.take_zero, List.drop_left]
  rfl

/-! ## Exchanging -/

/-- What is answered for a tag depends on what the tag holds, not on where it stands or how it is
written. -/
def ReadsContents {α : Type} (resolve : Tag → α) : Prop :=
  ∀ tag other : Tag, tag.identifier = other.identifier → tag.trueBranch = other.trueBranch →
    tag.falseBranch = other.falseBranch → resolve tag = resolve other

section Exchanging

variable {m : Type → Type} [Monad m] [LawfulMonad m] {resolve : Tag → m Text}

/-- Literal text before the tags stays as it is, and nothing is asked for it. -/
theorem splice_literal {stop pos : Nat} {s after : Text} {found : List Tag}
    (behind : Tag.Between stop (pos + s.length) found) :
    splice resolve pos (s ++ after) found = (do
      let back ← splice resolve (pos + s.length) after found
      pure (s ++ back)) := by
  cases found with
  | nil => simp [splice]
  | cons tag later =>
    obtain ⟨start, wide, -⟩ := behind
    have here : tag.start - pos = s.length + (tag.start - (pos + s.length)) := by omega
    have there : tag.stop - pos = s.length + (tag.stop - (pos + s.length)) := by omega
    rw [splice, splice, here, there, List.take_length_add_append, List.drop_length_add_append]
    simp only [bind_assoc, pure_bind, List.append_assoc]

/-- Tags of two texts, one after the other, are exchanged in the first text and then in the second.
-/
theorem splice_append {stop pos : Nat} {s after : Text} {found later : List Tag}
    (between : Tag.Between (pos + s.length) pos found)
    (behind : Tag.Between stop (pos + s.length) later) :
    splice resolve pos (s ++ after) (found ++ later) = (do
      let front ← splice resolve pos s found
      let back ← splice resolve (pos + s.length) after later
      pure (front ++ back)) := by
  induction found generalizing pos s with
  | nil =>
    rw [List.nil_append, splice_literal behind, splice, pure_bind]
  | cons tag found ih =>
    obtain ⟨start, wide, rest⟩ := between
    have inside := rest.le
    -- the induction goes on with the part of `s` behind the tag
    have length : tag.stop + (s.drop (tag.stop - pos)).length = pos + s.length := by
      rw [List.length_drop]
      omega
    rw [List.cons_append, splice, splice,
      List.take_append_of_le_length (by omega), List.drop_append_of_le_length (by omega)]
    rw [← length] at rest behind ⊢
    rw [ih rest behind]
    simp only [bind_assoc, pure_bind, List.append_assoc]

omit [LawfulMonad m] in
/-- Tags that were moved are exchanged as they were before. -/
theorem splice_shift (contents : ReadsContents resolve) (pos amount : Nat) (rest : Text)
    (found : List Tag) :
    splice resolve (pos + amount) rest (found.map (Tag.shift amount)) =
      splice resolve pos rest found := by
  induction found generalizing pos rest with
  | nil => rfl
  | cons tag found ih =>
    have same : resolve (tag.shift amount) = resolve tag := contents _ _ rfl rfl rfl
    rw [List.map_cons, splice, splice, same]
    show (do
      let shown ← resolve tag
      let after ← splice resolve (tag.stop + amount)
        (rest.drop (tag.stop + amount - (pos + amount))) (found.map (Tag.shift amount))
      pure (rest.take (tag.start + amount - (pos + amount)) ++ shown ++ after)) = _
    rw [Nat.add_sub_add_right, Nat.add_sub_add_right, ih]

/-- **Exchanging in two parts.** In a text that is cut where no tag is cut, the tags of the first
part are exchanged, and then those of the second part. -/
theorem substitute_append (contents : ReadsContents resolve) {s after : Text}
    (whole : ∀ tag ∈ tags (s ++ after), ¬ (tag.start < s.length ∧ s.length < tag.stop)) :
    substitute resolve (s ++ after) = (do
      let front ← substitute resolve s
      let back ← substitute resolve after
      pure (front ++ back)) := by
  have front : Tag.Between (0 + s.length) 0 (tags s) := tagsFrom_between (Nat.zero_le _)
  have back : Tag.Between (0 + s.length + after.length) (0 + s.length)
      ((tags after).map (Tag.shift s.length)) := by
    have inner := @tagsFrom_between (0 + s.length) 0 after (Nat.zero_le _)
    rwa [tagsFrom_shift] at inner
  rw [substitute, tags_append whole, splice_append front back, splice_shift contents]
  rfl

end Exchanging

/-! ## Rendering -/

/-- What stands for a tag depends on what the tag holds. -/
theorem readsContents_textFor (selects : Text → Bool) (options : Options) :
    ReadsContents fun tag => options.textFor (selects tag.identifier) tag := by
  intro tag other sameIdentifier sameTrue sameFalse
  simp only [Options.textFor, sameIdentifier, sameTrue, sameFalse]

/-- **Rendering in two parts.** A text that is cut where no tag is cut renders in two parts. -/
theorem renderBy_append (selects : Text → Bool) (options : Options) {s after : Text}
    (whole : ∀ tag ∈ tags (s ++ after), ¬ (tag.start < s.length ∧ s.length < tag.stop)) :
    renderBy selects options (s ++ after) =
      renderBy selects options s ++ renderBy selects options after :=
  congrArg Id.run (substitute_append (readsContents_textFor selects options) whole)

end Waymark
