import Waymark.Proofs.Action
import Waymark.Proofs.Tag.Extent
import Waymark.Proofs.Weaving

/-!
# What a resolver is asked

A resolver keeps a state and may fail. To exchange the tags of a text it is called on each of them,
from left to right, until it fails, and on nothing else (`Answered.run_substitute`,
`Answered.run_substitute_error`). What comes of it are the literal stretches of the text with the
answers between them (`weave_eq_interleave`). Taken together: `substitute_calls`.
-/

namespace Waymark

/-! ## Literal stretches -/

namespace Text

/-- The part of a text from one offset up to another. -/
def slice (s : Text) (start stop : Nat) : Text := (s.drop start).take (stop - start)

/-- The stretches of a text between tags: before each tag, from `pos` or from where the tag before
it ends, and behind the last one. -/
def stretchesFrom (s : Text) : Nat → List Tag → List Text
  | pos, [] => [s.drop pos]
  | pos, tag :: later => s.slice pos tag.start :: stretchesFrom s tag.stop later

/-- The literal stretches of a text. -/
def stretches (s : Text) : List Text := stretchesFrom s 0 (tags s)

/-- Texts with answers between them. -/
def interleave (literal answers : List Text) : Text :=
  (List.zipWith (· ++ ·) literal (answers ++ [[]])).flatten

end Text

/-- To weave answers into a text is to put them between its stretches. -/
theorem weave_eq_interleave {s : Text} {stop pos : Nat} {found : List Tag} {answers : List Text}
    (between : Tag.Between stop pos found) (same : found.length = answers.length) :
    weave pos (s.drop pos) found answers =
      Text.interleave (Text.stretchesFrom s pos found) answers := by
  induction found generalizing pos answers with
  | nil =>
    obtain rfl := List.eq_nil_of_length_eq_zero same.symm
    simp [weave, Text.interleave, Text.stretchesFrom]
  | cons tag later ih =>
    obtain ⟨shown, answers, rfl⟩ := List.exists_cons_of_length_eq_add_one same.symm
    obtain ⟨start, wide, rest⟩ := between
    have behind : (s.drop pos).drop (tag.stop - pos) = s.drop tag.stop := by
      rw [List.drop_drop]
      congr 1
      omega
    rw [weave, behind, ih rest (Nat.succ.inj same)]
    rfl

/-- The raw texts between the stretches of a text make up the text. -/
theorem weave_raw {s : Text} {stop pos : Nat} {found : List Tag}
    (between : Tag.Between stop pos found) (covers : ∀ tag ∈ found, Tag.Covers s tag) :
    weave pos (s.drop pos) found (found.map Tag.raw) = s.drop pos := by
  induction found generalizing pos with
  | nil => rfl
  | cons tag later ih =>
    obtain ⟨start, wide, rest⟩ := between
    have behind : (s.drop pos).drop (tag.stop - pos) = s.drop tag.stop := by
      rw [List.drop_drop]
      congr 1
      omega
    have raw : tag.raw = ((s.drop pos).drop (tag.start - pos)).take (tag.stop - tag.start) := by
      rw [(covers tag List.mem_cons_self).raw_eq, List.drop_drop]
      congr 2
      omega
    have cut : (s.drop pos).drop (tag.start - pos) =
        tag.raw ++ (s.drop pos).drop (tag.stop - pos) := by
      rw [raw, show tag.stop - pos = (tag.start - pos) + (tag.stop - tag.start) by omega,
        ← List.drop_drop, List.take_append_drop]
    rw [List.map_cons, weave, behind, ih rest fun other member =>
      covers other (List.mem_cons_of_mem tag member), ← behind, List.append_assoc, ← cut,
      List.take_append_drop]

/-! ## Calls -/

/-- What answers a tag, keeps a state of type `τ`, and may fail. -/
abbrev Resolver (ε τ : Type) := Tag → ExceptT ε (StateM τ) Text

variable {ε τ : Type} {resolve : Resolver ε τ}

/-- Tags were answered one after another, each call in the state that the one before it left. -/
inductive Answered (resolve : Resolver ε τ) : τ → List Tag → List Text → τ → Prop where
  | nil (state : τ) : Answered resolve state [] [] state
  | cons {state middle last : τ} {tag : Tag} {later : List Tag} {shown : Text}
      {answers : List Text} : (resolve tag).run state = (.ok shown, middle) →
      Answered resolve middle later answers last →
      Answered resolve state (tag :: later) (shown :: answers) last

/-- The resolver, and beside its state the tags that it was called on, in their order. The call is
recorded also if it fails. -/
def recorded (resolve : Resolver ε τ) : Resolver ε (τ × List Tag) := fun tag =>
  ExceptT.mk fun (state, called) =>
    let (outcome, after) := (resolve tag).run state
    (outcome, after, called ++ [tag])

theorem run_recorded (tag : Tag) (state : τ) (called : List Tag) :
    (recorded resolve tag).run (state, called) =
      (((resolve tag).run state).1, ((resolve tag).run state).2, called ++ [tag]) := rfl

namespace Answered

theorem length_eq {state last : τ} {found : List Tag} {answers : List Text}
    (answered : Answered resolve state found answers last) : found.length = answers.length := by
  induction answered with
  | nil => rfl
  | cons _ _ ih => exact congrArg Nat.succ ih

/-- Tags that are all answered are asked for one after another. -/
theorem run_mapM {state last : τ} {found : List Tag} {answers : List Text}
    (answered : Answered resolve state found answers last) :
    (found.mapM resolve).run state = (.ok answers, last) := by
  induction answered with
  | nil => rfl
  | cons call _ ih =>
    rw [List.mapM_cons, Action.run_bind_ok call, Action.run_bind_ok ih]
    rfl

/-- At the first tag that is not answered the calls end. -/
theorem run_mapM_error {state middle last : τ} {before : List Tag} {answers : List Text}
    (answered : Answered resolve state before answers middle) {tag : Tag} {fault : ε}
    (failed : (resolve tag).run middle = (.error fault, last)) (after : List Tag) :
    ((before ++ tag :: after).mapM resolve).run state = (.error fault, last) := by
  induction answered with
  | nil =>
    rw [List.nil_append, List.mapM_cons]
    exact Action.run_bind_error failed _
  | cons call _ ih =>
    rw [List.cons_append, List.mapM_cons, Action.run_bind_ok call]
    exact Action.run_bind_error (ih failed) _

/-- The record tells which tags were answered, and changes nothing else. -/
theorem record {state last : τ} {found : List Tag} {answers : List Text}
    (answered : Answered resolve state found answers last) (called : List Tag) :
    Answered (recorded resolve) (state, called) found answers (last, called ++ found) := by
  induction answered generalizing called with
  | nil =>
    rw [List.append_nil]
    exact Answered.nil _
  | @cons state middle last tag later shown answers call _ ih =>
    have recordedCall : (recorded resolve tag).run (state, called) =
        (.ok shown, middle, called ++ [tag]) := by
      rw [run_recorded, call]
    have rest := ih (called ++ [tag])
    rw [List.append_assoc] at rest
    exact Answered.cons recordedCall rest

/-- Either all tags are answered, or there is a first one that is not. -/
theorem of_run (resolve : Resolver ε τ) (found : List Tag) (state : τ) :
    (∃ answers last, Answered resolve state found answers last) ∨
      ∃ before tag after answers middle fault last, found = before ++ tag :: after ∧
        Answered resolve state before answers middle ∧
        (resolve tag).run middle = (.error fault, last) := by
  induction found generalizing state with
  | nil => exact .inl ⟨[], state, Answered.nil state⟩
  | cons tag later ih =>
    rcases call : (resolve tag).run state with ⟨fault | shown, middle⟩
    · exact .inr ⟨[], tag, later, [], state, fault, middle, rfl, Answered.nil state, call⟩
    · rcases ih middle with ⟨answers, last, answered⟩ |
        ⟨before, next, after, answers, stopped, fault, last, rfl, answered, failed⟩
      · exact .inl ⟨shown :: answers, last, Answered.cons call answered⟩
      · exact .inr ⟨tag :: before, next, after, shown :: answers, stopped, fault, last, rfl,
          Answered.cons call answered, failed⟩

/-- If all tags are answered, the answers stand between the stretches of the text. -/
theorem run_substitute {s : Text} {state last : τ} {answers : List Text}
    (answered : Answered resolve state (tags s) answers last) :
    (substitute resolve s).run state = (.ok (Text.interleave s.stretches answers), last) := by
  rw [substitute_eq_weave, Action.run_bind_ok answered.run_mapM, Action.run_pure]
  have woven := @weave_eq_interleave s _ 0 _ _ (tags_between s) answered.length_eq
  rw [List.drop_zero] at woven
  rw [woven]
  rfl

/-- If a tag is not answered, nothing comes of it. -/
theorem run_substitute_error {s : Text} {state middle last : τ} {before after : List Tag}
    {answers : List Text} {tag : Tag} {fault : ε} (found : tags s = before ++ tag :: after)
    (answered : Answered resolve state before answers middle)
    (failed : (resolve tag).run middle = (.error fault, last)) :
    (substitute resolve s).run state = (.error fault, last) := by
  have stopped := answered.run_mapM_error failed after
  rw [← found] at stopped
  rw [substitute_eq_weave]
  exact Action.run_bind_error stopped _

end Answered

/-! ## Exchanging with calls -/

/-- A resolver that answers each tag with its raw text gives back the text. -/
theorem Answered.eq_raw {state last : τ} {found : List Tag} {answers : List Text}
    (answered : Answered resolve state found answers last)
    (raw : ∀ tag ∈ found, ∀ state, ((resolve tag).run state).1 = .ok tag.raw) :
    answers = found.map Tag.raw := by
  induction answered with
  | nil => rfl
  | @cons state middle last tag later shown answers call _ ih =>
    have same := raw tag List.mem_cons_self state
    rw [call] at same
    rw [Except.ok.inj same, ih fun other member => raw other (List.mem_cons_of_mem tag member)]
    rfl

theorem interleave_raw (s : Text) : Text.interleave s.stretches ((tags s).map Tag.raw) = s := by
  have whole := weave_raw (tags_between s) fun tag member => Tag.covers_of_mem member
  rw [weave_eq_interleave (tags_between s) (List.length_map _).symm] at whole
  exact whole

/-- **Calls.** To exchange the tags of a text is to call the resolver on them one after another,
each call in the state that the one before it left. Either each tag of the text is answered, and the
answers stand as they are between the literal stretches of the text; or the first tag that is not
answered ends it with its fault, and no tag behind that one is asked for. The record of the calls
tells the same tags, and keeping it changes nothing. With the raw texts of the tags for answers the
text comes out as it was, and where no call fails nothing does. -/
theorem substitute_calls (resolve : Resolver ε τ) (s : Text) (state : τ) :
    let run := (substitute resolve s).run state
    let record := (substitute (recorded resolve) s).run (state, [])
    ((∃ answers last, Answered resolve state (tags s) answers last ∧
        run = (.ok (Text.interleave s.stretches answers), last) ∧
        record = (run.1, last, tags s)) ∨
      ∃ before tag after answers middle fault last, tags s = before ++ tag :: after ∧
        Answered resolve state before answers middle ∧
        (resolve tag).run middle = (.error fault, last) ∧
        run = (.error fault, last) ∧
        record = (run.1, last, before ++ [tag])) ∧
    ((∀ tag ∈ tags s, ∀ state, ((resolve tag).run state).1 = .ok tag.raw) → run.1 = .ok s) ∧
    ((∀ tag ∈ tags s, ∀ state fault, ((resolve tag).run state).1 ≠ .error fault) →
      ∃ shown, run.1 = .ok shown) := by
  intro run record
  rcases Answered.of_run resolve (tags s) state with ⟨answers, last, answered⟩ |
    ⟨before, tag, after, answers, middle, fault, last, found, answered, failed⟩
  · have done : run = (.ok (Text.interleave s.stretches answers), last) := answered.run_substitute
    refine ⟨.inl ⟨answers, last, answered, done, ?_⟩, ?_, ?_⟩
    · rw [done]
      exact (answered.record []).run_substitute
    · intro raw
      rw [done, answered.eq_raw raw, interleave_raw]
    · intro _
      exact ⟨_, congrArg Prod.fst done⟩
  · have stopped : run = (.error fault, last) := answered.run_substitute_error found failed
    have member : tag ∈ tags s := by
      rw [found]
      exact List.mem_append_right before List.mem_cons_self
    have outcome : ((resolve tag).run middle).1 = .error fault := congrArg Prod.fst failed
    refine ⟨.inr ⟨before, tag, after, answers, middle, fault, last, found, answered, failed,
      stopped, ?_⟩, ?_, ?_⟩
    · have recordedCall : (recorded resolve tag).run (middle, [] ++ before) =
          (.error fault, last, before ++ [tag]) := by
        rw [run_recorded, failed]
        rfl
      rw [stopped]
      exact (answered.record []).run_substitute_error found recordedCall
    · intro raw
      rw [raw tag member middle] at outcome
      exact absurd outcome (by simp)
    · intro never
      exact absurd outcome (never tag member middle fault)

/-- A resolver that counts its calls and answers with raw texts, on a text with a tag that is backed
off from. -/
theorem substitute_calls_counting :
    let s := "a<x:1>b<x:2?c>>\n<X:3>".toList
    let resolve : Resolver Empty Nat := fun tag => do modify (· + 1); pure tag.raw
    ((substitute resolve s).run 0).1 = .ok s ∧
      ∃ shown, ((substitute resolve s).run 0).1 = .ok shown := by
  intro s resolve
  have calls := substitute_calls resolve s 0
  refine ⟨calls.2.1 ?_, calls.2.2 ?_⟩
  · intro tag _ state
    rfl
  · intro tag _ state fault
    exact fault.elim

end Waymark
