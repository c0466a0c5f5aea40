import Waymark.Tag.Scan

/-!
# Exchanging tags

`substitute resolve s` is `s` with each tag exchanged for what `resolve` answers for it. The
stretches between the tags are kept as they are, and so are the answers: they are not searched for
tags. `resolve` may act in any monad; it is asked once for each tag, from left to right, and if it
fails, no later tag is asked for. Main statement: in a lawful monad, to substitute is to collect the
answers for all tags first and to weave them into the text then (`substitute_eq_weave`).
-/

namespace Waymark

/-- The text from `pos` on, `rest`, with the tags that are listed exchanged. -/
def splice {m : Type → Type} [Monad m] (resolve : Tag → m Text) :
    Nat → Text → List Tag → m Text
  | _, rest, [] => pure rest
  | pos, rest, tag :: later => do
      let shown ← resolve tag
      let after ← splice resolve tag.stop (rest.drop (tag.stop - pos)) later
      pure (rest.take (tag.start - pos) ++ shown ++ after)

/-- A text with each of its tags exchanged for the answer of `resolve`. -/
def substitute {m : Type → Type} [Monad m] (resolve : Tag → m Text) (s : Text) : m Text :=
  splice resolve 0 s (tags s)

/-- The text from `pos` on, `rest`, with the tags that are listed exchanged for the texts that are
listed. -/
def weave : Nat → Text → List Tag → List Text → Text
  | pos, rest, tag :: later, shown :: answers =>
      rest.take (tag.start - pos) ++ shown ++
        weave tag.stop (rest.drop (tag.stop - pos)) later answers
  | _, rest, _, _ => rest

/-- A text without tags stays as it is, and nothing is asked. -/
theorem substitute_of_tags_eq_nil {m : Type → Type} [Monad m] (resolve : Tag → m Text)
    {s : Text} (none : tags s = []) : substitute resolve s = pure s := by
  rw [substitute, none, splice]

/-- To splice is to ask for all tags and then to weave the answers in. -/
theorem splice_eq_weave {m : Type → Type} [Monad m] [LawfulMonad m] (resolve : Tag → m Text)
    (pos : Nat) (rest : Text) (found : List Tag) :
    splice resolve pos rest found = (do return weave pos rest found (← found.mapM resolve)) := by
  induction found generalizing pos rest with
  | nil => simp [splice, weave]
  | cons tag later ih => simp [splice, weave, ih]

/-- To substitute is to ask for all tags and then to weave the answers in. -/
theorem substitute_eq_weave {m : Type → Type} [Monad m] [LawfulMonad m] (resolve : Tag → m Text)
    (s : Text) :
    substitute resolve s = (do return weave 0 s (tags s) (← (tags s).mapM resolve)) :=
  splice_eq_weave resolve 0 s (tags s)

/-- To count the tags while each is answered is to answer them all and to add up how many there
are. -/
theorem run_mapM_counted {m : Type → Type} [Monad m] [LawfulMonad m] (answer : Tag → m Text)
    (found : List Tag) (count : Nat) :
    (found.mapM fun tag => (do modify (· + 1); answer tag : StateT Nat m Text)).run count =
      (do return (← found.mapM answer, count + found.length)) := by
  induction found generalizing count with
  | nil => simp
  | cons tag later ih =>
    rw [List.mapM_cons, List.mapM_cons]
    simp only [bind_assoc, StateT.run_bind, StateT.run_modify, pure_bind, StateT.run_pure,
      StateT.run_monadLift, monadLift_self, List.length_cons]
    simp [ih, Nat.add_right_comm, Nat.add_assoc]

end Waymark
