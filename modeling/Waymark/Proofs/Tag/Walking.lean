import Waymark.Proofs.Tag.Measuring
import Waymark.Tag.Walking
import Waymark.Text.Runs

/-!
# Walks stay in the text

A walk along the branches is told where the last `>` of the line stands. That is all it needs to
look at no offset outside of the text and to come to its end:

* **loops** — each loop of the walk ends, without a look outside, where the reading of the text that
  is left ends (`alongTrue_eq`, `countRun_eq`, `alongFalse_eq`);
* **agreement** — so the walk finds the branches that are read (`map_shift_read?`);
* **backing off** — no single `>` ends the false branch exactly if all runs of `>` behind the true
  branch are of even length, and then the last `>` of the line and the one before it are a pair
  (`bracket?_eq_none_iff`, `lastPair_of_evenRuns`);
* **order** — what the walk finds is in order, up to the last `>` (`sound_behindTrue`).

Taken together: `walk_inside`.
-/

namespace Waymark

open Branches

/-! ## The last `>` of a line -/

namespace Text

/-- At `last` stands the last `>` of the line that is ahead of `start`. -/
structure LastBracket (s : Text) (start last : Nat) : Prop where
  start_le : start ≤ last
  bracket : s[last]? = some '>'
  alone : ∃ stop, LineEnd s start stop ∧ last < stop ∧
    ∀ offset, last < offset → offset < stop → s[offset]? ≠ some '>'

/-- Right behind the last `>` of a line there is no other one, not even on the next line. -/
theorem LastBracket.next {s : Text} {start last : Nat} (ahead : s.LastBracket start last) :
    s[last + 1]? ≠ some '>' := by
  obtain ⟨stop, lineEnd, inside, alone⟩ := ahead.alone
  rcases Nat.lt_or_ge (last + 1) stop with before | behind
  · exact alone (last + 1) (Nat.lt_succ_self last) before
  · -- the line ends there
    obtain rfl : stop = last + 1 := by omega
    rcases lineEnd.ends with here | here | here
    · simp [here]
    · simp [here]
    · simp [here]

/-- A line that tells what is ahead of a position tells its last `>`. -/
theorem lastBracket_of_ahead {s : Text} {pos last : Nat} {line : Line} (ahead : line.Ahead s pos)
    (held : line.bracket? = some last) (behind : pos ≤ last) : s.LastBracket pos last := by
  obtain ⟨inside, bracket, alone⟩ := ahead.last last held behind
  exact ⟨behind, bracket, line.stop, ahead.ends, inside, alone⟩

/-- The `>` at `last` and the one before it are the last pair of a run that is read in pairs. The
run ends there, and it begins at `start` or behind another character. -/
structure LastPair (s : Text) (start last : Nat) : Prop where
  start_lt : start < last
  first : s[last - 1]? = some '>'
  second : s[last]? = some '>'
  aligned : ∃ runStart pairs, start ≤ runStart ∧ runStart + 2 * pairs + 1 = last ∧
    (∀ offset, runStart ≤ offset → offset ≤ last → s[offset]? = some '>') ∧
    (start < runStart → s[runStart - 1]? ≠ some '>') ∧ s[last + 1]? ≠ some '>'

/-- Where all runs of `>` up to the last `>` are of even length, it is half of a pair. -/
theorem lastPair_of_evenRuns {s : Text} {start last : Nat} (bracket : s[last]? = some '>')
    (alone : s[last + 1]? ≠ some '>') (ahead : start ≤ last)
    (even : EvenRuns '>' ((s.drop start).take (last + 1 - start))) : s.LastPair start last := by
  have inside : last < s.length := (List.getElem?_eq_some_iff.1 bracket).1
  have width : ((s.drop start).take (last + 1 - start)).length = last + 1 - start := by
    rw [List.length_take, List.length_drop]
    omega
  -- the characters from `start` up to `last`, told by their offsets in the text
  have here {offset : Nat} (behind : start ≤ offset) (upTo : offset ≤ last) :
      ((s.drop start).take (last + 1 - start))[offset - start]? = s[offset]? := by
    rw [List.getElem?_take_of_lt (by omega), List.getElem?_drop, Nat.add_sub_cancel' behind]
  have final : ((s.drop start).take (last + 1 - start)).getLast? = some '>' := by
    rw [List.getLast?_eq_getElem?, width, show last + 1 - start - 1 = last - start by omega,
      here ahead (Nat.le_refl last), bracket]
  obtain ⟨before, pairs, split, left⟩ := even.exists_pairs final
  rw [split] at here width
  rw [List.length_append, List.length_replicate] at width
  have inRun {offset : Nat} (behind : start + before.length ≤ offset) (upTo : offset ≤ last) :
      s[offset]? = some '>' := by
    rw [← here (by omega) upTo, List.getElem?_append_right (by omega),
      List.getElem?_replicate_of_lt (by omega)]
  refine ⟨by omega, inRun (by omega) (by omega), bracket, start + before.length, pairs,
    Nat.le_add_right .., by omega, fun offset => inRun, ?_, alone⟩
  intro farther
  rwa [← here (by omega) (by omega), List.getElem?_append_left (by omega),
    show start + before.length - 1 - start = before.length - 1 by omega,
    ← List.getLast?_eq_getElem?]

end Text

/-! ## The first single `>` and runs -/

namespace Branches

/-- **Runs.** No single `>` ends a false branch exactly if all runs of `>` that may be read are of
even length. -/
theorem bracket?_eq_none_iff {reach : Nat} {s : Text} :
    bracket? reach s = none ↔ Text.EvenRuns '>' (s.take reach) := by
  fun_induction bracket? reach s with
  | case1 reach rest ih =>
    rw [Option.map_eq_none_iff, ih]
    exact ⟨Text.EvenRuns.pair, Text.EvenRuns.of_pair⟩
  | case2 reach rest lone =>
    refine iff_of_false (by simp) (Text.not_evenRuns_single ?_)
    intro first
    obtain ⟨after, split⟩ := List.head?_eq_some_iff.1 first
    cases reach with
    | zero => simp at split
    | succ reach =>
      cases rest with
      | nil => simp at split
      | cons d rest =>
        obtain ⟨rfl, -⟩ := List.cons.inj split
        exact lone reach rest rfl rfl
  | case3 reach c rest _ bracket ih =>
    have other : c ≠ '>' := fun h => bracket h
    rw [Option.map_eq_none_iff, ih]
    exact ⟨fun even => even.cons other, fun even => even.of_cons other⟩
  | case4 reach s _ _ plain =>
    have nothing : s.take reach = [] := by
      cases reach with
      | zero => rfl
      | succ reach =>
        cases s with
        | nil => rfl
        | cons c rest => exact (plain reach c rest rfl rfl).elim
    rw [nothing]
    exact iff_of_true rfl (Text.evenRuns_nil '>')

/-- A run of odd length ends the tag with its last `>`, and one of even length is passed over. -/
theorem bracket?_run {reach : Nat} {rest : Text} (ends : reach = 0 ∨ rest.head? ≠ some '>') :
    ∀ count, bracket? (count + reach) (List.replicate count '>' ++ rest) =
      if count % 2 = 1 then some (count - 1) else (bracket? reach rest).map (count + ·)
  | 0 => by simp
  | 1 => by
    rw [Nat.add_comm]
    exact bracket?_single ends
  | count + 2 => by
    have pair := bracket?_pair (count + reach) (List.replicate count '>' ++ rest)
    rw [bracket?_run ends count] at pair
    rw [show count + 2 + reach = count + reach + 2 by omega]
    refine pair.trans ?_
    by_cases odd : count % 2 = 1
    · rw [if_pos odd, if_pos (by omega), Option.map_some]
      congr 1
      omega
    · rw [if_neg odd, if_neg (by omega), Option.map_map]
      congr 1
      funext offset
      show 2 + (count + offset) = count + 2 + offset
      omega

end Branches

/-! ## The walk along the true branch -/

theorem Outside.ok_bind {α β : Type} (a : α) (next : α → Except Outside β) :
    (Except.ok a >>= next) = next a := rfl

/-- Up to an offset in the text, a look tells the character that stands there. -/
theorem Text.exists_look {s : Text} {last offset : Nat} (inside : last < s.length)
    (ahead : offset ≤ last) : ∃ c, s[offset]? = some c ∧ s.look offset = .ok c := by
  have here := List.getElem?_eq_getElem (Nat.lt_of_le_of_lt ahead inside)
  exact ⟨_, here, by rw [look, here]⟩

namespace Walk

variable {s : Text} {start last offset : Nat} {c : Char}

/-- Which two characters are a pair of delimiters. -/
theorem pair_iff (here : s[offset]? = some c) :
    ((s.drop offset).take 2 = ['|', '|'] ∨ (s.drop offset).take 2 = ['>', '>']) ↔
      (c = '|' ∨ c = '>') ∧ s[offset + 1]? = some c := by
  have twice (d : Char) : (s.drop offset).take 2 = [d, d] ↔ c = d ∧ s[offset + 1]? = some d := by
    rw [Text.drop_of_getElem? here, List.take_succ_cons, List.take_one, List.head?_drop]
    cases s[offset + 1]? <;> simp
  rw [twice, twice]
  constructor
  · rintro (⟨rfl, next⟩ | ⟨rfl, next⟩)
    · exact ⟨.inl rfl, next⟩
    · exact ⟨.inr rfl, next⟩
  · rintro ⟨rfl | rfl, next⟩
    · exact .inl ⟨rfl, next⟩
    · exact .inr ⟨rfl, next⟩

/-- The true branch goes on behind a pair. -/
theorem trueLength_drop_pair (delimiter : c = '|' ∨ c = '>') (here : s[offset]? = some c)
    (next : s[offset + 1]? = some c) (room : offset + 1 < last) :
    offset + trueLength (last + 1 - offset) (s.drop offset) =
      offset + 2 + trueLength (last + 1 - (offset + 2)) (s.drop (offset + 2)) := by
  rw [Text.drop_of_getElem? here, Text.drop_of_getElem? next,
    show last + 1 - offset = last - offset - 2 + 3 by omega, trueLength_pair delimiter,
    show last - offset - 2 + 1 = last + 1 - (offset + 2) by omega]
  exact (Nat.add_assoc ..).symm

/-- The true branch goes on behind a character that is no delimiter. -/
theorem trueLength_drop_plain (plain : ¬(c = '|' ∨ c = '>')) (here : s[offset]? = some c)
    (room : offset < last) :
    offset + trueLength (last + 1 - offset) (s.drop offset) =
      offset + 1 + trueLength (last + 1 - (offset + 1)) (s.drop (offset + 1)) := by
  rw [Text.drop_of_getElem? here, show last + 1 - offset = last - offset - 1 + 2 by omega,
    trueLength_plain (fun h => plain (.inl h)) (fun h => plain (.inr h)),
    show last - offset - 1 + 1 = last + 1 - (offset + 1) by omega, Nat.add_assoc]

/-- The walk along a true branch ends where the true branch does. It runs out only if the last pair
of the branch is the last `>` of the line and the one before it. -/
theorem alongTrue_eq (bracket : s[last]? = some '>') (alone : s[last + 1]? ≠ some '>')
    (ahead : offset ≤ last) (stop : Nat) :
    ∃ trueEnd, alongTrue s last offset stop = .ok trueEnd ∧
      trueEnd.stop = offset + trueLength (last + 1 - offset) (s.drop offset) ∧
      (trueEnd.ranOut = true → trueEnd.stop + 1 = last ∧ s[trueEnd.stop]? = some '>') := by
  have inside : last < s.length := (List.getElem?_eq_some_iff.1 bracket).1
  fun_induction alongTrue s last offset stop with
  | case1 offset stop _ pair isPair ih =>
    obtain ⟨c, here, -⟩ := Text.exists_look inside ahead
    obtain ⟨delimiter, next⟩ := (pair_iff here).1 isPair
    -- either the walk goes on behind the pair, or the pair ends at `last`; it does not begin there,
    -- as the `>` at `last` has no other one behind it
    rcases Nat.lt_or_ge (offset + 1) last with room | past
    · obtain ⟨trueEnd, runs, stops, out⟩ := ih room
      exact ⟨trueEnd, runs, stops.trans (trueLength_drop_pair delimiter here next room).symm, out⟩
    · have before : offset ≠ last := by
        rintro rfl
        exact alone (next.trans (here.symm.trans bracket))
      obtain rfl : last = offset + 1 := by omega
      obtain rfl : c = '>' := Option.some.inj (next.symm.trans bracket)
      refine ⟨⟨offset, true⟩, ?_, ?_, fun _ => ⟨rfl, here⟩⟩
      · rw [alongTrue, dif_neg (by omega)]
        rfl
      · rw [Text.drop_of_getElem? here, Text.drop_of_getElem? next,
          show offset + 1 + 1 - offset = 2 by omega]
        rfl
  | case2 offset stop _ pair isPair ih =>
    obtain ⟨c, here, look⟩ := Text.exists_look inside ahead
    rw [look, Outside.ok_bind]
    by_cases delimiter : c = '|' ∨ c = '>'
    · have single : (s.drop (offset + 1)).head? ≠ some c := by
        rw [List.head?_drop]
        exact fun next => isPair ((pair_iff here).2 ⟨delimiter, next⟩)
      rw [if_pos delimiter, Text.drop_of_getElem? here, trueLength_single delimiter single]
      exact ⟨⟨offset, false⟩, rfl, rfl, nofun⟩
    · have before : offset ≠ last := by
        rintro rfl
        exact delimiter (.inr (Option.some.inj (here.symm.trans bracket)))
      have room : offset < last := Nat.lt_of_le_of_ne ahead before
      obtain ⟨trueEnd, runs, stops, out⟩ := ih room
      rw [if_neg delimiter]
      exact ⟨trueEnd, runs, stops.trans (trueLength_drop_plain delimiter here room).symm, out⟩
  | case3 offset stop past => exact absurd ahead past

/-! ## The walk along the false branch -/

/-- From `offset` on, `count` characters `>` stand one after another, and there is no other one
behind them, at least not up to `last`. -/
structure RunAt (s : Text) (last offset count : Nat) : Prop where
  split : s.drop offset = List.replicate count '>' ++ s.drop (offset + count)
  short : offset + count ≤ last + 1
  ends : last < offset + count ∨ s[offset + count]? ≠ some '>'

/-- A `>` in front makes a run longer. -/
theorem RunAt.cons {count : Nat} (here : s[offset]? = some '>')
    (run : RunAt s last (offset + 1) count) : RunAt s last offset (count + 1) := by
  obtain ⟨split, short, ends⟩ := run
  rw [Nat.add_assoc, Nat.add_comm 1] at split short ends
  refine ⟨?_, short, ends⟩
  rw [Text.drop_of_getElem? here, split, List.replicate_succ, List.cons_append]

/-- Counting a run takes all `>` that stand there, as far as `last`. -/
theorem countRun_eq (inside : last < s.length) (ahead : offset ≤ last + 1) :
    ∃ count, countRun s last offset = .ok count ∧ RunAt s last offset count := by
  fun_induction countRun s last offset with
  | case1 offset before ih =>
    obtain ⟨c, here, look⟩ := Text.exists_look inside before
    rw [look, Outside.ok_bind]
    by_cases same : c = '>'
    · obtain ⟨count, runs, run⟩ := ih (Nat.succ_le_succ before)
      rw [if_pos same, runs]
      rw [same] at here
      exact ⟨count + 1, rfl, run.cons here⟩
    · rw [if_neg same]
      refine ⟨0, rfl, rfl, ahead, .inr ?_⟩
      rw [Nat.add_zero, here]
      simpa using same
  | case2 offset past => exact ⟨0, rfl, rfl, ahead, .inl (Nat.lt_of_not_le past)⟩

/-- The search for a single `>` goes on behind a run of even length. -/
theorem RunAt.bracket?_drop {count : Nat} (run : RunAt s last offset count) :
    (bracket? (last + 1 - offset) (s.drop offset)).map (offset + ·) =
      if count % 2 = 1 then some (offset + (count - 1))
      else (bracket? (last + 1 - (offset + count)) (s.drop (offset + count))).map
        (offset + count + ·) := by
  obtain ⟨split, short, ends⟩ := run
  have behind : last + 1 - (offset + count) = 0 ∨ (s.drop (offset + count)).head? ≠ some '>' := by
    rw [List.head?_drop]
    exact ends.imp_left (by omega)
  have read := bracket?_run behind count
  rw [← split, show count + (last + 1 - (offset + count)) = last + 1 - offset by omega] at read
  rw [read]
  by_cases odd : count % 2 = 1
  · rw [if_pos odd, if_pos odd, Option.map_some]
  · rw [if_neg odd, if_neg odd, Option.map_map]
    congr 1
    funext inner
    exact (Nat.add_assoc ..).symm

/-- The search for a single `>` goes on behind another character. -/
theorem bracket?_drop_plain (here : s[offset]? = some c) (other : c ≠ '>') (ahead : offset ≤ last) :
    (bracket? (last + 1 - offset) (s.drop offset)).map (offset + ·) =
      (bracket? (last + 1 - (offset + 1)) (s.drop (offset + 1))).map (offset + 1 + ·) := by
  rw [Text.drop_of_getElem? here, show last + 1 - offset = last - offset + 1 by omega,
    bracket?_plain other, show last + 1 - (offset + 1) = last - offset by omega, Option.map_map]
  congr 1
  funext inner
  exact (Nat.add_assoc ..).symm

/-- The walk along a false branch finds the single `>` that ends it. -/
theorem alongFalse_eq (inside : last < s.length) (offset : Nat) :
    alongFalse s last offset =
      .ok ((bracket? (last + 1 - offset) (s.drop offset)).map (offset + ·)) := by
  fun_induction alongFalse s last offset with
  | case1 offset ahead ihRun ihNext =>
    obtain ⟨c, here, look⟩ := Text.exists_look inside ahead
    rw [look, Outside.ok_bind]
    by_cases same : c = '>'
    · obtain ⟨more, runs, run⟩ := countRun_eq inside (Nat.succ_le_succ ahead)
      rw [if_pos same, runs, Outside.ok_bind]
      rw [same] at here
      rw [(run.cons here).bracket?_drop]
      by_cases odd : (more + 1) % 2 = 1
      · rw [if_pos odd, if_pos odd]
        rfl
      · rw [if_neg odd, if_neg odd, ihRun more]
    · rw [if_neg same, ihNext, bracket?_drop_plain here same ahead]
  | case2 offset past =>
    have nothing : bracket? (last + 1 - offset) (s.drop offset) = none := by
      rw [show last + 1 - offset = 0 by omega]
      simp [bracket?]
    rw [nothing]
    rfl

/-! ## The whole walk -/

/-- What a walk finds behind the end of a true branch. -/
def behindTrue (s : Text) (last : Nat) (trueEnd : TrueEnd) : Walk :=
  let falseStart := falseStartAt trueEnd.stop s
  ofEnds last trueEnd falseStart
    ((bracket? (last + 1 - falseStart) (s.drop falseStart)).map (falseStart + ·))

theorem behindTrue_of_some {trueEnd : TrueEnd} {offset : Nat}
    (found : bracket? (last + 1 - falseStartAt trueEnd.stop s)
      (s.drop (falseStartAt trueEnd.stop s)) = some offset) :
    behindTrue s last trueEnd =
      ⟨⟨trueEnd.stop, falseStartAt trueEnd.stop s, falseStartAt trueEnd.stop s + offset⟩,
        trueEnd.ranOut, false⟩ := by
  rw [behindTrue, found]
  rfl

theorem behindTrue_of_none {trueEnd : TrueEnd}
    (absent : bracket? (last + 1 - falseStartAt trueEnd.stop s)
      (s.drop (falseStartAt trueEnd.stop s)) = none) :
    behindTrue s last trueEnd =
      ⟨⟨trueEnd.stop, falseStartAt trueEnd.stop s, last - 1⟩, trueEnd.ranOut, true⟩ := by
  rw [behindTrue, absent]
  rfl

/-- Behind the true branch the walk goes on to its end. -/
theorem read?_eq {trueEnd : TrueEnd} (inside : last < s.length) (ahead : start ≤ last)
    (before : trueEnd.stop ≤ last) (runs : alongTrue s last start start = .ok trueEnd) :
    read? s start last = .ok (some (behindTrue s last trueEnd)) := by
  obtain ⟨c, here, look⟩ := Text.exists_look inside before
  have begins : (if c = '|' then trueEnd.stop + 1 else trueEnd.stop) =
      falseStartAt trueEnd.stop s := by
    simp [falseStartAt, here]
  simp only [read?, if_neg (Nat.not_lt.2 ahead), runs, Outside.ok_bind, look, begins,
    alongFalse_eq inside]
  rfl

/-- Either a single `>` ends the false branch, and it is reached, or the last pair is at hand. -/
theorem single_cases {falseStart : Nat} (bracket : s[last]? = some '>')
    (alone : s[last + 1]? ≠ some '>') (ahead : falseStart ≤ last) :
    (∃ offset, bracket? (last + 1 - falseStart) (s.drop falseStart) = some offset ∧
        falseStart + offset ≤ last ∧ s[falseStart + offset]? = some '>') ∨
      (bracket? (last + 1 - falseStart) (s.drop falseStart) = none ∧
        s.LastPair falseStart last) := by
  cases found : bracket? (last + 1 - falseStart) (s.drop falseStart) with
  | some offset =>
    have single := isBracket_of_bracket? found
    have inside := single.inside
    have here := single.here
    rw [List.getElem?_drop] at here
    exact .inl ⟨offset, rfl, by omega, here⟩
  | none =>
    exact .inr ⟨rfl, Text.lastPair_of_evenRuns bracket alone ahead (bracket?_eq_none_iff.1 found)⟩

/-- **Agreement.** The walk finds the branches that are read from `start` on. -/
theorem map_shift_read? {trueEnd : TrueEnd} (bracket : s[last]? = some '>')
    (alone : s[last + 1]? ≠ some '>') (ahead : start ≤ last) (before : trueEnd.stop ≤ last)
    (stops : trueEnd.stop = start + trueLength (last + 1 - start) (s.drop start)) :
    (Branches.read? (last + 1 - start) (s.drop start)).map (shift start) =
      some (behindTrue s last trueEnd).branches := by
  have begins : falseStartAt trueEnd.stop s =
      start + falseStartAt (trueLength (last + 1 - start) (s.drop start)) (s.drop start) := by
    simp only [falseStartAt, List.getElem?_drop, ← stops]
    split <;> omega
  rw [read?_of_pos (by omega), Option.map_some, List.drop_drop, Nat.sub_sub, ← begins]
  rcases single_cases bracket alone (falseStartAt_le bracket before) with
    ⟨offset, found, -, -⟩ | ⟨absent, pair⟩
  · rw [behindTrue_of_some found, found, begins, stops]
    simp [shift, Nat.add_assoc]
  · have room := pair.start_lt
    rw [behindTrue_of_none absent, absent, begins, stops]
    simp [shift]
    omega

/-! ## What a walk finds -/

/-- What a walk from `start` on finds, where `last` is the last `>` of the line. -/
structure Sound (s : Text) (start last : Nat) (walk : Walk) : Prop where
  start_le : start ≤ walk.branches.trueStop
  trueStop_le : walk.branches.trueStop ≤ walk.branches.falseStart
  falseStart_le : walk.branches.falseStart ≤ walk.branches.bracket
  bracket_le : walk.branches.bracket ≤ last
  bracket : s[walk.branches.bracket]? = some '>'
  /-- The walk backs off exactly if no run of `>` behind the true branch is of odd length. -/
  backedOff_iff : walk.backedOff = true ↔ Text.EvenRuns '>'
    ((s.drop walk.branches.falseStart).take (last + 1 - walk.branches.falseStart))
  /-- Then the first `>` of the last pair of the last run ends the tag. -/
  backedOff : walk.backedOff = true →
    walk.branches.bracket = last - 1 ∧ s.LastPair walk.branches.falseStart last
  /-- Where no single delimiter ends the true branch, the last pair does, and nothing is left for
  the false branch. -/
  ranOut : walk.ranOut = true →
    walk.branches.trueStop + 1 = last ∧ walk.branches.falseText s = []

/-- Where the walk along the true branch ran out, nothing is left to search but the last pair. -/
theorem nothing_left {stop : Nat} (first : s[stop]? = some '>') (second : s[stop + 1]? = some '>') :
    falseStartAt stop s = stop ∧ bracket? 2 (s.drop stop) = none := by
  refine ⟨by simp [falseStartAt, first], ?_⟩
  rw [Text.drop_of_getElem? first, Text.drop_of_getElem? second, bracket?_pair]
  simp [bracket?]

/-- **Order.** What the walk finds is in order, whichever way its loops ended. -/
theorem sound_behindTrue {trueEnd : TrueEnd} (bracket : s[last]? = some '>')
    (alone : s[last + 1]? ≠ some '>') (behind : start ≤ trueEnd.stop)
    (before : trueEnd.stop ≤ last)
    (out : trueEnd.ranOut = true → trueEnd.stop + 1 = last ∧ s[trueEnd.stop]? = some '>') :
    (behindTrue s last trueEnd).Sound s start last := by
  have trueStop_le : trueEnd.stop ≤ falseStartAt trueEnd.stop s := by
    unfold falseStartAt
    split <;> omega
  rcases single_cases bracket alone (falseStartAt_le bracket before) with
    ⟨offset, found, reached, here⟩ | ⟨absent, pair⟩
  · rw [behindTrue_of_some found]
    refine ⟨behind, trueStop_le, Nat.le_add_right .., reached, here, ?_, nofun, ?_⟩
    · rw [← bracket?_eq_none_iff, found]
      simp
    · -- a walk that ran out finds no single `>`
      intro ran
      obtain ⟨rfl, first⟩ := out ran
      obtain ⟨stays, absent⟩ := nothing_left first bracket
      rw [stays, show trueEnd.stop + 1 + 1 - trueEnd.stop = 2 by omega, absent] at found
      simp at found
  · have room := pair.start_lt
    rw [behindTrue_of_none absent]
    refine ⟨behind, trueStop_le, Nat.le_sub_one_of_lt room, Nat.sub_le .., pair.first, ?_,
      fun _ => ⟨rfl, pair⟩, ?_⟩
    · rw [← bracket?_eq_none_iff]
      exact iff_of_true rfl absent
    · intro ran
      obtain ⟨rfl, first⟩ := out ran
      obtain ⟨stays, -⟩ := nothing_left first bracket
      refine ⟨rfl, ?_⟩
      rw [falseText, stays, Nat.add_sub_cancel, Nat.sub_self, List.take_zero]

end Walk

/-- **Walks stay in the text.** From any offset, and with the last `>` of the line ahead of it, a
walk along the branches never looks outside of the text. It finds the branches that are read there,
in order and up to the last `>` at most, and a `>` ends them. It backs off only if all runs of `>`
that are left are of even length, to the last pair of the last run; and a walk that runs out along
the true branch leaves no false branch. -/
theorem walk_inside (s : Text) (start last : Nat) (ahead : s.LastBracket start last) :
    ∃ walk, Walk.read? s start last = .ok (some walk) ∧
      (Branches.read? (last + 1 - start) (s.drop start)).map (Branches.shift start) =
        some walk.branches ∧
      walk.Sound s start last := by
  have inside : last < s.length := (List.getElem?_eq_some_iff.1 ahead.bracket).1
  obtain ⟨trueEnd, runs, stops, out⟩ :=
    Walk.alongTrue_eq ahead.bracket ahead.next ahead.start_le start
  have reaches : 0 < last + 1 - start := Nat.sub_pos_of_lt (Nat.lt_succ_of_le ahead.start_le)
  have short := trueLength_lt reaches (s.drop start)
  have before : trueEnd.stop ≤ last := by omega
  exact ⟨Walk.behindTrue s last trueEnd, Walk.read?_eq inside ahead.start_le before runs,
    Walk.map_shift_read? ahead.bracket ahead.next ahead.start_le before stops,
    Walk.sound_behindTrue ahead.bracket ahead.next (by omega) before out⟩

/-- A walk that backs off behind runs of even length, the last of them of two pairs, and one that
runs out at once. -/
theorem walk_inside_pairs :
    let s : Text := "<x:1?a||>>|>>b>>>>c\n<x:2?>>".toList
    let first : Walk := ⟨⟨10, 11, 16⟩, false, true⟩
    let second : Walk := ⟨⟨25, 25, 25⟩, true, true⟩
    (s.LastBracket 5 17 ∧ Walk.read? s 5 17 = .ok (some first) ∧ first.Sound s 5 17) ∧
      s.LastBracket 25 26 ∧ Walk.read? s 25 26 = .ok (some second) ∧ second.Sound s 25 26 := by
  intro s first second
  have aheadFirst : s.LastBracket 5 17 :=
    Text.lastBracket_of_ahead (Line.ahead_measure (by decide)) rfl (by decide)
  have aheadSecond : s.LastBracket 25 26 :=
    Text.lastBracket_of_ahead (Line.ahead_measure (by decide)) rfl (by decide)
  have readFirst : Walk.read? s 5 17 = .ok (some first) := by
    simp only [s, first]
    cbv
  have readSecond : Walk.read? s 25 26 = .ok (some second) := by
    simp only [s, second]
    cbv
  obtain ⟨walk, read, -, sound⟩ := walk_inside s 5 17 aheadFirst
  obtain ⟨other, readOther, -, soundOther⟩ := walk_inside s 25 26 aheadSecond
  obtain rfl : first = walk := by simpa [readFirst] using read
  obtain rfl : second = other := by simpa [readSecond] using readOther
  exact ⟨⟨aheadFirst, read, sound⟩, aheadSecond, readOther, soundOther⟩

/-- Told of a `>` that is not there, a walk looks outside of the text. -/
example : Walk.read? "a>>".toList 0 3 = .error ⟨3⟩ := by cbv

end Waymark
