import Waymark.Tag.Scan

/-!
# Where the branches of a tag end

`Branches.read?` looks ahead to the last `>` of the line. `Branches.ofText?` finds the same branches
by recursion on the text alone, unit by unit, and falls back on the first `>` of a pair where
nothing after the pair ends the tag:

* **agreement** — both find the same branches on every text (`read?_reach`);
* **existence** — there are branches exactly when the line has a `>` (`ofText?_eq_none_iff`);
* **cutting** — what comes after the closing `>` may be cut off without changing the branches
  (`ofText?_of_append`).
-/

namespace Waymark

/-! ## How far a line is read -/

/-- How many characters there are up to and including the last `>` of the line; none if there is
no `>`. -/
def Text.reach (s : Text) : Nat := (Text.lastBracket? (Text.line s)).elim 0 (· + 1)

theorem Line.reach_measure_eq (pos : Nat) (s : Text) :
    (Line.measure pos s).reach pos = Text.reach s := by
  rw [Line.reach_measure]
  cases h : Text.lastBracket? (Text.line s) <;> simp [Line.reach, Line.measure, Text.reach, h]

namespace Text

@[simp] theorem reach_nil : reach [] = 0 := rfl

/-- Nothing is reached on a line that has no `>`. -/
theorem reach_eq_zero_iff {s : Text} : reach s = 0 ↔ '>' ∉ line s := by
  rw [← lastBracket?_eq_none_iff, reach]
  cases lastBracket? (line s) <;> simp

theorem reach_of_isLineBreak {c : Char} (ends : isLineBreak c = true) (rest : Text) :
    reach (c :: rest) = 0 := by
  simp [reach, line, ends, lastBracket?]

/-- A `>` can always be reached. -/
theorem reach_bracket (rest : Text) : reach ('>' :: rest) = reach rest + 1 := by
  rw [reach, line_cons (by decide), lastBracket?, reach]
  cases lastBracket? (line rest) <;> simp

theorem reach_plain {c : Char} (inner : isLineBreak c = false) (other : c ≠ '>') (rest : Text) :
    reach (c :: rest) = if reach rest = 0 then 0 else reach rest + 1 := by
  rw [reach, line_cons inner, lastBracket?, reach]
  cases lastBracket? (line rest) <;> simp [other]

/-- Where a `>` is reached, one more character in front is counted. -/
theorem reach_cons {c : Char} {rest : Text} (inner : isLineBreak c = false)
    (found : 0 < reach rest) : reach (c :: rest) = reach rest + 1 := by
  by_cases hc : c = '>'
  · rw [hc, reach_bracket]
  · rw [reach_plain inner hc, if_neg (by omega)]

/-- What cannot be reached in a text cannot be reached in its beginning. -/
theorem reach_of_append {s after : Text} (unreached : reach (s ++ after) = 0) : reach s = 0 := by
  induction s with
  | nil => rfl
  | cons c rest ih =>
    by_cases hc : c = '>'
    · rw [hc, List.cons_append, reach_bracket] at unreached
      omega
    · cases ends : isLineBreak c with
      | true => exact reach_of_isLineBreak ends rest
      | false =>
        rw [List.cons_append, reach_plain ends hc] at unreached
        split at unreached
        · rename_i absent
          rw [reach_plain ends hc, ih absent, if_pos rfl]
        · omega

/-- The last character that is reached is a `>`. -/
theorem getElem?_reach {s : Text} (found : 0 < reach s) : s[reach s - 1]? = some '>' := by
  induction s with
  | nil => exact absurd found (by simp)
  | cons c rest ih =>
    by_cases hc : c = '>'
    · subst hc
      rw [reach_bracket] at found ⊢
      by_cases hr : reach rest = 0
      · simp [hr]
      · have inner := ih (by omega)
        rwa [show reach rest + 1 - 1 = reach rest - 1 + 1 by omega, List.getElem?_cons_succ]
    · cases ends : isLineBreak c with
      | true => exact absurd found (by simp [reach_of_isLineBreak ends])
      | false =>
        rw [reach_plain ends hc] at found ⊢
        by_cases hr : reach rest = 0
        · simp [hr] at found
        · have inner := ih (by omega)
          rwa [if_neg hr, show reach rest + 1 - 1 = reach rest - 1 + 1 by omega,
            List.getElem?_cons_succ]

/-- Short of the last `>` that is reached, characters at the front only count. -/
theorem reach_drop {s : Text} {count : Nat} (short : count < reach s) :
    reach (s.drop count) = reach s - count := by
  induction count generalizing s with
  | zero => rfl
  | succ count ih =>
    cases s with
    | nil => exact absurd short (by simp)
    | cons c rest =>
      rw [List.drop_succ_cons]
      by_cases hc : c = '>'
      · subst hc
        rw [reach_bracket] at short ⊢
        rw [ih (by omega)]
        omega
      · cases ends : isLineBreak c with
        | true => exact absurd short (by simp [reach_of_isLineBreak ends])
        | false =>
          rw [reach_plain ends hc] at short ⊢
          by_cases hr : reach rest = 0
          · simp [hr] at short
          · rw [if_neg hr] at short ⊢
            rw [ih (by omega)]
            omega

theorem head?_ne_some {c : Char} {s : Text} (other : ∀ rest, s = c :: rest → False) :
    s.head? ≠ some c := by
  intro h
  obtain ⟨rest, rfl⟩ := List.head?_eq_some_iff.1 h
  exact other rest rfl

theorem ne_cons {c : Char} {s : Text} (other : s.head? ≠ some c) :
    ∀ rest, s = c :: rest → False := by
  rintro rest rfl
  exact other rfl

/-- A text from one of its characters on. -/
theorem drop_of_getElem? {s : Text} {offset : Nat} {c : Char} (here : s[offset]? = some c) :
    s.drop offset = c :: s.drop (offset + 1) := by
  obtain ⟨inside, rfl⟩ := List.getElem?_eq_some_iff.1 here
  exact List.drop_eq_getElem_cons inside

/-- Behind the last `>` that is reached there is no other one on the line. -/
theorem reach_drop_reach (s : Text) : reach (s.drop (reach s)) = 0 := by
  rcases Nat.eq_zero_or_pos (reach s) with unreached | found
  · rw [unreached, List.drop_zero, unreached]
  · have last := @reach_drop s (reach s - 1) (by omega)
    rw [drop_of_getElem? (getElem?_reach found), reach_bracket,
      show reach s - 1 + 1 = reach s by omega] at last
    omega

/-- Where nothing is reached, nothing is reached from farther on the line either. -/
theorem reach_drop_of_unreached {s : Text} (unreached : reach s = 0) {count : Nat}
    (inside : count ≤ (line s).length) : reach (s.drop count) = 0 := by
  induction count generalizing s with
  | zero => exact unreached
  | succ count ih =>
    cases s with
    | nil => exact unreached
    | cons c rest =>
      cases ends : isLineBreak c with
      | true => simp [line, ends] at inside
      | false =>
        rw [line_cons ends, List.length_cons] at inside
        have later : reach rest = 0 := by
          rcases Nat.eq_zero_or_pos (reach rest) with none | found
          · exact none
          · rw [reach_cons ends found] at unreached
            omega
        exact ih later (Nat.le_of_succ_le_succ inside)

/-- Characters of the line in front of what is reached are only counted. -/
theorem reach_append {front rest : Text} (inner : ∀ c ∈ front, isLineBreak c = false)
    (found : 0 < reach rest) : reach (front ++ rest) = front.length + reach rest := by
  induction front with
  | nil => simp
  | cons c front ih =>
    obtain ⟨here, later⟩ := List.forall_mem_cons.1 inner
    have counted := ih later
    rw [List.cons_append, reach_cons here (by omega), counted, List.length_cons]
    omega

theorem head?_of_unreached {s : Text} (unreached : reach s = 0) : s.head? ≠ some '>' := by
  intro first
  obtain ⟨rest, rfl⟩ := List.head?_eq_some_iff.1 first
  rw [reach_bracket] at unreached
  omega

end Text

namespace Branches

/-! ## The branches by recursion on the text -/

/-- Offset of the `>` that ends a false branch at the beginning of a text. -/
def closer? : Text → Option Nat
  | '>' :: '>' :: rest => some ((closer? rest).elim 0 (2 + ·))
  | '>' :: _ => some 0
  | c :: rest => if Text.isLineBreak c then none else (closer? rest).map (1 + ·)
  | [] => none

/-- The same branches in a text that has `amount` more characters of the true branch before it. -/
def shift (amount : Nat) (branches : Branches) : Branches where
  trueStop := amount + branches.trueStop
  falseStart := amount + branches.falseStart
  bracket := amount + branches.bracket

/-- The branches at the beginning of a text. -/
def ofText? : Text → Option Branches
  | '|' :: '|' :: rest => (ofText? rest).map (shift 2)
  | '>' :: '>' :: rest => some ((ofText? rest).elim ⟨0, 0, 0⟩ (shift 2))
  | '|' :: rest => (closer? rest).map fun offset => ⟨0, 1, 1 + offset⟩
  | '>' :: _ => some ⟨0, 0, 0⟩
  | c :: rest => if Text.isLineBreak c then none else (ofText? rest).map (shift 1)
  | [] => none

theorem closer?_pair (rest : Text) :
    closer? ('>' :: '>' :: rest) = some ((closer? rest).elim 0 (2 + ·)) := rfl

theorem closer?_lone {rest : Text} (other : rest.head? ≠ some '>') :
    closer? ('>' :: rest) = some 0 := by
  rw [closer?]
  exact Text.ne_cons other

theorem closer?_other {c : Char} (other : c ≠ '>') (rest : Text) :
    closer? (c :: rest) =
      if Text.isLineBreak c then none else (closer? rest).map (1 + ·) := by
  rw [closer?.eq_def]
  split <;> simp_all

theorem closer?_plain {c : Char} (inner : Text.isLineBreak c = false) (other : c ≠ '>')
    (rest : Text) : closer? (c :: rest) = (closer? rest).map (1 + ·) := by
  rw [closer?_other other, inner]
  rfl

theorem closer?_of_isLineBreak {c : Char} (ends : Text.isLineBreak c = true) (rest : Text) :
    closer? (c :: rest) = none := by
  rw [closer?_other, if_pos ends]
  rintro rfl
  simp [Text.isLineBreak] at ends

theorem ofText?_bars (rest : Text) :
    ofText? ('|' :: '|' :: rest) = (ofText? rest).map (shift 2) := rfl

theorem ofText?_brackets (rest : Text) :
    ofText? ('>' :: '>' :: rest) = some ((ofText? rest).elim ⟨0, 0, 0⟩ (shift 2)) := rfl

theorem ofText?_separator {rest : Text} (other : rest.head? ≠ some '|') :
    ofText? ('|' :: rest) = (closer? rest).map fun offset => ⟨0, 1, 1 + offset⟩ := by
  rw [ofText?]
  exact Text.ne_cons other

theorem ofText?_lone {rest : Text} (other : rest.head? ≠ some '>') :
    ofText? ('>' :: rest) = some ⟨0, 0, 0⟩ := by
  rw [ofText?]
  exact Text.ne_cons other

theorem ofText?_other {c : Char} (separator : c ≠ '|') (bracket : c ≠ '>') (rest : Text) :
    ofText? (c :: rest) =
      if Text.isLineBreak c then none else (ofText? rest).map (shift 1) := by
  rw [ofText?.eq_def]
  split <;> simp_all

theorem ofText?_plain {c : Char} (inner : Text.isLineBreak c = false) (separator : c ≠ '|')
    (bracket : c ≠ '>') (rest : Text) : ofText? (c :: rest) = (ofText? rest).map (shift 1) := by
  rw [ofText?_other separator bracket, inner]
  rfl

theorem ofText?_of_isLineBreak {c : Char} (ends : Text.isLineBreak c = true) (rest : Text) :
    ofText? (c :: rest) = none := by
  rw [ofText?_other, if_pos ends]
  all_goals
    rintro rfl
    simp [Text.isLineBreak] at ends

/-! ## Agreement with the reading ahead -/

/-- What ends a false branch: the first single `>` that is reached, or else the first `>` of the
last pair that is reached. -/
theorem closer?_cases (s : Text) :
    (Text.reach s = 0 ∧ closer? s = none) ∨
      (∃ offset, bracket? (Text.reach s) s = some offset ∧ closer? s = some offset) ∨
      (bracket? (Text.reach s) s = none ∧ 2 ≤ Text.reach s ∧
        closer? s = some (Text.reach s - 2)) := by
  fun_induction closer? s with
  | case1 rest ih =>
    -- a pair is passed over, unless nothing behind it can be reached
    rw [Text.reach_bracket, Text.reach_bracket, bracket?_pair]
    rcases ih with ⟨unreached, absent⟩ | ⟨offset, found, closes⟩ | ⟨absent, room, closes⟩
    · exact .inr (.inr (by simp [unreached, absent, bracket?]))
    · exact .inr (.inl ⟨2 + offset, by simp [found], by simp [closes]⟩)
    · refine .inr (.inr ⟨by simp [absent], by omega, ?_⟩)
      rw [closes, Option.elim_some]
      congr 1
      omega
  | case2 rest single =>
    refine .inr (.inl ⟨0, ?_, rfl⟩)
    rw [Text.reach_bracket]
    exact bracket?_single (.inr (Text.head?_ne_some single))
  | case3 c rest single pair ends =>
    exact .inl ⟨Text.reach_of_isLineBreak ends rest, rfl⟩
  | case4 c rest single pair inner ih =>
    have hc : c ≠ '>' := by
      rintro rfl
      exact pair rfl
    rw [Text.reach_plain (by simpa using inner) hc]
    rcases ih with ⟨unreached, absent⟩ | ⟨offset, found, closes⟩ | ⟨absent, room, closes⟩
    · exact .inl ⟨by simp [unreached], by simp [absent]⟩
    · have reached := (isBracket_of_bracket? found).inside
      rw [if_neg (by omega)]
      exact .inr (.inl ⟨1 + offset, by simp [bracket?_plain hc, found], by simp [closes]⟩)
    · rw [if_neg (by omega)]
      refine .inr (.inr ⟨by simp [bracket?_plain hc, absent], by omega, ?_⟩)
      rw [closes, Option.map_some]
      congr 1
      omega
  | case5 => exact .inl ⟨rfl, rfl⟩

/-- Offset of the false branch, where the true branch ends at `trueStop`. -/
def falseStartAt (trueStop : Nat) (s : Text) : Nat :=
  if s[trueStop]? = some '|' then trueStop + 1 else trueStop

/-- Up to a `>` there is room for the separator in front of the false branch. -/
theorem falseStartAt_le {s : Text} {last trueStop : Nat} (bracket : s[last]? = some '>')
    (before : trueStop ≤ last) : falseStartAt trueStop s ≤ last := by
  unfold falseStartAt
  split
  · rename_i separator
    -- the separator is another character than the `>`
    have other : trueStop ≠ last := by
      rintro rfl
      rw [bracket] at separator
      simp at separator
    omega
  · exact before

/-- Where there are characters to read, the branches are found one after the other. -/
theorem read?_of_pos {reach : Nat} (room : 0 < reach) (s : Text) :
    let trueStop := trueLength reach s
    let falseStart := falseStartAt trueStop s
    read? reach s = some
      { trueStop, falseStart,
        bracket := ((bracket? (reach - falseStart) (s.drop falseStart)).map
          (falseStart + ·)).getD (reach - 2) } := by
  intro trueStop falseStart
  rw [read?, if_neg (Nat.ne_of_gt room)]
  rfl

/-- The true branch takes as much as it can, and what ends the false branch is searched behind
it. -/
theorem read?_eq_closer? {s : Text} (found : 0 < Text.reach s) :
    let trueStop := trueLength (Text.reach s) s
    read? (Text.reach s) s =
      (closer? (s.drop (falseStartAt trueStop s))).map fun offset =>
        ⟨trueStop, falseStartAt trueStop s, falseStartAt trueStop s + offset⟩ := by
  intro trueStop
  have before : trueStop < Text.reach s := trueLength_lt found s
  have short : falseStartAt trueStop s < Text.reach s := by
    have inside := falseStartAt_le (Text.getElem?_reach found) (Nat.le_sub_one_of_lt before)
    omega
  have ahead := Text.reach_drop short
  rw [read?_of_pos found, ← ahead]
  rcases closer?_cases (s.drop (falseStartAt trueStop s)) with
    ⟨unreached, _⟩ | ⟨offset, single, closes⟩ | ⟨absent, room, closes⟩
  · omega
  · rw [single, closes]
    rfl
  · rw [absent, closes, ahead]
    simp only [Option.map_none, Option.getD_none, Option.map_some]
    congr 2
    omega

/-- A unit in front only moves the branches. -/
theorem read?_reach_unit (unit : Text) {rest : Text} (found : 0 < Text.reach rest)
    (reaches : Text.reach (unit ++ rest) = unit.length + Text.reach rest)
    (taken : trueLength (Text.reach (unit ++ rest)) (unit ++ rest) =
      unit.length + trueLength (Text.reach rest) rest) :
    read? (Text.reach (unit ++ rest)) (unit ++ rest) =
      (read? (Text.reach rest) rest).map (shift unit.length) := by
  have start : falseStartAt (unit.length + trueLength (Text.reach rest) rest) (unit ++ rest) =
      unit.length + falseStartAt (trueLength (Text.reach rest) rest) rest := by
    simp only [falseStartAt, List.getElem?_append_right (Nat.le_add_right ..),
      Nat.add_sub_cancel_left]
    split <;> omega
  rw [read?_eq_closer? (by omega), read?_eq_closer? found, taken, start, ← List.drop_drop,
    List.drop_left, Option.map_map]
  congr 1
  funext offset
  simp [shift, Nat.add_assoc]

theorem closer?_eq_none_iff {s : Text} : closer? s = none ↔ Text.reach s = 0 := by
  rcases closer?_cases s with ⟨unreached, absent⟩ | ⟨offset, found, closes⟩ | ⟨_, room, closes⟩
  · simp [unreached, absent]
  · have reached := (isBracket_of_bracket? found).inside
    simp [closes]
    omega
  · simp [closes]
    omega

/-- A pair in front of branches only moves them. -/
theorem read?_reach_pair {c : Char} (delimiter : c = '|' ∨ c = '>') {rest : Text}
    (found : 0 < Text.reach rest) :
    read? (Text.reach (c :: c :: rest)) (c :: c :: rest) =
      (read? (Text.reach rest) rest).map (shift 2) := by
  have inner : Text.isLineBreak c = false := by rcases delimiter with rfl | rfl <;> rfl
  have reaches : Text.reach (c :: c :: rest) = Text.reach rest + 2 := by
    have once := Text.reach_cons inner found
    rw [Text.reach_cons inner (by omega), once]
  obtain ⟨reach, hr⟩ := Nat.exists_eq_add_one_of_ne_zero (Nat.ne_of_gt found)
  refine read?_reach_unit [c, c] found ?_ ?_
  · exact reaches.trans (Nat.add_comm ..)
  · show trueLength (Text.reach (c :: c :: rest)) (c :: c :: rest) = _
    rw [reaches, hr]
    exact trueLength_pair delimiter reach rest

/-- **Agreement.** Reading ahead to the last `>` of the line finds the branches of the text. -/
theorem read?_reach (s : Text) : read? (Text.reach s) s = ofText? s := by
  fun_induction ofText? s with
  | case1 rest ih =>
    rcases Nat.eq_zero_or_pos (Text.reach rest) with unreached | found
    · rw [unreached, read?_zero] at ih
      simp [Text.reach_plain, unreached, Text.isLineBreak, ← ih]
    · rw [read?_reach_pair (.inl rfl) found, ih]
  | case2 rest ih =>
    rcases Nat.eq_zero_or_pos (Text.reach rest) with unreached | found
    · rw [unreached, read?_zero] at ih
      simp [Text.reach_bracket, unreached, ← ih, read?, trueLength, bracket?]
    · rw [read?_reach_pair (.inr rfl) found, ih]
      cases h : ofText? rest with
      | some branches => rfl
      | none =>
        have some := (read?_isSome_iff (Text.reach rest) rest).2 found
        simp [ih, h] at some
  | case3 rest single =>
    have other := Text.head?_ne_some single
    rcases Nat.eq_zero_or_pos (Text.reach rest) with unreached | found
    · simp [Text.reach_plain, unreached, Text.isLineBreak, closer?_eq_none_iff.2 unreached]
    · rw [read?_eq_closer? (by rw [Text.reach_cons rfl found]; omega),
        trueLength_single (.inl rfl) other]
      rfl
  | case4 rest single =>
    have other := Text.head?_ne_some single
    rw [read?_eq_closer? (by rw [Text.reach_bracket]; omega), trueLength_single (.inr rfl) other,
      show falseStartAt 0 ('>' :: rest) = 0 from rfl, List.drop_zero, closer?_lone other]
    rfl
  | case5 c rest _ _ separator bracket ends =>
    rw [Text.reach_of_isLineBreak ends, read?_zero]
  | case6 c rest _ _ separator bracket inner ih =>
    have hs : c ≠ '|' := fun h => separator h
    have hb : c ≠ '>' := fun h => bracket h
    have inner : Text.isLineBreak c = false := by simpa using inner
    rcases Nat.eq_zero_or_pos (Text.reach rest) with unreached | found
    · rw [unreached, read?_zero] at ih
      simp [Text.reach_plain inner hb, unreached, ← ih]
    · rw [← ih]
      obtain ⟨reach, hr⟩ := Nat.exists_eq_add_one_of_ne_zero (Nat.ne_of_gt found)
      refine read?_reach_unit [c] found ?_ ?_
      · exact (Text.reach_cons inner found).trans (Nat.add_comm ..)
      · show trueLength (Text.reach (c :: rest)) (c :: rest) = _
        rw [Text.reach_cons inner found, hr]
        exact trueLength_plain hs hb reach rest
  | case7 => rfl

/-! ## What ends the branches -/

/-- **Existence.** There are branches exactly when the line has a `>`. -/
theorem ofText?_eq_none_iff {s : Text} : ofText? s = none ↔ Text.reach s = 0 := by
  have readable := read?_isSome_iff (Text.reach s) s
  rw [read?_reach] at readable
  rw [← Option.not_isSome_iff_eq_none, readable]
  omega

/-- What ends a false branch is a `>`. -/
theorem getElem?_of_closer? {s : Text} {offset : Nat} (closes : closer? s = some offset) :
    s[offset]? = some '>' := by
  fun_induction closer? s generalizing offset with
  | case1 rest ih =>
    obtain rfl := Option.some.inj closes
    cases hr : closer? rest with
    | none => rfl
    | some inner => simpa [Nat.add_comm 2] using ih hr
  | case2 rest single =>
    obtain rfl := Option.some.inj closes
    rfl
  | case3 c rest _ _ ends => simp at closes
  | case4 c rest _ _ inner ih =>
    obtain ⟨offset, hr, rfl⟩ := Option.map_eq_some_iff.1 closes
    simpa [Nat.add_comm 1] using ih hr
  | case5 => simp at closes

/-- How the branches of a tag end in the text after its `?`. -/
inductive EndIn (s : Text) : Branches → Prop where
  /-- A `|` ends the true branch, and the false branch runs up to what ends it. -/
  | separated {trueStop offset : Nat} : s[trueStop]? = some '|' →
      closer? (s.drop (trueStop + 1)) = some offset →
      EndIn s ⟨trueStop, trueStop + 1, trueStop + 1 + offset⟩
  /-- A `>` ends the true branch and with it the tag. -/
  | single {trueStop : Nat} : s[trueStop]? = some '>' → EndIn s ⟨trueStop, trueStop, trueStop⟩

theorem EndIn.shift {rest : Text} {branches : Branches} (ends : EndIn rest branches)
    (unit : Text) : EndIn (unit ++ rest) (branches.shift unit.length) := by
  cases ends with
  | @separated trueStop offset bar closes =>
    have moved : Branches.shift unit.length ⟨trueStop, trueStop + 1, trueStop + 1 + offset⟩ =
        ⟨unit.length + trueStop, unit.length + trueStop + 1,
          unit.length + trueStop + 1 + offset⟩ := by
      simp [Branches.shift, Nat.add_assoc]
    rw [moved]
    refine EndIn.separated ?_ ?_
    · rwa [List.getElem?_append_right (Nat.le_add_right ..), Nat.add_sub_cancel_left]
    · rw [Nat.add_assoc, ← List.drop_drop, List.drop_left]
      exact closes
  | single bracket =>
    refine EndIn.single ?_
    rwa [List.getElem?_append_right (Nat.le_add_right ..), Nat.add_sub_cancel_left]

theorem endIn_of_ofText? {s : Text} {branches : Branches} (found : ofText? s = some branches) :
    EndIn s branches := by
  fun_induction ofText? s generalizing branches with
  | case1 rest ih =>
    obtain ⟨inner, hr, rfl⟩ := Option.map_eq_some_iff.1 found
    exact (ih hr).shift ['|', '|']
  | case2 rest ih =>
    obtain rfl := Option.some.inj found
    cases hr : ofText? rest with
    | none => exact EndIn.single rfl
    | some inner => exact (ih hr).shift ['>', '>']
  | case3 rest single =>
    obtain ⟨offset, closes, rfl⟩ := Option.map_eq_some_iff.1 found
    exact @EndIn.separated _ 0 offset rfl closes
  | case4 rest single =>
    obtain rfl := Option.some.inj found
    exact EndIn.single rfl
  | case5 c rest _ _ _ _ ends => simp at found
  | case6 c rest _ _ _ _ inner ih =>
    obtain ⟨inner, hr, rfl⟩ := Option.map_eq_some_iff.1 found
    exact (ih hr).shift [c]
  | case7 => simp at found

/-- What ends the branches is a `>`. -/
theorem EndIn.getElem?_bracket {s : Text} {branches : Branches} (ends : EndIn s branches) :
    s[branches.bracket]? = some '>' := by
  cases ends with
  | separated bar closes =>
    have bracket := getElem?_of_closer? closes
    rwa [List.getElem?_drop] at bracket
  | single bracket => exact bracket

theorem EndIn.bracket_lt {s : Text} {branches : Branches} (ends : EndIn s branches) :
    branches.bracket < s.length :=
  (List.getElem?_eq_some_iff.1 ends.getElem?_bracket).1

theorem EndIn.falseStart_le_bracket {s : Text} {branches : Branches} (ends : EndIn s branches) :
    branches.falseStart ≤ branches.bracket := by
  cases ends with
  | separated => exact Nat.le_add_right ..
  | single => exact Nat.le_refl _

theorem EndIn.trueStop_le_falseStart {s : Text} {branches : Branches} (ends : EndIn s branches) :
    branches.trueStop ≤ branches.falseStart := by
  cases ends with
  | separated => exact Nat.le_add_right ..
  | single => exact Nat.le_refl _

/-! ## Cutting off what comes after a tag -/

theorem EndIn.trueText_append {s : Text} {branches : Branches} (ends : EndIn s branches)
    (after : Text) : branches.trueText (s ++ after) = branches.trueText s := by
  have inside := ends.bracket_lt
  have before := Nat.le_trans ends.trueStop_le_falseStart ends.falseStart_le_bracket
  rw [trueText, trueText, List.take_append_of_le_length (by omega)]

theorem EndIn.falseText_append {s : Text} {branches : Branches} (ends : EndIn s branches)
    (after : Text) : branches.falseText (s ++ after) = branches.falseText s := by
  have inside := ends.bracket_lt
  have before := ends.falseStart_le_bracket
  rw [falseText, falseText, List.drop_append_of_le_length (by omega),
    List.take_append_of_le_length (by rw [List.length_drop]; omega)]

/-- Without what comes after its end, a false branch ends where it did. -/
theorem closer?_of_append {s after : Text} {offset : Nat}
    (closes : closer? (s ++ after) = some offset) (inside : offset < s.length) :
    closer? s = some offset := by
  fun_induction closer? s generalizing offset with
  | case1 rest ih =>
    simp only [List.cons_append, closer?_pair, Option.some.injEq] at closes
    subst closes
    cases hr : closer? (rest ++ after) with
    | none =>
      -- with the rest of the line there is no `>` behind the pair, and none without it
      have unreached := Text.reach_of_append (closer?_eq_none_iff.1 hr)
      rw [closer?_eq_none_iff.2 unreached, Option.elim_none]
    | some inner =>
      simp only [hr, Option.elim_some, List.length_cons] at inside
      rw [ih hr (by omega), Option.elim_some]
  | case2 rest single =>
    cases rest with
    | nil =>
      obtain rfl : offset = 0 := by simpa using inside
      rfl
    | cons d rest =>
      have other : (d :: (rest ++ after)).head? ≠ some '>' := by
        intro h
        exact single rest (by rw [Option.some.inj h])
      rw [← closes]
      exact (closer?_lone other).symm
  | case3 c rest _ _ ends =>
    rw [List.cons_append, closer?_of_isLineBreak ends] at closes
    simp at closes
  | case4 c rest _ bracket inner ih =>
    have other : c ≠ '>' := fun h => bracket h
    rw [List.cons_append, closer?_plain (by simpa using inner) other] at closes
    obtain ⟨offset, hr, rfl⟩ := Option.map_eq_some_iff.1 closes
    rw [List.length_cons] at inside
    rw [ih hr (by omega)]
    rfl
  | case5 => simp at inside

/-- **Cutting.** Without what comes after the tag, its branches end where they did. -/
theorem ofText?_of_append {s after : Text} {branches : Branches}
    (found : ofText? (s ++ after) = some branches) (inside : branches.bracket < s.length) :
    ofText? s = some branches := by
  fun_induction ofText? s generalizing branches with
  | case1 rest ih =>
    rw [List.cons_append, List.cons_append, ofText?_bars] at found
    obtain ⟨inner, hr, rfl⟩ := Option.map_eq_some_iff.1 found
    simp only [shift, List.length_cons] at inside
    rw [ih hr (by omega)]
    rfl
  | case2 rest ih =>
    simp only [List.cons_append, ofText?_brackets, Option.some.injEq] at found
    subst found
    cases hr : ofText? (rest ++ after) with
    | none =>
      have unreached := Text.reach_of_append (ofText?_eq_none_iff.1 hr)
      rw [ofText?_eq_none_iff.2 unreached, Option.elim_none]
    | some inner =>
      simp only [hr, Option.elim_some, shift, List.length_cons] at inside
      rw [ih hr (by omega), Option.elim_some]
  | case3 rest single =>
    cases rest with
    | nil =>
      -- the tag would end at the separator itself
      have bracket := (endIn_of_ofText? found).getElem?_bracket
      rw [List.length_singleton, Nat.lt_one_iff] at inside
      rw [inside] at bracket
      simp at bracket
    | cons d rest =>
      have other : (d :: (rest ++ after)).head? ≠ some '|' := by
        intro h
        exact single rest (by rw [Option.some.inj h])
      rw [List.cons_append, List.cons_append, ofText?_separator other] at found
      obtain ⟨offset, closes, rfl⟩ := Option.map_eq_some_iff.1 found
      simp only [List.length_cons] at inside
      rw [closer?_of_append closes (by rw [List.length_cons]; omega)]
      rfl
  | case4 rest single =>
    cases rest with
    | nil =>
      cases endIn_of_ofText? found with
      | separated => simp at inside
      | @single trueStop =>
        obtain rfl : trueStop = 0 := by simpa using inside
        rfl
    | cons d rest =>
      have other : (d :: (rest ++ after)).head? ≠ some '>' := by
        intro h
        exact single rest (by rw [Option.some.inj h])
      rw [← found]
      exact (ofText?_lone other).symm
  | case5 c rest _ _ _ _ ends =>
    rw [List.cons_append, ofText?_of_isLineBreak ends] at found
    simp at found
  | case6 c rest _ _ separator bracket inner ih =>
    have hs : c ≠ '|' := fun h => separator h
    have hb : c ≠ '>' := fun h => bracket h
    rw [List.cons_append, ofText?_plain (by simpa using inner) hs hb] at found
    obtain ⟨inner, hr, rfl⟩ := Option.map_eq_some_iff.1 found
    simp only [shift, List.length_cons] at inside
    rw [ih hr (by omega)]
    rfl
  | case7 => simp at inside

end Branches

end Waymark
