import Waymark.Proofs.Pattern
import Waymark.Proofs.Tag.Reading
import Waymark.Tag.Grammar

/-!
# Tags are the preferred matches of their grammar

The grammar of tags takes as many units as it can and gives some back where the tag could not end
otherwise. The scan never gives anything back, and finds the same.
-/

namespace Waymark

namespace Tag

open Pattern

variable {α : Type}

/-! ## The units of a false branch -/

private theorem consumes_pair (c : Char) : (pair c).Consumes :=
  (consumes_one _).sequence (consumes_one _)

private theorem consumes_falseUnit : falseUnit.Consumes :=
  (consumes_pair '>').choice (consumes_one _)

private theorem consumes_trueUnit : trueUnit.Consumes :=
  (consumes_pair '|').choice ((consumes_pair '>').choice (consumes_one _))

theorem tries_pair (c : Char) (s : Text) (next : Success Part → Option α) :
    (pair c).tries s next =
      match s with
      | a :: b :: rest => if a = c ∧ b = c then next ⟨[], rest⟩ else none
      | _ => none := by
  rw [pair, tries_sequence, char]
  cases s with
  | nil => rfl
  | cons a rest =>
    rw [tries_one_cons]
    cases rest with
    | nil => simp
    | cons b rest =>
      rw [tries_one_cons]
      by_cases ha : a = c
      · by_cases hb : b = c
        · simp only [ha, hb, beq_self_eq_true, if_true, and_self]
          rfl
        · simp [ha, hb]
      · simp [ha]

theorem tries_falseUnit_pair (rest : Text) (next : Success Part → Option α) :
    falseUnit.tries ('>' :: '>' :: rest) next = next ⟨[], rest⟩ := by
  rw [falseUnit, tries_choice, tries_pair, tries_one_cons]
  simp [plainBut]

theorem tries_falseUnit_lone {rest : Text} (single : rest.head? ≠ some '>')
    (next : Success Part → Option α) : falseUnit.tries ('>' :: rest) next = none := by
  rw [falseUnit, tries_choice, tries_pair, tries_one_cons]
  cases rest with
  | nil => simp [plainBut]
  | cons d rest =>
    have other : d ≠ '>' := fun h => single (by simp [h])
    simp [plainBut, other]

theorem tries_falseUnit_plain {c : Char} (other : c ≠ '>') (rest : Text)
    (next : Success Part → Option α) :
    falseUnit.tries (c :: rest) next =
      if Text.isLineBreak c then none else next ⟨[], rest⟩ := by
  rw [falseUnit, tries_choice, tries_pair, tries_one_cons]
  cases ends : Text.isLineBreak c <;> cases rest <;> simp [plainBut, other, ends]

/-- What comes after the units of a false branch: a `>`. -/
structure EndsFalse (next : Success Part → Option α) : Prop where
  bracket : ∀ rest, (next ⟨[], '>' :: rest⟩).isSome
  other : ∀ s, s.head? ≠ some '>' → next ⟨[], s⟩ = none

/-- To take as many units of a false branch as possible, and then to give back as few as the `>`
needs, is to look for what ends the branch. -/
theorem tries_falseUnits {next : Success Part → Option α} (ends : EndsFalse next) (s : Text) :
    (many falseUnit).tries s next =
      (Branches.closer? s).bind fun offset => next ⟨[], s.drop offset⟩ := by
  fun_induction Branches.closer? s with
  | case1 rest ih =>
    rw [consumes_falseUnit.tries_many, tries_falseUnit_pair]
    show ((many falseUnit).tries rest next).or _ = _
    rw [ih]
    cases found : Branches.closer? rest with
    | none =>
      -- nothing behind the pair ends the tag: it is given back, and its first half does
      rfl
    | some offset =>
      -- behind the pair the tag can end, and so the pair is not given back
      have goes := ends.bracket (rest.drop (offset + 1))
      rw [← Text.drop_of_getElem? (Branches.getElem?_of_closer? found)] at goes
      rw [Option.bind_some, Option.or_of_isSome goes, Option.elim_some, Option.bind_some,
        Nat.add_comm 2]
      rfl
  | case2 rest single =>
    have alone := Text.head?_ne_some single
    rw [consumes_falseUnit.tries_many, tries_falseUnit_lone alone]
    rfl
  | case3 c rest _ bracket breaks =>
    have hb : c ≠ '>' := fun h => bracket h
    -- no unit takes a line break, and no tag ends before one
    rw [consumes_falseUnit.tries_many, tries_falseUnit_plain hb, if_pos breaks,
      ends.other _ (by simpa using hb)]
    rfl
  | case4 c rest _ bracket inner ih =>
    have hb : c ≠ '>' := fun h => bracket h
    rw [consumes_falseUnit.tries_many, tries_falseUnit_plain hb, if_neg inner,
      ends.other _ (by simpa using hb), Option.or_none]
    show (many falseUnit).tries rest next = _
    rw [ih, Option.bind_map]
    simp only [Function.comp_def, Nat.add_comm 1, List.drop_succ_cons]
  | case5 =>
    rw [consumes_falseUnit.tries_many, ends.other [] (by simp)]
    rfl

/-! ## The units of a true branch -/

theorem tries_trueUnit_pair {c : Char} (delimiter : c = '|' ∨ c = '>') (rest : Text)
    (next : Success Part → Option α) : trueUnit.tries (c :: c :: rest) next = next ⟨[], rest⟩ := by
  rw [trueUnit, tries_choice, tries_choice, tries_pair, tries_pair, tries_one_cons]
  rcases delimiter with rfl | rfl <;> simp [plainBut]

theorem tries_trueUnit_lone {c : Char} (delimiter : c = '|' ∨ c = '>') {rest : Text}
    (single : rest.head? ≠ some c) (next : Success Part → Option α) :
    trueUnit.tries (c :: rest) next = none := by
  rw [trueUnit, tries_choice, tries_choice, tries_pair, tries_pair, tries_one_cons]
  cases rest with
  | nil => rcases delimiter with rfl | rfl <;> simp [plainBut]
  | cons d rest =>
    have other : d ≠ c := fun h => single (by simp [h])
    rcases delimiter with rfl | rfl <;> simp [plainBut, other]

theorem tries_trueUnit_plain {c : Char} (separator : c ≠ '|') (bracket : c ≠ '>') (rest : Text)
    (next : Success Part → Option α) :
    trueUnit.tries (c :: rest) next = if Text.isLineBreak c then none else next ⟨[], rest⟩ := by
  rw [trueUnit, tries_choice, tries_choice, tries_pair, tries_pair, tries_one_cons]
  cases ends : Text.isLineBreak c <;> cases rest <;> simp [plainBut, separator, bracket, ends]

/-- What comes after the units of a true branch: a `|` and what a `>` ends, or a `>`. -/
structure EndsTrue (next : Success Part → Option α) : Prop where
  separator : ∀ rest, (next ⟨[], '|' :: rest⟩).isSome ↔ 0 < Text.reach rest
  bracket : ∀ rest, (next ⟨[], '>' :: rest⟩).isSome
  other : ∀ s, s.head? ≠ some '|' → s.head? ≠ some '>' → next ⟨[], s⟩ = none

/-- Behind the true branch that is read, the tag can end. -/
theorem EndsTrue.goes {next : Success Part → Option α} (ends : EndsTrue next) {s : Text}
    {branches : Branches} (found : Branches.ofText? s = some branches) :
    (next ⟨[], s.drop branches.trueStop⟩).isSome := by
  cases Branches.endIn_of_ofText? found with
  | separated bar closes =>
    rw [Text.drop_of_getElem? bar, ends.separator]
    apply Nat.pos_of_ne_zero
    intro unreached
    rw [Branches.closer?_eq_none_iff.2 unreached] at closes
    simp at closes
  | single bracket =>
    rw [Text.drop_of_getElem? bracket]
    exact ends.bracket _

/-- To take as many units of a true branch as possible, and then to give back as few as the rest of
the tag needs, is to look for the branches of the text. -/
theorem tries_trueUnits {next : Success Part → Option α} (ends : EndsTrue next) (s : Text) :
    (many trueUnit).tries s next =
      (Branches.ofText? s).bind fun branches => next ⟨[], s.drop branches.trueStop⟩ := by
  fun_induction Branches.ofText? s with
  | case1 rest ih =>
    rw [consumes_trueUnit.tries_many, tries_trueUnit_pair (.inl rfl)]
    show ((many trueUnit).tries rest next).or _ = _
    rw [ih]
    cases found : Branches.ofText? rest with
    | none =>
      -- without a `>` ahead, nothing comes of giving the pair back
      have unreached := Branches.ofText?_eq_none_iff.1 found
      rw [Option.bind_none, Option.none_or, Option.map_none, Option.bind_none,
        ← Option.not_isSome_iff_eq_none, ends.separator, Text.reach_plain rfl (by decide),
        if_pos unreached]
      exact Nat.lt_irrefl 0
    | some branches =>
      -- what comes behind the pair ends the tag, and so the pair is kept
      rw [Option.bind_some, Option.or_of_isSome (ends.goes found), Option.map_some,
        Option.bind_some]
      simp only [Branches.shift, Nat.add_comm 2, List.drop_succ_cons]
  | case2 rest ih =>
    rw [consumes_trueUnit.tries_many, tries_trueUnit_pair (.inr rfl)]
    show ((many trueUnit).tries rest next).or _ = _
    rw [ih]
    cases found : Branches.ofText? rest with
    | none => rfl
    | some branches =>
      rw [Option.bind_some, Option.or_of_isSome (ends.goes found), Option.elim_some,
        Option.bind_some]
      simp only [Branches.shift, Nat.add_comm 2, List.drop_succ_cons]
  | case3 rest single =>
    have alone := Text.head?_ne_some single
    rw [consumes_trueUnit.tries_many, tries_trueUnit_lone (.inl rfl) alone, Option.none_or]
    cases closes : Branches.closer? rest with
    | none =>
      rw [Option.map_none, Option.bind_none, ← Option.not_isSome_iff_eq_none, ends.separator,
        Branches.closer?_eq_none_iff.1 closes]
      exact Nat.lt_irrefl 0
    | some offset => rfl
  | case4 rest single =>
    have alone := Text.head?_ne_some single
    rw [consumes_trueUnit.tries_many, tries_trueUnit_lone (.inr rfl) alone]
    rfl
  | case5 c rest _ _ separator bracket breaks =>
    have hs : c ≠ '|' := fun h => separator h
    have hb : c ≠ '>' := fun h => bracket h
    rw [consumes_trueUnit.tries_many, tries_trueUnit_plain hs hb, if_pos breaks,
      ends.other _ (by simpa using hs) (by simpa using hb)]
    rfl
  | case6 c rest _ _ separator bracket inner ih =>
    have hs : c ≠ '|' := fun h => separator h
    have hb : c ≠ '>' := fun h => bracket h
    rw [consumes_trueUnit.tries_many, tries_trueUnit_plain hs hb, if_neg inner,
      ends.other _ (by simpa using hs) (by simpa using hb), Option.or_none]
    show (many trueUnit).tries rest next = _
    rw [ih, Option.bind_map]
    simp only [Function.comp_def, Branches.shift, Nat.add_comm 1, List.drop_succ_cons]
  | case7 =>
    rw [consumes_trueUnit.tries_many, ends.other [] (by simp) (by simp)]
    rfl

/-! ## The whole tag -/

/-- Digits are never given back where no digit may come next. -/
theorem tries_manyDigits {next : Success Part → Option α}
    (refuses : ∀ c rest, c.isDigit = true → next ⟨[], c :: rest⟩ = none) (s : Text) :
    (many (one Char.isDigit)).tries s next = next ⟨[], s.dropWhile Char.isDigit⟩ := by
  induction s with
  | nil =>
    rw [(consumes_one _).tries_many, tries_one_nil]
    rfl
  | cons c rest ih =>
    rw [(consumes_one _).tries_many, tries_one_cons]
    cases digit : c.isDigit with
    | true =>
      -- to give the digit back would leave it to `next`, which refuses it
      rw [if_pos rfl]
      show ((many (one Char.isDigit)).tries rest next).or _ = _
      rw [ih, refuses c rest digit, Option.or_none, List.dropWhile_cons_of_pos digit]
    | false =>
      rw [List.dropWhile_cons_of_neg (by simp [digit])]
      rfl

theorem tries_digits {next : Success Part → Option α}
    (refuses : ∀ c rest, c.isDigit = true → next ⟨[], c :: rest⟩ = none) (s : Text) :
    digits.tries s next =
      if s.takeWhile Char.isDigit = [] then none else next ⟨[], s.dropWhile Char.isDigit⟩ := by
  rw [digits, tries_sequence]
  cases s with
  | nil => rfl
  | cons c rest =>
    rw [tries_one_cons]
    cases digit : c.isDigit with
    | true =>
      rw [List.takeWhile_cons_of_pos digit, List.dropWhile_cons_of_pos digit,
        if_neg (List.cons_ne_nil _ _)]
      exact tries_manyDigits refuses rest
    | false =>
      rw [List.takeWhile_cons_of_neg (by simp [digit])]
      rfl

/-- What comes after an opener. -/
def afterOpener? : Text → Option Text
  | '<' :: 'x' :: ':' :: rest => some rest
  | '<' :: 'X' :: ':' :: rest => some rest
  | _ => none

theorem read?_eq_afterOpener? (s : Text) : Head.read? s = (afterOpener? s).bind Head.ofDigits? := by
  fun_cases afterOpener? s with
  | case1 rest => rfl
  | case2 rest => rfl
  | case3 =>
    rw [Head.read?.eq_def]
    split <;> simp_all

theorem tries_opener (s : Text) (next : Success Part → Option α) :
    opener.tries s next = (afterOpener? s).bind fun rest => next ⟨[], rest⟩ := by
  rw [opener, tries_sequence]
  -- the three characters one after another; where one differs, both sides fail
  by_cases h0 : s.head? = some '<'
  · obtain ⟨s, rfl⟩ := List.head?_eq_some_iff.1 h0
    rw [tries_char_cons, tries_sequence]
    cases s with
    | nil => rfl
    | cons letter s =>
      rw [tries_one_cons]
      by_cases h1 : letter = 'x' ∨ letter = 'X'
      · rw [if_pos (by simpa using h1)]
        by_cases h2 : s.head? = some ':'
        · obtain ⟨rest, rfl⟩ := List.head?_eq_some_iff.1 h2
          rw [tries_char_cons]
          rcases h1 with rfl | rfl <;> rfl
        · rw [tries_char_other h2, afterOpener?.eq_def]
          split <;> simp_all
      · rw [if_neg (by simpa using h1), afterOpener?.eq_def]
        split <;> simp_all
  · rw [tries_char_other h0, afterOpener?.eq_def]
    split <;> simp_all

/-- What was captured in front of a place is the text up to there. -/
theorem captured (s : Text) (offset : Nat) :
    s.take (s.length - (s.drop offset).length) = s.take offset := by
  rw [List.length_drop, List.take_eq_take_iff]
  omega

/-- What comes after the last branch: the `>` that ends the tag. -/
def close (answer : Success Part → α) (done : Success Part) : Option α :=
  (char '>').tries done.rest fun last => some (answer (done.join last))

theorem close_bracket (answer : Success Part → α) (captures : List (Part × Text)) (after : Text) :
    close answer ⟨captures, '>' :: after⟩ = some (answer ⟨captures, after⟩) := by
  rw [close, tries_char_cons, Success.join, List.append_nil]

theorem close_other (answer : Success Part → α) (captures : List (Part × Text)) {s : Text}
    (other : s.head? ≠ some '>') : close answer ⟨captures, s⟩ = none :=
  tries_char_other other _

/-- What comes after the true branch: a false branch and the end of the tag, or the end alone. -/
def afterTrue (answer : Success Part → α) (captures : List (Part × Text)) (s : Text) : Option α :=
  ((sequence (char '|') (capture .falseBranch (many falseUnit))).tries s fun last =>
      close answer ⟨captures ++ last.captures, last.rest⟩).or
    (close answer ⟨captures, s⟩)

theorem afterTrue_separator (answer : Success Part → α) (captures : List (Part × Text))
    (rest : Text) :
    afterTrue answer captures ('|' :: rest) = (Branches.closer? rest).map fun offset =>
      answer ⟨captures ++ [(.falseBranch, rest.take offset)], rest.drop (offset + 1)⟩ := by
  rw [afterTrue, close_other answer captures (by simp), Option.or_none, tries_sequence,
    tries_char_cons, tries_capture, tries_falseUnits]
  · cases closes : Branches.closer? rest with
    | none => rfl
    | some offset =>
      have ending := Text.drop_of_getElem? (Branches.getElem?_of_closer? closes)
      simp only [Option.bind_some, captured, Success.join, List.nil_append, ending, close_bracket,
        Option.map_some]
  · refine ⟨?_, ?_⟩
    · intro after
      simp [Success.join, close_bracket]
    · intro s other
      exact close_other answer _ other

theorem afterTrue_bracket (answer : Success Part → α) (captures : List (Part × Text))
    (after : Text) :
    afterTrue answer captures ('>' :: after) = some (answer ⟨captures, after⟩) := by
  rw [afterTrue, close_bracket, tries_sequence, tries_char_other (by simp), Option.none_or]

theorem afterTrue_other (answer : Success Part → α) (captures : List (Part × Text)) {s : Text}
    (bar : s.head? ≠ some '|') (bracket : s.head? ≠ some '>') :
    afterTrue answer captures s = none := by
  rw [afterTrue, close_other answer captures bracket, tries_sequence, tries_char_other bar,
    Option.none_or]

/-- The captures of the branches of a tag, where `body` comes after its `?`. -/
def branchCaptures (body : Text) (found : Branches) : List (Part × Text) :=
  (.trueBranch, found.trueText body) ::
    if found.falseStart = found.trueStop then [] else [(.falseBranch, found.falseText body)]

/-- The branches of a tag, and the end of the tag. -/
theorem tries_branches (answer : Success Part → α) (body : Text) :
    branches.tries ('?' :: body) (close answer) =
      (Branches.ofText? body).map fun found =>
        answer ⟨branchCaptures body found, body.drop (found.bracket + 1)⟩ := by
  have unfolded : branches.tries ('?' :: body) (close answer) =
      (many trueUnit).tries body fun done =>
        afterTrue answer
          ((.trueBranch, body.take (body.length - done.rest.length)) :: done.captures) done.rest := by
    rw [branches, tries_sequence, tries_char_cons, tries_sequence, tries_capture]
    simp only [tries_optional, Success.join, List.nil_append, List.append_nil]
    rfl
  rw [unfolded, tries_trueUnits]
  · -- what the branches of the text are is what the two ways to go on find
    cases found : Branches.ofText? body with
    | none => rfl
    | some branches =>
      rw [Option.bind_some, Option.map_some, captured]
      cases Branches.endIn_of_ofText? found with
      | separated bar closes =>
        rw [Text.drop_of_getElem? bar, afterTrue_separator, closes]
        simp [branchCaptures, Branches.trueText, Branches.falseText, ← Nat.add_assoc]
      | single bracket =>
        rw [Text.drop_of_getElem? bracket, afterTrue_bracket]
        simp [branchCaptures, Branches.trueText]
  · refine ⟨?_, ?_, ?_⟩
    · intro rest
      rw [afterTrue_separator, Option.isSome_map, Nat.pos_iff_ne_zero, ne_eq,
        ← Branches.closer?_eq_none_iff]
      exact Option.isSome_iff_ne_none
    · intro rest
      rw [afterTrue_bracket]
      rfl
    · intro s bar bracket
      exact afterTrue_other answer _ bar bracket

/-- What comes after the identifier of a tag. -/
theorem tries_ending (answer : Success Part → α) (s : Text) :
    (sequence (optional branches) (char '>')).tries s (fun done => some (answer done)) =
      match s with
      | '>' :: after => some (answer ⟨[], after⟩)
      | '?' :: body => (Branches.ofText? body).map fun found =>
          answer ⟨branchCaptures body found, body.drop (found.bracket + 1)⟩
      | _ => none := by
  have unfolded : (sequence (optional branches) (char '>')).tries s (fun done => some (answer done)) =
      (branches.tries s (close answer)).or (close answer ⟨[], s⟩) := by
    rw [tries_sequence, tries_optional]
    rfl
  rw [unfolded]
  split
  · rw [close_bracket, branches, tries_sequence, tries_char_other (by simp), Option.none_or]
  · rw [close_other answer _ (by simp), Option.or_none, tries_branches]
  · rename_i bracket mark
    have hb := Text.head?_ne_some bracket
    have hm := Text.head?_ne_some mark
    rw [close_other answer _ hb, branches, tries_sequence, tries_char_other hm, Option.none_or]

/-- What comes after the opener of a tag. -/
theorem tries_afterOpener (answer : Success Part → α) (s : Text) :
    (sequence (capture .identifier digits) (sequence (optional branches) (char '>'))).tries s
        (fun done => some (answer done)) =
      match Head.ofDigits? s with
      | none => none
      | some (.closed identifier) =>
          some (answer ⟨[(.identifier, identifier)], s.drop (identifier.length + 1)⟩)
      | some (.branched identifier body) => (Branches.ofText? body).map fun found =>
          answer ⟨(.identifier, identifier) :: branchCaptures body found,
            body.drop (found.bracket + 1)⟩ := by
  rw [tries_sequence, tries_capture]
  simp only [tries_ending, Success.join]
  rw [tries_digits]
  · rw [Head.ofDigits?_eq]
    have split := @List.takeWhile_append_dropWhile _ Char.isDigit s
    generalize s.takeWhile Char.isDigit = identifier at split ⊢
    generalize s.dropWhile Char.isDigit = after at split ⊢
    subst split
    have taken : (identifier ++ after).take ((identifier ++ after).length - after.length) =
        identifier := by
      simp
    by_cases empty : identifier = []
    · rw [if_pos empty, if_pos empty]
    · rw [if_neg empty, if_neg empty]
      simp only [taken, List.append_nil]
      split
      · simp
      · rfl
      · split <;> simp_all
  · -- behind the identifier no digit may come, neither a `>` nor a `?` being one
    intro c rest digit
    split
    · rename_i heq
      obtain ⟨rfl, -⟩ := List.cons.inj heq
      simp at digit
    · rename_i heq
      obtain ⟨rfl, -⟩ := List.cons.inj heq
      simp at digit
    · rfl

/-- The tag that the first success at a place stands for, where `s` is the text from `pos` on. -/
def ofSuccess (pos : Nat) (s : Text) (done : Success Part) : Tag where
  identifier := (done.captures.lookup .identifier).getD []
  trueBranch := (done.captures.lookup .trueBranch).bind branch?
  falseBranch := (done.captures.lookup .falseBranch).bind branch?
  start := pos
  stop := pos + (s.length - done.rest.length)
  raw := s.take (s.length - done.rest.length)

theorem eq_of_afterOpener? {s rest : Text} (opened : afterOpener? s = some rest) :
    ∃ letter, s = '<' :: letter :: ':' :: rest := by
  unfold afterOpener? at opened
  split at opened
  · exact ⟨_, by rw [Option.some.inj opened]⟩
  · exact ⟨_, by rw [Option.some.inj opened]⟩
  · simp at opened

theorem ofSuccess_closed (pos : Nat) (letter : Char) (identifier after : Text) :
    let s := '<' :: letter :: ':' :: (identifier ++ '>' :: after)
    ofSuccess pos s ⟨[(.identifier, identifier)], after⟩ = ofClosed pos s identifier := by
  intro s
  have width : s.length - after.length = identifier.length + 4 := by
    simp [s]
    omega
  simp only [ofSuccess, width, ofClosed]
  rfl

theorem ofSuccess_branched (pos : Nat) (letter : Char) (identifier : Text) {body : Text}
    {found : Branches} (ends : Branches.EndIn body found) :
    let s := '<' :: letter :: ':' :: (identifier ++ '?' :: body)
    ofSuccess pos s
        ⟨(.identifier, identifier) :: branchCaptures body found, body.drop (found.bracket + 1)⟩ =
      ofBranches pos s identifier body found := by
  intro s
  have inside := ends.bracket_lt
  have width : s.length - (body.drop (found.bracket + 1)).length =
      identifier.length + 4 + found.bracket + 1 := by
    simp [s]
    omega
  have second : ((branchCaptures body found).lookup .falseBranch).bind branch? =
      branch? (found.falseText body) := by
    cases ends with
    | separated bar closes =>
      simp only [branchCaptures, Nat.add_eq_left, Nat.one_ne_zero, if_false]
      rfl
    | single bracket =>
      simp only [branchCaptures, if_true, Branches.falseText, Nat.sub_self, List.take_zero]
      rfl
  simp only [ofSuccess, width, ofBranches]
  congr 1

/-- **The preferred match at a place is the tag there.** -/
theorem map_first?_pattern (pos : Nat) (s : Text) :
    (pattern.first? s).map (ofSuccess pos s) = at? pos s := by
  rw [first?_eq_tries, pattern, tries_sequence, tries_opener, at?, read?_eq_afterOpener?]
  cases opened : afterOpener? s with
  | none => rfl
  | some rest =>
    rw [Option.bind_some, Option.bind_some,
      tries_afterOpener fun last => Success.join ⟨[], rest⟩ last]
    obtain ⟨letter, rfl⟩ := eq_of_afterOpener? opened
    cases head : Head.ofDigits? rest with
    | none => rfl
    | some first =>
      rcases Head.eq_of_ofDigits? head with ⟨identifier, after, rfl, rfl, -⟩ |
        ⟨identifier, body, rfl, rfl, -⟩
      · have behind : (identifier ++ '>' :: after).drop (identifier.length + 1) = after := by simp
        simp only [Option.map_some, behind]
        exact congrArg some (ofSuccess_closed pos letter identifier after)
      · simp only [Option.map_map]
        cases found : Branches.ofText? body with
        | none => rfl
        | some branches =>
          have ends := Branches.endIn_of_ofText? found
          exact congrArg some (ofSuccess_branched pos letter identifier ends)

/-! ## The whole text -/

/-- What the search has found from a place on is what the scan finds there. -/
theorem map_findAllFrom_pattern {whole : Text} (pos skip : Nat) {s : Text}
    (here : whole.drop pos = s) :
    (pattern.findAllFrom pos skip s).map (ofMatch whole) = tagsFrom none pos skip s := by
  induction s generalizing pos skip with
  | nil => cases skip <;> rfl
  | cons c rest ih =>
    have next : whole.drop (pos + 1) = rest := by
      rw [← List.drop_drop, here, List.drop_succ_cons, List.drop_zero]
    cases skip with
    | succ skip => exact ih (pos + 1) skip next
    | zero =>
      have preferred := map_first?_pattern pos (c :: rest)
      rw [findAllFrom]
      cases found : pattern.first? (c :: rest) with
      | none =>
        rw [found, Option.map_none] at preferred
        rw [tagsFrom_of_absent preferred.symm]
        exact ih (pos + 1) 0 next
      | some done =>
        rw [found, Option.map_some] at preferred
        have same : ofMatch whole
            ⟨pos, pos + ((c :: rest).length - done.rest.length), done.captures⟩ =
              ofSuccess pos (c :: rest) done := by
          rw [ofMatch, here, Nat.add_sub_cancel_left]
          rfl
        have width : (ofSuccess pos (c :: rest) done).stop - (pos + 1) =
            (c :: rest).length - done.rest.length - 1 := by
          show pos + ((c :: rest).length - done.rest.length) - (pos + 1) = _
          omega
        rw [tagsFrom_of_found preferred.symm, width, ← same]
        exact congrArg _ (ih (pos + 1) _ next)

end Tag

/-- **Grammar.** The tags of a text are the leftmost matches of the grammar of tags that do not
overlap, each the preferred one at its place. -/
theorem tags_eq_findAll (s : Text) : tags s = (Tag.pattern.findAll s).map (Tag.ofMatch s) :=
  (Tag.map_findAllFrom_pattern 0 0 List.drop_zero).symm

/-- Where the pair before the last `>` would leave nothing to end the tag, it is given back. -/
example : (Tag.pattern.findAll "<x:1?a>>".toList).map (Tag.ofMatch "<x:1?a>>".toList) =
    [{ identifier := ['1'], trueBranch := some ['a'], falseBranch := none, start := 0, stop := 7,
       raw := "<x:1?a>".toList }] := by
  decide

end Waymark
