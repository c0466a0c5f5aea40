import Mathlib.Data.List.Forall2
import Waymark.Proofs.Tag.Reading
import Waymark.Tag.Measuring

/-!
# Lines that are kept tell the truth

A scan measures a line once and keeps it while the position moves on. Asked at positions that do not
go back, a kept line says of each position what is ahead of it:

* **lines** — where the line ends, and which `>` of it is the last one, if there is one at or behind
  the position (`ahead_of_knows`);
* **positions** — the scan asks only at positions that move on (`asks_tagsBy`), for behind an opener
  that fails no other one begins before its branches;
* **agreement** — so a scan that keeps lines finds the tags of one that measures each line anew
  (`run_tagsBy_keep`, `tagsBy_measure`).

Taken together: `kept_line_transparent`.
-/

namespace Waymark

/-! ## What is ahead of a position -/

/-- Behind the last `>` of a text there is no other one. -/
theorem Text.ne_bracket_of_lastBracket?_lt {s : Text} {last offset : Nat}
    (found : lastBracket? s = some last) (behind : last < offset) : s[offset]? ≠ some '>' := by
  induction s generalizing last offset with
  | nil => simp [lastBracket?] at found
  | cons c rest ih =>
    obtain ⟨inner, rfl⟩ : ∃ inner, offset = inner + 1 := ⟨offset - 1, by omega⟩
    rw [List.getElem?_cons_succ]
    cases later : lastBracket? rest with
    | some other =>
      simp only [lastBracket?, later, Option.some.injEq] at found
      exact ih later (by omega)
    | none =>
      intro here
      exact lastBracket?_eq_none_iff.1 later (List.mem_of_getElem? here)

namespace Line

/-- The line tells what is ahead of a position: where the line ends there, and the last `>` before
its end. The line may have been measured further back, and then its last `>` may lie behind the
position; if so there is none ahead. -/
structure Ahead (s : Text) (pos : Nat) (line : Line) : Prop where
  ends : Text.LineEnd s pos line.stop
  bracket_iff : (∃ last, line.bracket? = some last ∧ pos ≤ last) ↔
    ∃ offset, pos ≤ offset ∧ offset < line.stop ∧ s[offset]? = some '>'
  last : ∀ last, line.bracket? = some last → pos ≤ last →
    last < line.stop ∧ s[last]? = some '>' ∧
      ∀ offset, last < offset → offset < line.stop → s[offset]? ≠ some '>'

/-- A line that was measured at a position tells what is ahead of it. -/
theorem ahead_measure {s : Text} {pos : Nat} (inside : pos ≤ s.length) :
    Ahead s pos (measure pos (s.drop pos)) := by
  -- the characters of the line, told by their offsets in the text
  have here {offset : Nat} (short : offset < (Text.line (s.drop pos)).length) :
      (Text.line (s.drop pos))[offset]? = s[pos + offset]? := by
    rw [Text.getElem?_line short, List.getElem?_drop]
  cases found : Text.lastBracket? (Text.line (s.drop pos)) with
  | none =>
    have absent : '>' ∉ Text.line (s.drop pos) := Text.lastBracket?_eq_none_iff.1 found
    have unmeasured : (measure pos (s.drop pos)).bracket? = none := by
      simp [measure, found]
    refine ⟨Text.lineEnd_drop inside, ?_, ?_⟩
    · rw [unmeasured]
      constructor
      · rintro ⟨last, other, -⟩
        cases other
      · rintro ⟨offset, behind, before, bracket⟩
        have short : offset - pos < (Text.line (s.drop pos)).length := by
          simp only [measure] at before
          omega
        rw [← Nat.add_sub_cancel' behind, ← here short] at bracket
        exact absurd (List.mem_of_getElem? bracket) absent
    · intro last other
      rw [unmeasured] at other
      cases other
  | some last =>
    have bracket := Text.getElem?_of_lastBracket? found
    have short : last < (Text.line (s.drop pos)).length := (List.getElem?_eq_some_iff.1 bracket).1
    have measured : (measure pos (s.drop pos)).bracket? = some (pos + last) := by
      simp [measure, found]
    have within : pos + last < (measure pos (s.drop pos)).stop := Nat.add_lt_add_left short pos
    rw [here short] at bracket
    refine ⟨Text.lineEnd_drop inside, ?_, ?_⟩
    · exact ⟨fun _ => ⟨pos + last, Nat.le_add_right .., within, bracket⟩,
        fun _ => ⟨pos + last, measured, Nat.le_add_right ..⟩⟩
    · intro other same _
      obtain rfl : pos + last = other := Option.some.inj (measured.symm.trans same)
      refine ⟨within, bracket, ?_⟩
      intro offset behind before
      have inner : offset - pos < (Text.line (s.drop pos)).length := by
        simp only [measure] at before
        omega
      have none := Text.ne_bracket_of_lastBracket?_lt found (show last < offset - pos by omega)
      rwa [here inner, Nat.add_sub_cancel' (by omega)] at none

/-- Two lines that reach equally far from a position have the same last `>` there. -/
theorem bracket?_of_reach_eq {first second : Line} {pos last : Nat}
    (same : first.reach pos = second.reach pos) (held : first.bracket? = some last)
    (behind : pos ≤ last) : second.bracket? = some last := by
  simp only [reach, held] at same
  cases other : second.bracket? with
  | none =>
    simp only [other] at same
    omega
  | some found =>
    simp only [other] at same
    obtain rfl : last = found := by omega
    rfl

/-- A line that is known at a position before its end tells what is ahead of it. -/
theorem ahead_of_knows {s : Text} {pos : Nat} {line : Line} (known : line.Knows pos (s.drop pos))
    (before : pos ≤ line.stop) (inside : pos ≤ s.length) : Ahead s pos line := by
  obtain ⟨stop, reaches⟩ := known before
  have same := reaches pos (Nat.le_refl pos)
  have measured := ahead_measure inside
  refine ⟨?_, ?_, ?_⟩
  · rw [stop]
    exact measured.ends
  · rw [stop, ← measured.bracket_iff]
    constructor
    · rintro ⟨last, held, behind⟩
      exact ⟨last, bracket?_of_reach_eq same held behind, behind⟩
    · rintro ⟨last, held, behind⟩
      exact ⟨last, bracket?_of_reach_eq same.symm held behind, behind⟩
  · rw [stop]
    intro last held behind
    exact measured.last last (bracket?_of_reach_eq same held behind) behind

/-- What is known of the line at a position is known at any later one. -/
theorem knows_later {s : Text} {first pos : Nat} {line : Line}
    (known : line.Knows first (s.drop first)) (later : first ≤ pos) (inside : pos ≤ s.length) :
    line.Knows pos (s.drop pos) := by
  have split : s.drop first = (s.drop first).take (pos - first) ++ s.drop pos := by
    have cut := List.take_append_drop (pos - first) (s.drop first)
    rwa [List.drop_drop, Nat.add_sub_cancel' later, eq_comm] at cut
  have length : ((s.drop first).take (pos - first)).length = pos - first := by
    rw [List.length_take, List.length_drop]
    omega
  rw [split] at known
  have moved := known.drop
  rwa [length, Nat.add_sub_cancel' later] at moved

/-- **Kept lines.** Asked at positions that do not go back, kept lines tell what is ahead of each of
them. -/
theorem ahead_mapM_keep {s : Text} {positions : List Nat} {known : Option Line} {first : Nat}
    (right : ∀ line ∈ known, line.Knows first (s.drop first))
    (forward : (first :: positions).Pairwise (· ≤ ·)) (inside : ∀ pos ∈ positions, pos ≤ s.length) :
    List.Forall₂ (Ahead s) positions
      ((positions.mapM fun pos => keep pos (s.drop pos)).run known).1 := by
  induction positions generalizing known first with
  | nil => exact List.Forall₂.nil
  | cons pos later ih =>
    obtain ⟨before, rest⟩ := List.pairwise_cons.1 forward
    have here : pos ≤ s.length := inside pos List.mem_cons_self
    have held := knows_refresh fun line member =>
      knows_later (right line member) (before pos List.mem_cons_self) here
    have told := ahead_of_knows held (le_refresh_stop known pos (s.drop pos)) here
    rw [List.mapM_cons]
    refine List.Forall₂.cons told ?_
    refine ih ?_ rest fun other member => inside other (List.mem_cons_of_mem pos member)
    intro line member
    obtain rfl := Option.some.inj member
    exact held

end Line

/-! ## What a scan asks for -/

section Asking

variable {τ α β : Type} {first last : Nat}

/-- Whatever it finds, the scan asks at positions behind `first` and up to `last`, each one behind
the one before. -/
def Asks (first last : Nat) (scan : StateT (List Nat) (StateM τ) α) : Prop :=
  ∀ (log : List Nat) (state : τ), ∃ added, ((scan.run log).run state).1.2 = log ++ added ∧
    added.Pairwise (· < ·) ∧ ∀ pos ∈ added, first < pos ∧ pos ≤ last

theorem asks_pure (value : α) : Asks first last (pure value : StateT (List Nat) (StateM τ) α) :=
  fun log _ => ⟨[], (List.append_nil log).symm, List.Pairwise.nil, List.forall_mem_nil _⟩

theorem Asks.mono {scan : StateT (List Nat) (StateM τ) α} (asks : Asks first last scan)
    {earlier : Nat} (before : earlier ≤ first) : Asks earlier last scan := by
  intro log state
  obtain ⟨added, noted, forward, between⟩ := asks log state
  refine ⟨added, noted, forward, ?_⟩
  intro pos member
  obtain ⟨behind, inside⟩ := between pos member
  exact ⟨Nat.lt_of_le_of_lt before behind, inside⟩

/-- What is made of the outcome asks for nothing. -/
theorem Asks.map {scan : StateT (List Nat) (StateM τ) α} (asks : Asks first last scan)
    (result : α → β) : Asks first last (do let value ← scan; pure (result value)) :=
  asks

/-- The position that is asked for is noted before all later ones. -/
theorem asks_noting {measure : Nat → Text → StateM τ Line} {pos : Nat} {s : Text}
    {next : Line → StateT (List Nat) (StateM τ) α} (after : first < pos) (inside : pos ≤ last)
    (later : ∀ line, Asks pos last (next line)) :
    Asks first last (Line.noting measure pos s >>= next) := by
  intro log state
  obtain ⟨added, noted, forward, ahead⟩ := later ((measure pos s).run state).1 (log ++ [pos])
    ((measure pos s).run state).2
  rw [List.append_assoc] at noted
  refine ⟨pos :: added, noted, ?_, ?_⟩
  · exact List.pairwise_cons.2 ⟨fun other member => (ahead other member).1, forward⟩
  · refine List.forall_mem_cons.2 ⟨⟨after, inside⟩, ?_⟩
    intro other member
    obtain ⟨behind, within⟩ := ahead other member
    exact ⟨Nat.lt_trans after behind, within⟩

end Asking

/-! ## Scans step by step -/

section Steps

variable {m : Type → Type} [Monad m] [LawfulMonad m] (measure : Nat → Text → m Line)

/-- Where no opener is, nothing is asked and the scan goes on. -/
theorem tagsBy_of_absent {pos : Nat} {c : Char} {rest : Text}
    (absent : Head.read? (c :: rest) = none) :
    tagsBy measure pos 0 (c :: rest) = tagsBy measure (pos + 1) 0 rest := by
  simp only [tagsBy, Tag.readBy?, absent, pure_bind]

/-- For a tag without branches nothing is asked either. -/
theorem tagsBy_of_closed {pos : Nat} {c : Char} {rest identifier : Text}
    (head : Head.read? (c :: rest) = some (.closed identifier)) :
    tagsBy measure pos 0 (c :: rest) = (do
      let tag := Tag.ofClosed pos (c :: rest) identifier
      let later ← tagsBy measure (pos + 1) (tag.stop - (pos + 1)) rest
      pure (tag :: later)) := by
  simp only [tagsBy, Tag.readBy?, head, pure_bind]

/-- For branches their line is asked for, once. -/
theorem tagsBy_of_branched {pos : Nat} {c : Char} {rest identifier body : Text}
    (head : Head.read? (c :: rest) = some (.branched identifier body)) :
    tagsBy measure pos 0 (c :: rest) = (do
      let line ← measure (pos + (identifier.length + 4)) body
      match (Branches.read? (line.reach (pos + (identifier.length + 4))) body).map
          (Tag.ofBranches pos (c :: rest) identifier body) with
      | some tag =>
          let later ← tagsBy measure (pos + 1) (tag.stop - (pos + 1)) rest
          pure (tag :: later)
      | none => tagsBy measure (pos + 1) 0 rest) := by
  rw [tagsBy, Tag.readBy?, head]
  exact (bind_assoc _ _ _).trans (bind_congr fun line => pure_bind _ _)

end Steps

theorem Head.read?_of_ne {c : Char} (other : c ≠ '<') (rest : Text) :
    read? (c :: rest) = none := by
  rw [read?]
  · intro after same
    exact other (List.cons.inj same).1
  · intro after same
    exact other (List.cons.inj same).1

/-- Between an opener and the branches behind it no other opener begins. -/
theorem Head.Front.ne_opener {letter : Char} {identifier : Text} (front : Front letter identifier)
    (body : Text) :
    ∀ c ∈ (letter :: ':' :: (identifier ++ '?' :: body)).take (identifier.length + 3), c ≠ '<' := by
  have digit : ∀ c ∈ identifier, c ≠ '<' := by
    rintro c member rfl
    exact absurd (front.digits '<' member) (by decide)
  have opener : letter ≠ '<' := by
    rcases front.opener with rfl | rfl <;> decide
  have cut : (letter :: ':' :: (identifier ++ '?' :: body)).take (identifier.length + 3) =
      letter :: ':' :: (identifier ++ ['?']) := by
    rw [List.take_succ_cons, List.take_succ_cons, List.take_length_add_append]
    rfl
  rw [cut]
  simpa [or_imp, forall_and, opener] using digit

section Positions

variable {τ : Type} (measure : Nat → Text → StateM τ Line)

/-- At a tag without branches the scan asks as it does behind the tag. -/
theorem asks_of_closed {pos last : Nat} {c : Char} {rest identifier : Text}
    (head : Head.read? (c :: rest) = some (.closed identifier))
    (later : ∀ skip, Asks (pos + 1 + skip) last
      (tagsBy (Line.noting measure) (pos + 1) skip rest)) :
    Asks pos last (tagsBy (Line.noting measure) pos 0 (c :: rest)) := by
  rw [tagsBy_of_closed _ head]
  exact ((later _).mono (by omega)).map _

/-- At branches the scan asks for their line, and then behind where they begin: a tag goes further
than that, and where there is none it is `failed` that says so. -/
theorem asks_of_branched {pos last : Nat} {c : Char} {rest identifier body : Text}
    (head : Head.read? (c :: rest) = some (.branched identifier body))
    (inside : pos + (identifier.length + 4) ≤ last)
    (later : ∀ skip, Asks (pos + 1 + skip) last
      (tagsBy (Line.noting measure) (pos + 1) skip rest))
    (failed : Asks (pos + (identifier.length + 4)) last
      (tagsBy (Line.noting measure) (pos + 1) 0 rest)) :
    Asks pos last (tagsBy (Line.noting measure) pos 0 (c :: rest)) := by
  rw [tagsBy_of_branched _ head]
  refine asks_noting (by omega) inside ?_
  intro line
  split
  · rename_i tag found
    obtain ⟨branches, -, rfl⟩ := Option.map_eq_some_iff.1 found
    refine ((later _).mono ?_).map _
    simp only [Tag.ofBranches]
    omega
  · exact failed

/-- **Positions.** Whatever lines it is told, a scan asks at positions in the text, each one behind
the one before. They are behind the characters that are left out, and behind any characters after
those that begin no opener. -/
theorem asks_tagsBy {pos skip plain : Nat} {s : Text}
    (free : ∀ c ∈ (s.drop skip).take plain, c ≠ '<') :
    Asks (pos + skip + plain) (pos + s.length) (tagsBy (Line.noting measure) pos skip s) := by
  induction s generalizing pos skip plain with
  | nil => exact asks_pure []
  | cons c rest ih =>
    have moved : pos + (c :: rest).length = pos + 1 + rest.length := by
      rw [List.length_cons]
      omega
    -- what is left out is a lower bound, whatever comes behind it
    have later (skip : Nat) : Asks (pos + 1 + skip) (pos + 1 + rest.length)
        (tagsBy (Line.noting measure) (pos + 1) skip rest) :=
      @ih (pos + 1) skip 0 (by simp)
    rw [moved]
    cases skip with
    | succ skip =>
      exact (@ih (pos + 1) skip plain free).mono (by omega)
    | zero =>
      cases plain with
      | succ plain =>
        rw [List.drop_zero, List.take_succ_cons, List.forall_mem_cons] at free
        rw [tagsBy_of_absent _ (Head.read?_of_ne free.1 rest)]
        exact (@ih (pos + 1) 0 plain free.2).mono (by omega)
      | zero =>
        cases head : Head.read? (c :: rest) with
        | none =>
          rw [tagsBy_of_absent _ head]
          exact (later 0).mono (Nat.le_succ pos)
        | some first =>
          cases first with
          | closed identifier => exact asks_of_closed measure head later
          | branched identifier body =>
            obtain ⟨letter, front, written⟩ := Head.front_of_branched head
            obtain ⟨rfl, rfl⟩ := List.cons.inj written
            have length : (letter :: ':' :: (identifier ++ '?' :: body)).length =
                identifier.length + 3 + body.length := by
              simp only [List.length_cons, List.length_append]
              omega
            refine asks_of_branched measure head (by omega) later ?_
            -- the next opener is in the branches at the earliest
            exact (@ih (pos + 1) 0 (identifier.length + 3) (front.ne_opener body)).mono (by omega)

end Positions

/-! ## Agreement -/

section Agreement

variable {m : Type → Type} [Monad m] [LawfulMonad m]

theorem Tag.map_fst_readBy?_noting (measure : Nat → Text → m Line) (pos : Nat) (s : Text)
    (log : List Nat) :
    Prod.fst <$> (readBy? (Line.noting measure) pos s).run log = readBy? measure pos s := by
  rcases head : Head.read? s with _ | (identifier | ⟨identifier, body⟩) <;>
    simp [readBy?, head, Line.noting]

/-- To note the positions changes nothing else. -/
theorem map_fst_tagsBy_noting (measure : Nat → Text → m Line) (pos skip : Nat) (s : Text)
    (log : List Nat) :
    Prod.fst <$> (tagsBy (Line.noting measure) pos skip s).run log = tagsBy measure pos skip s := by
  induction s generalizing pos skip log with
  | nil => simp [tagsBy]
  | cons c rest ih =>
    cases skip with
    | succ skip => exact ih (pos + 1) skip log
    | zero =>
      rw [tagsBy, tagsBy, ← Tag.map_fst_readBy?_noting measure pos (c :: rest) log]
      simp only [StateT.run_bind, map_bind, bind_map_left]
      congr 1
      funext ⟨found, noted⟩
      cases found with
      | none => exact ih (pos + 1) 0 noted
      | some tag => simp [← ih (pos + 1) (tag.stop - (pos + 1)) noted]

end Agreement

/-- A reading that keeps the line is the reading. -/
theorem Tag.run_readBy?_keep (known : Option Line) (pos : Nat) (s : Text) :
    (readBy? Line.keep pos s).run known = read? known pos s := by
  rcases head : Head.read? s with _ | (identifier | ⟨identifier, body⟩) <;>
    simp only [readBy?, read?, head] <;> rfl

/-- A reading that measures the line anew finds the same tag. -/
theorem Tag.readBy?_measure (pos : Nat) (s : Text) :
    readBy? (m := Id) (fun pos rest => pure (Line.measure pos rest)) pos s =
      (read? none pos s).1 := by
  rcases head : Head.read? s with _ | (identifier | ⟨identifier, body⟩) <;>
    simp only [readBy?, read?, head] <;> rfl

/-- A scan that keeps lines finds the tags. -/
theorem run_tagsBy_keep (known : Option Line) (pos skip : Nat) (s : Text) :
    ((tagsBy Line.keep pos skip s).run known).1 = tagsFrom known pos skip s := by
  induction s generalizing known pos skip with
  | nil =>
    rw [tagsFrom_nil, tagsBy]
    rfl
  | cons c rest ih =>
    cases skip with
    | succ skip => exact ih known (pos + 1) skip
    | zero =>
      rw [tagsFrom_zero_cons, tagsBy, StateT.run_bind, Tag.run_readBy?_keep]
      rcases Tag.read? known pos (c :: rest) with ⟨_ | tag, line⟩
      · exact ih line (pos + 1) 0
      · exact congrArg (tag :: ·) (ih line (pos + 1) (tag.stop - (pos + 1)))

/-- So does a scan that measures each line anew. -/
theorem tagsBy_measure (pos skip : Nat) (s : Text) :
    tagsBy (m := Id) (fun pos rest => pure (Line.measure pos rest)) pos skip s =
      tagsFrom none pos skip s := by
  induction s generalizing pos skip with
  | nil =>
    rw [tagsFrom_nil, tagsBy]
    rfl
  | cons c rest ih =>
    cases skip with
    | succ skip => exact ih (pos + 1) skip
    | zero =>
      rw [tagsFrom_none_zero_cons, tagsBy, Tag.readBy?_measure]
      cases (Tag.read? none pos (c :: rest)).1 with
      | none => exact ih (pos + 1) 0
      | some tag => exact congrArg (tag :: ·) (ih (pos + 1) (tag.stop - (pos + 1)))

/-- **Kept lines are transparent.** Asked in turn at positions of a text that do not go back, kept
lines tell of each position where the line ahead of it ends and which `>` up to there is the last
one, if there is one. A scan asks only at positions that move on, and it finds the same tags whether
it keeps lines or measures each line anew. -/
theorem kept_line_transparent (s : Text) :
    (∀ positions : List Nat, positions.Pairwise (· ≤ ·) → (∀ pos ∈ positions, pos ≤ s.length) →
      List.Forall₂ (Line.Ahead s) positions
        ((positions.mapM fun pos => Line.keep pos (s.drop pos)).run none).1) ∧
    (∃ positions line, positions.Pairwise (· < ·) ∧ (∀ pos ∈ positions, pos ≤ s.length) ∧
      ((tagsBy (Line.noting Line.keep) 0 0 s).run []).run none = ((tags s, positions), line)) ∧
    tagsBy (m := Id) (fun pos rest => pure (Line.measure pos rest)) 0 0 s = tags s := by
  refine ⟨?_, ?_, tagsBy_measure 0 0 s⟩
  · intro positions forward inside
    have start : (0 :: positions).Pairwise (· ≤ ·) :=
      List.pairwise_cons.2 ⟨fun pos _ => Nat.zero_le pos, forward⟩
    exact Line.ahead_mapM_keep (by simp) start inside
  · obtain ⟨positions, noted, forward, between⟩ :=
      @asks_tagsBy _ Line.keep 0 0 0 s (by simp) [] none
    have same := map_fst_tagsBy_noting Line.keep 0 0 s []
    have found : ((tagsBy (Line.noting Line.keep) 0 0 s).run [] |>.run none).1.1 = tags s := by
      rw [tags, ← run_tagsBy_keep, ← same]
      rfl
    have inside : ∀ pos ∈ positions, pos ≤ s.length := by
      intro pos member
      simpa using (between pos member).2
    exact ⟨positions, _, forward, inside, Prod.ext (Prod.ext found noted) rfl⟩

/-- Positions before, at and behind two line breaks in a row, and one asked for twice. At `14` the
kept line was measured at `8`, and at `17` its last `>` is passed. -/
theorem kept_line_transparent_breaks :
    let s := "<x:1?a\n\n<x:2?b>>c<x:3?\n>".toList
    let positions := [0, 6, 6, 7, 8, 14, 17, 23]
    positions.Pairwise (· ≤ ·) ∧ (∀ pos ∈ positions, pos ≤ s.length) ∧
      List.Forall₂ (Line.Ahead s) positions
        ((positions.mapM fun pos => Line.keep pos (s.drop pos)).run none).1 := by
  intro s positions
  have forward : positions.Pairwise (· ≤ ·) := by decide
  have inside : ∀ pos ∈ positions, pos ≤ s.length := by decide
  exact ⟨forward, inside, (kept_line_transparent s).1 positions forward inside⟩

end Waymark
