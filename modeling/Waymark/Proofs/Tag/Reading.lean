import Waymark.Proofs.Tag.Closing

/-!
# The tag at a place

`Tag.at?` is the tag at the beginning of a text, told from the text alone. The scan of a text asks
for nothing else (`tagsFrom_cons`), whatever it knows of the line. A tag depends on no character
after its last one (`at?_of_append`), and so a text may be cut wherever no tag is cut: the tags of
the two parts are the tags of the whole (`tagsFrom_append`).
-/

namespace Waymark

/-! ## Heads as they are written -/

namespace Head

/-- The digits are looked for first, and then the mark. -/
theorem ofDigits?_eq (rest : Text) :
    ofDigits? rest =
      if rest.takeWhile Char.isDigit = [] then none
      else
        match rest.dropWhile Char.isDigit with
        | '>' :: _ => some (.closed (rest.takeWhile Char.isDigit))
        | '?' :: body => some (.branched (rest.takeWhile Char.isDigit) body)
        | _ => none := by
  unfold ofDigits?
  generalize rest.takeWhile Char.isDigit = identifier
  generalize rest.dropWhile Char.isDigit = after
  cases identifier with
  | nil => rfl
  | cons d ds =>
    rw [if_neg (List.cons_ne_nil _ _)]
    split <;> simp_all

theorem ofDigits?_append {identifier : Text} (nonempty : identifier ≠ [])
    (digits : ∀ c ∈ identifier, c.isDigit) {mark : Char} (other : mark.isDigit = false)
    (after : Text) :
    ofDigits? (identifier ++ mark :: after) =
      if mark = '>' then some (.closed identifier)
      else if mark = '?' then some (.branched identifier after) else none := by
  have taken : (identifier ++ mark :: after).takeWhile Char.isDigit = identifier := by
    rw [List.takeWhile_append_of_pos digits, List.takeWhile_cons_of_neg (by simp [other]),
      List.append_nil]
  have left : (identifier ++ mark :: after).dropWhile Char.isDigit = mark :: after := by
    rw [List.dropWhile_append_of_pos digits, List.dropWhile_cons_of_neg (by simp [other])]
  rw [ofDigits?_eq, taken, left, if_neg nonempty]
  split <;> simp_all

theorem read?_opener {letter : Char} (opener : letter = 'x' ∨ letter = 'X') (rest : Text) :
    read? ('<' :: letter :: ':' :: rest) = ofDigits? rest := by
  rcases opener with rfl | rfl <;> rfl

/-- What may stand before the mark of a head: `<x:` or `<X:`, and digits. -/
structure Front (letter : Char) (identifier : Text) : Prop where
  opener : letter = 'x' ∨ letter = 'X'
  nonempty : identifier ≠ []
  digits : ∀ c ∈ identifier, c.isDigit

/-- Before the mark of a head there is neither a `>` nor the end of a line. -/
theorem Front.plain {letter : Char} {identifier : Text} (front : Front letter identifier) :
    ∀ c ∈ '<' :: letter :: ':' :: identifier, Text.isLineBreak c = false ∧ c ≠ '>' :=
  fun c member =>
    Tag.plain_before_body front.opener front.digits c (List.mem_append_left ['?'] member)

theorem Front.read?_closed {letter : Char} {identifier : Text} (front : Front letter identifier)
    (after : Text) :
    read? ('<' :: letter :: ':' :: (identifier ++ '>' :: after)) = some (.closed identifier) := by
  rw [read?_opener front.opener, ofDigits?_append front.nonempty front.digits rfl, if_pos rfl]

theorem Front.read?_branched {letter : Char} {identifier : Text} (front : Front letter identifier)
    (body : Text) :
    read? ('<' :: letter :: ':' :: (identifier ++ '?' :: body)) =
      some (.branched identifier body) := by
  rw [read?_opener front.opener, ofDigits?_append front.nonempty front.digits rfl,
    if_neg (by decide), if_pos rfl]

/-- Every head that is read is written so. -/
theorem front_of_closed {s identifier : Text} (found : read? s = some (.closed identifier)) :
    ∃ letter after, Front letter identifier ∧
      s = '<' :: letter :: ':' :: (identifier ++ '>' :: after) := by
  obtain ⟨letter, after, opener, written, nonempty, digits⟩ := eq_of_closed found
  exact ⟨letter, after, ⟨opener, nonempty, digits⟩, written⟩

theorem front_of_branched {s identifier body : Text}
    (found : read? s = some (.branched identifier body)) :
    ∃ letter, Front letter identifier ∧
      s = '<' :: letter :: ':' :: (identifier ++ '?' :: body) := by
  obtain ⟨letter, opener, written, nonempty, digits⟩ := eq_of_branched found
  exact ⟨letter, ⟨opener, nonempty, digits⟩, written⟩

/-- The same head in a text that goes on. -/
def append (after : Text) : Head → Head
  | closed identifier => closed identifier
  | branched identifier body => branched identifier (body ++ after)

theorem read?_append {s : Text} {head : Head} (found : read? s = some head) (after : Text) :
    read? (s ++ after) = some (head.append after) := by
  cases head with
  | closed identifier =>
    obtain ⟨letter, rest, front, rfl⟩ := front_of_closed found
    have longer := front.read?_closed (rest ++ after)
    simpa [append] using longer
  | branched identifier body =>
    obtain ⟨letter, front, rfl⟩ := front_of_branched found
    have longer := front.read?_branched (body ++ after)
    simpa [append] using longer

/-- A text that begins with a head still does when it is cut behind the head. -/
private theorem cut_behind {letter mark : Char} {identifier rest s after : Text}
    (split : s ++ after = '<' :: letter :: ':' :: (identifier ++ mark :: rest))
    (inside : identifier.length + 4 ≤ s.length) :
    ∃ left, s = '<' :: letter :: ':' :: (identifier ++ mark :: left) ∧ rest = left ++ after := by
  let front : Text := '<' :: letter :: ':' :: (identifier ++ [mark])
  have whole : front ++ rest = s ++ after := by
    rw [split]
    simp [front]
  have length : front.length = identifier.length + 4 := by
    simp [front]
  rcases List.append_eq_append_iff.1 whole with ⟨left, hs, hr⟩ | ⟨beyond, hf, ha⟩
  · refine ⟨left, ?_, hr⟩
    rw [hs]
    simp [front]
  · have empty : beyond = [] := by
      have lengths := congrArg List.length hf
      rw [List.length_append] at lengths
      exact List.eq_nil_of_length_eq_zero (by omega)
    subst empty
    rw [List.append_nil] at hf
    exact ⟨[], hf.symm, ha.symm⟩

theorem read?_closed_of_append {s after identifier : Text}
    (found : read? (s ++ after) = some (.closed identifier))
    (inside : identifier.length + 4 ≤ s.length) : read? s = some (.closed identifier) := by
  obtain ⟨letter, rest, front, written⟩ := front_of_closed found
  obtain ⟨left, rfl, -⟩ := cut_behind written inside
  exact front.read?_closed left

theorem read?_branched_of_append {s after identifier body : Text}
    (found : read? (s ++ after) = some (.branched identifier body))
    (inside : identifier.length + 4 ≤ s.length) :
    ∃ left, body = left ++ after ∧ read? s = some (.branched identifier left) := by
  obtain ⟨letter, front, written⟩ := front_of_branched found
  obtain ⟨left, rfl, rest⟩ := cut_behind written inside
  exact ⟨left, rest, front.read?_branched left⟩

end Head

namespace Tag

/-! ## The tag at the beginning of a text -/

/-- The tag at the beginning of `s`, the text from `pos` on. -/
def at? (pos : Nat) (s : Text) : Option Tag :=
  match Head.read? s with
  | none => none
  | some (.closed identifier) => some (ofClosed pos s identifier)
  | some (.branched identifier body) =>
      (Branches.ofText? body).map (ofBranches pos s identifier body)

/-- Reading ahead to the end of the line finds the tag that the text tells. -/
theorem read?_eq_at? (pos : Nat) (s : Text) : (read? none pos s).1 = at? pos s := by
  cases head : Head.read? s with
  | none => simp only [read?, at?, head]
  | some first =>
    cases first with
    | closed identifier => simp only [read?, at?, head]
    | branched identifier body =>
      simp only [read?, at?, head, Line.refresh_none, Line.reach_measure_eq, Branches.read?_reach]

theorem at?_shift (pos amount : Nat) (s : Text) :
    at? (pos + amount) s = (at? pos s).map (shift amount) := by
  rw [← read?_eq_at?, ← read?_eq_at?, read?_shift]

@[simp] theorem at?_nil (pos : Nat) : at? pos [] = none := rfl

/-- Where a tag that is read stands, and what it is made of. -/
structure StandsAt (pos : Nat) (s : Text) (tag : Tag) : Prop where
  start_eq : tag.start = pos
  lt_stop : pos < tag.stop
  stop_le : tag.stop ≤ pos + s.length
  raw_eq : tag.raw = s.take (tag.stop - pos)

theorem standsAt_of_at? {pos : Nat} {s : Text} {tag : Tag} (found : at? pos s = some tag) :
    StandsAt pos s tag := by
  unfold at? at found
  split at found
  · simp at found
  · rename_i identifier head
    obtain rfl := Option.some.inj found
    obtain ⟨letter, after, front, rfl⟩ := Head.front_of_closed head
    refine ⟨rfl, ?_, ?_, ?_⟩
    · simp only [ofClosed]
      omega
    · simp only [ofClosed, List.length_cons, List.length_append]
      omega
    · simp [ofClosed]
  · rename_i identifier body head
    obtain ⟨branches, read, rfl⟩ := Option.map_eq_some_iff.1 found
    have inside := (Branches.endIn_of_ofText? read).bracket_lt
    obtain ⟨letter, front, rfl⟩ := Head.front_of_branched head
    refine ⟨rfl, ?_, ?_, ?_⟩
    · simp only [ofBranches]
      omega
    · simp only [ofBranches, List.length_cons, List.length_append]
      omega
    · simp [ofBranches]

/-- Where the whole text has no tag, its beginning has none. -/
theorem at?_eq_none_of_append {pos : Nat} {s after : Text} (absent : at? pos (s ++ after) = none) :
    at? pos s = none := by
  cases head : Head.read? s with
  | none => simp [at?, head]
  | some first =>
    have longer := Head.read?_append head after
    cases first with
    | closed identifier => simp [at?, longer, Head.append] at absent
    | branched identifier body =>
      simp only [at?, longer, Head.append, Option.map_eq_none_iff,
        Branches.ofText?_eq_none_iff] at absent
      simp [at?, head, Branches.ofText?_eq_none_iff, Text.reach_of_append absent]

/-- A tag depends on no character after its last one. -/
theorem at?_of_append {pos : Nat} {s after : Text} {tag : Tag}
    (found : at? pos (s ++ after) = some tag) (inside : tag.stop ≤ pos + s.length) :
    at? pos s = some tag := by
  unfold at? at found
  split at found
  · simp at found
  · rename_i identifier head
    obtain rfl := Option.some.inj found
    simp only [ofClosed] at inside
    rw [at?, Head.read?_closed_of_append head (by omega)]
    simp only [ofClosed, Option.some.injEq]
    rw [List.take_append_of_le_length (by omega)]
  · rename_i identifier body head
    obtain ⟨branches, read, rfl⟩ := Option.map_eq_some_iff.1 found
    simp only [ofBranches] at inside
    obtain ⟨left, rfl, here⟩ := Head.read?_branched_of_append head (by omega)
    obtain ⟨letter, front, rfl⟩ := Head.front_of_branched here
    simp only [List.length_cons, List.length_append] at inside
    -- the line may have had its last `>` behind the cut, and still the branches are the same
    have kept := Branches.ofText?_of_append read (by omega)
    have ends := Branches.endIn_of_ofText? kept
    simp only [at?, here, kept, Option.map_some, Option.some.injEq, ofBranches,
      ends.trueText_append, ends.falseText_append]
    rw [List.take_append_of_le_length (by simp; omega)]

end Tag

/-! ## The scan of a text -/

/-- Where there is no tag, the scan goes on at the next character. -/
theorem tagsFrom_of_absent {pos : Nat} {c : Char} {rest : Text}
    (absent : Tag.at? pos (c :: rest) = none) :
    tagsFrom none pos 0 (c :: rest) = tagsFrom none (pos + 1) 0 rest := by
  rw [← Tag.read?_eq_at?] at absent
  rw [tagsFrom_none_zero_cons, absent]

/-- Where there is a tag, the scan takes it and leaves the rest of it out. -/
theorem tagsFrom_of_found {pos : Nat} {c : Char} {rest : Text} {tag : Tag}
    (found : Tag.at? pos (c :: rest) = some tag) :
    tagsFrom none pos 0 (c :: rest) =
      tag :: tagsFrom none (pos + 1) (tag.stop - (pos + 1)) rest := by
  rw [← Tag.read?_eq_at?] at found
  rw [tagsFrom_none_zero_cons, found]

/-- Where a tag begins, the scan takes it and goes on behind it. -/
theorem tagsFrom_of_at? {pos : Nat} {s rest : Text} {tag : Tag}
    (found : Tag.at? pos (s ++ rest) = some tag) (all : tag.stop = pos + s.length) :
    tagsFrom none pos 0 (s ++ rest) = tag :: tagsFrom none tag.stop 0 rest := by
  have behind := (Tag.standsAt_of_at? found).lt_stop
  cases s with
  | nil =>
    rw [all] at behind
    exact absurd behind (Nat.lt_irrefl pos)
  | cons c s =>
    rw [List.length_cons] at all
    have inside : tag.stop - (pos + 1) = s.length := by omega
    have stop : pos + 1 + s.length = tag.stop := by omega
    rw [List.cons_append] at found ⊢
    rw [tagsFrom_of_found found, tagsFrom_skip, inside, List.drop_left, stop]

/-- **Cutting a text.** If the scan of a text takes no tag across an offset, the tags on both sides
of the offset are found in the two parts. -/
theorem tagsFrom_append {pos skip : Nat} {s after : Text} (fits : skip ≤ s.length)
    (whole : ∀ tag ∈ tagsFrom none pos skip (s ++ after),
      ¬ (tag.start < pos + s.length ∧ pos + s.length < tag.stop)) :
    tagsFrom none pos skip (s ++ after) =
      tagsFrom none pos skip s ++ tagsFrom none (pos + s.length) 0 after := by
  induction s generalizing pos skip with
  | nil =>
    obtain rfl : skip = 0 := by simpa using fits
    rfl
  | cons c rest ih =>
    rw [List.length_cons] at fits whole ⊢
    have moved : pos + (rest.length + 1) = pos + 1 + rest.length := by omega
    rw [moved] at whole ⊢
    cases skip with
    | succ skip => exact ih (by omega) whole
    | zero =>
      cases found : Tag.at? pos (c :: (rest ++ after)) with
      | none =>
        rw [List.cons_append, tagsFrom_of_absent found] at whole ⊢
        rw [tagsFrom_of_absent (Tag.at?_eq_none_of_append found)]
        exact ih (Nat.zero_le _) whole
      | some tag =>
        rw [List.cons_append, tagsFrom_of_found found] at whole ⊢
        -- the tag begins before the cut, and so it ends there at the latest
        have inside := whole tag List.mem_cons_self
        rw [(Tag.standsAt_of_at? found).start_eq] at inside
        have here : Tag.at? pos (c :: rest) = some tag :=
          Tag.at?_of_append found (by rw [List.length_cons]; omega)
        rw [tagsFrom_of_found here, List.cons_append]
        congr 1
        exact ih (by omega) fun later member => whole later (List.mem_cons_of_mem _ member)

theorem tags_append {s after : Text}
    (whole : ∀ tag ∈ tags (s ++ after), ¬ (tag.start < s.length ∧ s.length < tag.stop)) :
    tags (s ++ after) = tags s ++ (tags after).map (Tag.shift s.length) := by
  have moved := tagsFrom_shift 0 s.length 0 after
  rw [tags, tagsFrom_append (Nat.zero_le _) (by simpa [tags] using whole), moved]
  rfl

/-! ## A tag by itself -/

theorem exists_of_mem_tagsFrom {pos skip : Nat} {s : Text} {tag : Tag}
    (member : tag ∈ tagsFrom none pos skip s) :
    ∃ before rest, s = before ++ rest ∧ Tag.at? (pos + before.length) rest = some tag := by
  induction s generalizing pos skip with
  | nil => simp at member
  | cons c rest ih =>
    have later {skip : Nat} (member : tag ∈ tagsFrom none (pos + 1) skip rest) :
        ∃ before after, c :: rest = before ++ after ∧
          Tag.at? (pos + before.length) after = some tag := by
      obtain ⟨before, after, rfl, found⟩ := ih member
      refine ⟨c :: before, after, rfl, ?_⟩
      rwa [List.length_cons, Nat.add_comm before.length, ← Nat.add_assoc]
    cases skip with
    | succ skip => exact later member
    | zero =>
      cases found : Tag.at? pos (c :: rest) with
      | none =>
        rw [tagsFrom_of_absent found] at member
        exact later member
      | some first =>
        rw [tagsFrom_of_found found] at member
        rcases List.mem_cons.1 member with rfl | member
        · exact ⟨[], c :: rest, rfl, found⟩
        · exact later member

/-- A tag of a text is read where it begins. -/
theorem Tag.at?_of_mem {s : Text} {tag : Tag} (member : tag ∈ tags s) :
    at? tag.start (s.drop tag.start) = some tag := by
  obtain ⟨before, rest, rfl, found⟩ := exists_of_mem_tagsFrom member
  rw [Nat.zero_add] at found
  rwa [(standsAt_of_at? found).start_eq, List.drop_left]

/-- A text that is a tag has no other tag. -/
theorem tags_of_at? {s : Text} {tag : Tag} (found : Tag.at? 0 s = some tag)
    (all : tag.stop = s.length) : tags s = [tag] := by
  rw [← List.append_nil s] at found ⊢
  rw [tags, tagsFrom_of_at? found (by rw [all, Nat.zero_add]), tagsFrom_nil]

/-- The raw text of a tag is that tag and nothing else. -/
theorem tags_raw {s : Text} {tag : Tag} (member : tag ∈ tags s) :
    tags tag.raw = [{ tag with start := 0, stop := tag.stop - tag.start }] := by
  obtain ⟨before, rest, -, found⟩ := exists_of_mem_tagsFrom member
  have stands := Tag.standsAt_of_at? found
  have start := stands.start_eq
  have inside := stands.stop_le
  have behind := stands.lt_stop
  have length : tag.raw.length = tag.stop - tag.start := by
    rw [stands.raw_eq, List.length_take]
    omega
  have cut : tag.raw ++ rest.drop (tag.stop - tag.start) = rest := by
    rw [stands.raw_eq, start, List.take_append_drop]
  -- what comes behind the raw text is cut off, and then the tag is moved to the beginning
  rw [← cut] at found
  have alone := Tag.at?_of_append found (by omega)
  rw [Tag.at?_shift] at alone
  obtain ⟨first, here, moved⟩ := Option.map_eq_some_iff.1 alone
  have same : first = { tag with start := 0, stop := tag.stop - tag.start } := by
    have zero := (Tag.standsAt_of_at? here).start_eq
    have stop : first.stop = tag.stop - tag.start := by
      have shifted := congrArg Tag.stop moved
      simp only [Tag.shift] at shifted
      omega
    rw [← zero, ← stop, ← moved]
    rfl
  rw [same] at here
  exact tags_of_at? here length.symm

end Waymark
