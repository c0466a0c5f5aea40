import Waymark.Document
import Waymark.Proofs.Session.Asking
import Waymark.Proofs.Weaving

/-!
# Written documents are read back

A branch that is written with doubled delimiters is a row of whole units, so whatever comes after it
is read as if it stood alone (`Branches.ofText?_escapeTrue`, `Branches.closer?_escapeFalse`). With
it each written tag is read back where it stands (`Piece.at?_write`), the literal stretches between
the tags are passed over (`tagsFrom_literal`), and so the tags of a written document are the tags
that were written (`Document.tags_write`). It renders to what it means (`Document.renderBy_write`).
-/

namespace Waymark

/-! ## Branches with doubled delimiters -/

namespace Branches

theorem shift_shift (outer inner : Nat) (branches : Branches) :
    (branches.shift inner).shift outer = branches.shift (outer + inner) := by
  simp [shift, Nat.add_assoc]

/-- An escaped true branch is whole units: it only moves the branches that come after it. -/
theorem ofText?_escapeTrue {trueText : Text} (line : Piece.OneLine trueText) {rest : Text}
    {branches : Branches} (found : ofText? rest = some branches) :
    ofText? (Text.escapeTrue trueText ++ rest) =
      some (branches.shift (Text.escapeTrue trueText).length) := by
  -- the induction is on the text, whose characters are the units that are written
  induction trueText with
  | nil =>
    show ofText? rest = some (branches.shift 0)
    rw [found]
    simp [shift]
  | cons c trueText ih =>
    have later := ih fun d member => line d (List.mem_cons_of_mem c member)
    have inner := line c List.mem_cons_self
    by_cases bar : c = '|'
    · subst bar
      rw [Text.escapeTrue_bar, List.cons_append, List.cons_append, ofText?_bars, later]
      rw [Option.map_some, shift_shift, Nat.add_comm]
      rfl
    · by_cases bracket : c = '>'
      · subst bracket
        rw [Text.escapeTrue_bracket, List.cons_append, List.cons_append, ofText?_brackets, later]
        rw [Option.elim_some, shift_shift, Nat.add_comm]
        rfl
      · rw [Text.escapeTrue_plain bar bracket, List.cons_append,
          ofText?_plain inner bar bracket, later]
        rw [Option.map_some, shift_shift, Nat.add_comm]
        rfl

/-- An escaped false branch is whole units, too. -/
theorem closer?_escapeFalse {falseText : Text} (line : Piece.OneLine falseText) {rest : Text}
    {offset : Nat} (closes : closer? rest = some offset) :
    closer? (Text.escapeFalse falseText ++ rest) =
      some ((Text.escapeFalse falseText).length + offset) := by
  induction falseText with
  | nil =>
    show closer? rest = some (0 + offset)
    rw [closes, Nat.zero_add]
  | cons c falseText ih =>
    have later := ih fun d member => line d (List.mem_cons_of_mem c member)
    have inner := line c List.mem_cons_self
    by_cases bracket : c = '>'
    · subst bracket
      rw [Text.escapeFalse_bracket, List.cons_append, List.cons_append, closer?_pair, later]
      simp only [Option.elim_some, List.length_cons, Option.some.injEq]
      omega
    · rw [Text.escapeFalse_plain bracket, List.cons_append, closer?_plain inner bracket, later]
      simp only [Option.map_some, List.length_cons, Option.some.injEq]
      omega

/-- A true branch that the closing `>` follows. -/
theorem ofText?_single {trueText : Text} (line : Piece.OneLine trueText) {rest : Text}
    (other : rest.head? ≠ some '>') :
    let stop := (Text.escapeTrue trueText).length
    ofText? (Text.escapeTrue trueText ++ '>' :: rest) = some ⟨stop, stop, stop⟩ := by
  intro stop
  exact ofText?_escapeTrue line (ofText?_lone other)

/-- Both branches. A `|` at the beginning of the false one would make a pair with the separator. -/
theorem ofText?_double {trueText falseText : Text} (trueLine : Piece.OneLine trueText)
    (falseLine : Piece.OneLine falseText) (separate : falseText.head? ≠ some '|') {rest : Text}
    (other : rest.head? ≠ some '>') :
    let stop := (Text.escapeTrue trueText).length
    ofText? (Text.escapeTrue trueText ++ '|' :: (Text.escapeFalse falseText ++ '>' :: rest)) =
      some ⟨stop, stop + 1, stop + 1 + (Text.escapeFalse falseText).length⟩ := by
  intro stop
  have closes := closer?_escapeFalse falseLine (closer?_lone other)
  have single : (Text.escapeFalse falseText ++ '>' :: rest).head? ≠ some '|' := by
    cases falseText with
    | nil => simp [Text.escapeFalse, Text.double]
    | cons c falseText =>
      by_cases bracket : c = '>'
      · simp [bracket, Text.escapeFalse_bracket]
      · rw [Text.escapeFalse_plain bracket]
        exact separate
  have read : ofText? ('|' :: (Text.escapeFalse falseText ++ '>' :: rest)) =
      some ⟨0, 1, 1 + (Text.escapeFalse falseText).length⟩ := by
    rw [ofText?_separator single, closes]
    rfl
  rw [ofText?_escapeTrue trueLine read]
  simp [shift, stop, Nat.add_assoc]

end Branches

/-! ## Tags as they are written -/

namespace Tag

theorem at?_closed {letter : Char} {identifier : Text} (front : Head.Front letter identifier)
    (pos : Nat) (rest : Text) :
    let s := '<' :: letter :: ':' :: (identifier ++ '>' :: rest)
    at? pos s = some (ofClosed pos s identifier) := by
  intro s
  rw [at?, front.read?_closed]

theorem at?_branched {letter : Char} {identifier : Text} (front : Head.Front letter identifier)
    (pos : Nat) {body : Text} {branches : Branches} (read : Branches.ofText? body = some branches) :
    let s := '<' :: letter :: ':' :: (identifier ++ '?' :: body)
    at? pos s = some (ofBranches pos s identifier body branches) := by
  intro s
  rw [at?, front.read?_branched]
  simp only [read, Option.map_some]

end Tag

namespace Piece

theorem Identifier.front {identifier : Text} (digits : Identifier identifier) :
    Head.Front 'x' identifier :=
  ⟨.inl rfl, digits.1, digits.2⟩

theorem at?_write_bare {identifier : Text} (digits : Identifier identifier) (pos : Nat)
    (rest : Text) :
    Tag.at? pos ((bare identifier).write ++ rest) = (bare identifier).tagAt? pos := by
  have written : (bare identifier).write ++ rest =
      '<' :: 'x' :: ':' :: (identifier ++ '>' :: rest) := by
    simp [write]
  have length : (bare identifier).write.length = identifier.length + 4 := by
    simp [write]
  rw [written, Tag.at?_closed digits.front, ← written, Tag.ofClosed, tagAt?, length, ← length,
    List.take_left]
  rfl

theorem at?_write_single {identifier trueText rest : Text} (digits : Identifier identifier)
    (line : OneLine trueText) (other : rest.head? ≠ some '>') (pos : Nat) :
    Tag.at? pos ((single identifier trueText).write ++ rest) =
      (single identifier trueText).tagAt? pos := by
  have written : (single identifier trueText).write ++ rest =
      '<' :: 'x' :: ':' :: (identifier ++ '?' :: (Text.escapeTrue trueText ++ '>' :: rest)) := by
    simp [write]
  have length : (single identifier trueText).write.length =
      identifier.length + 4 + (Text.escapeTrue trueText).length + 1 := by
    simp [write]
    omega
  rw [written, Tag.at?_branched digits.front pos (Branches.ofText?_single line other), ← written,
    Tag.ofBranches, tagAt?]
  simp only [← length, List.take_left, Branches.trueText, Branches.falseText, Nat.sub_self,
    List.take_zero]
  rfl

theorem at?_write_double {identifier trueText falseText rest : Text}
    (digits : Identifier identifier) (trueLine : OneLine trueText) (falseLine : OneLine falseText)
    (separate : falseText.head? ≠ some '|') (other : rest.head? ≠ some '>') (pos : Nat) :
    Tag.at? pos ((double identifier trueText falseText).write ++ rest) =
      (double identifier trueText falseText).tagAt? pos := by
  have written : (double identifier trueText falseText).write ++ rest =
      '<' :: 'x' :: ':' :: (identifier ++ '?' :: (Text.escapeTrue trueText ++
        '|' :: (Text.escapeFalse falseText ++ '>' :: rest))) := by
    simp [write]
  have length : (double identifier trueText falseText).write.length =
      identifier.length + 4 + ((Text.escapeTrue trueText).length + 1 +
        (Text.escapeFalse falseText).length) + 1 := by
    simp [write]
    omega
  have read := Branches.ofText?_double trueLine falseLine separate other
  have falseText_eq : List.take (Text.escapeFalse falseText).length
      (List.drop ((Text.escapeTrue trueText).length + 1)
        (Text.escapeTrue trueText ++ '|' :: (Text.escapeFalse falseText ++ '>' :: rest))) =
      Text.escapeFalse falseText := by
    rw [List.drop_length_add_append, List.drop_one, List.tail_cons, List.take_left]
  rw [written, Tag.at?_branched digits.front pos read, ← written, Tag.ofBranches, tagAt?]
  simp only [← length, List.take_left, Branches.trueText, Branches.falseText,
    Nat.add_sub_cancel_left, falseText_eq]

end Piece

/-! ## Literal text -/

/-- Every head begins with an opener and a digit. -/
theorem Head.opener_of_read? {s : Text} {head : Head} (found : Head.read? s = some head) :
    ∃ letter digit after, s = '<' :: letter :: ':' :: digit :: after ∧
      (letter = 'x' ∨ letter = 'X') ∧ digit.isDigit := by
  have first {letter mark : Char} {identifier after : Text} (front : Head.Front letter identifier) :
      ∃ letter' digit after', '<' :: letter :: ':' :: (identifier ++ mark :: after) =
        '<' :: letter' :: ':' :: digit :: after' ∧
          (letter' = 'x' ∨ letter' = 'X') ∧ digit.isDigit := by
    obtain ⟨digit, digits, rfl⟩ := List.exists_cons_of_ne_nil front.nonempty
    exact ⟨letter, digit, _, rfl, front.opener, front.digits digit List.mem_cons_self⟩
  cases head with
  | closed identifier =>
    obtain ⟨letter, after, front, rfl⟩ := front_of_closed found
    exact first front
  | branched identifier body =>
    obtain ⟨letter, front, rfl⟩ := front_of_branched found
    exact first front

namespace Document

theorem NoOpener.of_append {before s : Text} (free : NoOpener (before ++ s)) : NoOpener s := by
  intro inner letter digit after written opener
  refine free (before ++ inner) letter digit after ?_ opener
  rw [written, List.append_assoc]

/-- No head begins in a literal text, not even one that goes on behind the literal text, where a
`<` stands. -/
theorem NoOpener.read?_eq_none {c : Char} {s behind : Text} (free : NoOpener (c :: s))
    (begins : ∀ d ∈ behind.head?, d = '<') : Head.read? (c :: (s ++ behind)) = none := by
  cases found : Head.read? (c :: (s ++ behind)) with
  | none => rfl
  | some head =>
    obtain ⟨letter, digit, after, written, opener, digits⟩ := Head.opener_of_read? found
    obtain ⟨rfl, inside⟩ := List.cons.inj written
    -- how much of the opener and its digit the literal text holds
    match s, inside with
    | [], inside =>
      obtain rfl : behind = letter :: ':' :: digit :: after := inside
      obtain rfl : letter = '<' := begins letter rfl
      simp at opener
    | [_], inside =>
      obtain rfl : behind = ':' :: digit :: after := (List.cons.inj inside).2
      have colon : ':' = '<' := begins ':' rfl
      simp at colon
    | [_, _], inside =>
      obtain rfl : behind = digit :: after := (List.cons.inj (List.cons.inj inside).2).2
      obtain rfl : digit = '<' := begins digit rfl
      simp at digits
    | first :: second :: third :: s, inside =>
      simp only [List.cons_append, List.cons.injEq] at inside
      obtain ⟨rfl, rfl, rfl, -⟩ := inside
      have none := free [] first third s rfl opener
      rw [digits] at none
      simp at none

/-- The scan passes over literal text. -/
theorem tagsFrom_literal {s after behind : Text} (free : NoOpener (s ++ after))
    (begins : ∀ c ∈ behind.head?, c = '<') (pos : Nat) :
    tagsFrom none pos 0 (s ++ (after ++ behind)) =
      tagsFrom none (pos + s.length) 0 (after ++ behind) := by
  induction s generalizing pos with
  | nil => rfl
  | cons c s ih =>
    have headless : Head.read? (c :: (s ++ (after ++ behind))) = none := by
      rw [← List.append_assoc]
      exact free.read?_eq_none begins
    have absent : Tag.at? pos (c :: (s ++ (after ++ behind))) = none := by
      rw [Tag.at?, headless]
    rw [List.cons_append, tagsFrom_of_absent absent]
    have later := ih (@NoOpener.of_append [c] (s ++ after) free) (pos + 1)
    rw [later, List.length_cons, Nat.add_assoc, Nat.add_comm 1]

/-- Behind the literal text at its beginning a document ends or has a tag. -/
theorem write_eq_leading (pieces : List Piece) :
    ∃ behind, write pieces = leading pieces ++ behind ∧ ∀ c ∈ behind.head?, c = '<' := by
  induction pieces with
  | nil => exact ⟨[], rfl, by simp⟩
  | cons piece rest ih =>
    cases piece with
    | literal text =>
      obtain ⟨behind, written, begins⟩ := ih
      refine ⟨behind, ?_, begins⟩
      show text ++ write rest = text ++ leading rest ++ behind
      rw [written, List.append_assoc]
    | bare | single | double =>
      refine ⟨_, rfl, ?_⟩
      rintro c ⟨⟩
      rfl

theorem head?_write_ne {rest : List Piece} (other : (leading rest).head? ≠ some '>') :
    (write rest).head? ≠ some '>' := by
  obtain ⟨behind, written, begins⟩ := write_eq_leading rest
  rw [written]
  cases empty : leading rest with
  | nil =>
    intro bracket
    exact absurd (begins '>' bracket) (by decide)
  | cons c text => simpa [empty] using other

end Document

/-! ## The tags of a document -/

namespace Piece

theorem eq_literal_of_tagAt? {pos : Nat} {piece : Piece} (untagged : piece.tagAt? pos = none) :
    ∃ text, piece = literal text := by
  cases piece with
  | literal text => exact ⟨text, rfl⟩
  | bare | single | double => cases untagged

/-- The tag of a piece stands where the piece is written. -/
theorem bounds_of_tagAt? {pos : Nat} {piece : Piece} {tag : Tag}
    (tagged : piece.tagAt? pos = some tag) :
    tag.start = pos ∧ tag.stop = pos + piece.write.length := by
  cases piece with
  | literal => cases tagged
  | bare | single | double =>
    obtain rfl := Option.some.inj tagged
    exact ⟨rfl, rfl⟩

/-- The tag of a piece is read back where it is written. -/
theorem at?_write {pos : Nat} {piece : Piece} {rest : List Piece} {tag : Tag}
    (fit : piece.WellFormed) (follows : Document.Follows rest piece)
    (tagged : piece.tagAt? pos = some tag) :
    Tag.at? pos (piece.write ++ Document.write rest) = some tag := by
  cases piece with
  | literal => cases tagged
  | bare identifier => rw [at?_write_bare fit, tagged]
  | single identifier trueText =>
    obtain ⟨digits, line⟩ := fit
    rw [at?_write_single digits line (Document.head?_write_ne follows.2), tagged]
  | double identifier trueText falseText =>
    obtain ⟨digits, trueLine, falseLine, separate⟩ := fit
    rw [at?_write_double digits trueLine falseLine separate
      (Document.head?_write_ne follows.2), tagged]

end Piece

namespace Document

theorem Follows.noOpener {pos : Nat} {piece : Piece} {rest : List Piece} {tag : Tag}
    (follows : Follows rest piece) (tagged : piece.tagAt? pos = some tag) :
    NoOpener (leading rest) := by
  cases piece with
  | literal => cases tagged
  | bare => exact follows
  | single | double => exact follows.1

theorem tagsFrom_write {pieces : List Piece} (free : NoOpener (leading pieces))
    (fits : PiecesFit pieces) (pos : Nat) :
    tagsFrom none pos 0 (write pieces) = tagsAt pos pieces := by
  induction pieces generalizing pos with
  | nil => rfl
  | cons piece rest ih =>
    obtain ⟨fit, follows, later⟩ := fits
    cases tagged : piece.tagAt? pos with
    | none =>
      obtain ⟨text, rfl⟩ := Piece.eq_literal_of_tagAt? tagged
      -- the literal text may go on in the next piece, and an opener may be across the two
      obtain ⟨behind, written, begins⟩ := write_eq_leading rest
      have passed := tagsFrom_literal free begins pos
      rw [← written] at passed
      show tagsFrom none pos 0 (text ++ write rest) = tagsAt (pos + text.length) rest
      rw [passed]
      exact ih (NoOpener.of_append free) later _
    | some tag =>
      obtain ⟨-, stop⟩ := Piece.bounds_of_tagAt? tagged
      have found := Piece.at?_write fit follows tagged
      show tagsFrom none pos 0 (piece.write ++ write rest) =
        (piece.tagAt? pos).toList ++ tagsAt (pos + piece.write.length) rest
      rw [tagsFrom_of_at? found stop, tagged, stop, ih (follows.noOpener tagged) later]
      rfl

/-- **Reading back.** The tags of a written document are those that were written, where they were
written. -/
theorem tags_write {pieces : List Piece} (fits : WellFormed pieces) :
    tags (write pieces) = tagsAt 0 pieces :=
  tagsFrom_write fits.1 fits.2 0

end Document

/-! ## What a document renders to -/

/-- A branch as it is stored stands for the text that was escaped. -/
theorem Tag.branch?_elim {escape unescape : Text → Text} (empty : escape [] = [])
    (undone : ∀ s, unescape (escape s) = s) (text default : Text) :
    (branch? (escape text)).elim default unescape = if text = [] then default else text := by
  by_cases absent : text = []
  · rw [if_pos absent, absent, empty]
    rfl
  · have present : escape text ≠ [] := by
      intro nothing
      apply absent
      calc text = unescape (escape text) := (undone text).symm
        _ = unescape (escape []) := by rw [nothing, empty]
        _ = [] := undone []
    rw [if_neg absent, branch?, if_neg present]
    exact undone text

theorem Options.textFor_eq_elim (options : Options) (selected : Bool) (tag : Tag) :
    options.textFor selected tag =
      if selected then tag.trueBranch.elim options.trueDefault Text.unescapeTrue
      else tag.falseBranch.elim options.falseDefault Text.unescapeFalse := by
  cases selected
  · cases branch : tag.falseBranch <;> simp [textFor, branch]
  · cases branch : tag.trueBranch <;> simp [textFor, branch]

/-- The text that stands for the tag of a piece is what the piece means. -/
theorem Piece.textFor_tagAt? (selects : Text → Bool) (options : Options) {pos : Nat}
    {piece : Piece} {tag : Tag} (tagged : piece.tagAt? pos = some tag) :
    options.textFor (selects tag.identifier) tag = piece.meaning selects options := by
  rw [Options.textFor_eq_elim]
  cases piece with
  | literal => cases tagged
  | bare | single | double =>
    obtain rfl := Option.some.inj tagged
    simp only [Tag.branch?_elim rfl Text.unescapeTrue_escapeTrue,
      Tag.branch?_elim rfl Text.unescapeFalse_escapeFalse]
    rfl

namespace Document

theorem weave_write (selects : Text → Bool) (options : Options) {pieces : List Piece}
    (free : NoOpener (leading pieces)) (fits : PiecesFit pieces) (pos : Nat) :
    weave pos (write pieces) (tagsAt pos pieces)
        ((tagsAt pos pieces).map fun tag => options.textFor (selects tag.identifier) tag) =
      meaning selects options pieces := by
  induction pieces generalizing pos with
  | nil => rfl
  | cons piece rest ih =>
    obtain ⟨fit, follows, later⟩ := fits
    cases tagged : piece.tagAt? pos with
    | none =>
      obtain ⟨text, rfl⟩ := Piece.eq_literal_of_tagAt? tagged
      have inner := @NoOpener.of_append text (leading rest) free
      have between := @tagsFrom_between (pos + text.length) 0 (write rest) (Nat.zero_le _)
      rw [tagsFrom_write inner later] at between
      show weave pos (text ++ write rest) (tagsAt (pos + text.length) rest) _ =
        text ++ meaning selects options rest
      rw [weave_literal between, ← ih inner later (pos + text.length)]
      rfl
    | some tag =>
      obtain ⟨start, stop⟩ := Piece.bounds_of_tagAt? tagged
      have listed : tagsAt pos (piece :: rest) =
          tag :: tagsAt (pos + piece.write.length) rest := by
        rw [tagsAt, tagged]
        rfl
      show weave pos (piece.write ++ write rest) _ _ =
        piece.meaning selects options ++ meaning selects options rest
      rw [listed, List.map_cons, weave_tag start stop, stop, ih (follows.noOpener tagged) later,
        Piece.textFor_tagAt? selects options tagged]

/-- **Rendering.** A written document renders to what it means. -/
theorem renderBy_write (selects : Text → Bool) (options : Options) {pieces : List Piece}
    (fits : WellFormed pieces) :
    renderBy selects options (write pieces) = meaning selects options pieces := by
  rw [renderBy_eq_weave, tags_write fits]
  exact weave_write selects options fits.1 fits.2 0

/-- **Writing and reading back.** A written document has the tags that were written and no others,
and with every criterion that always gives the same answer for an identifier it renders to what it
means. -/
theorem written_reads_back {κ σ : Type} [Rules κ σ] {pieces : List Piece}
    (fits : WellFormed pieces) :
    tags (write pieces) = tagsAt 0 pieces ∧
      ∀ (options : Options) (criterion : Criterion κ) (selects : Text → Bool),
        criterion.Answers selects →
          (Marker.mk (write pieces) options criterion).Renders
            (meaning selects options pieces) := by
  refine ⟨tags_write fits, ?_⟩
  intro options criterion selects answers
  rw [← renderBy_write selects options fits]
  exact Marker.renders_of_answers answers

/-- Branches that end in delimiters, a tag inside a branch, and a `>` behind the last tag of the
line. -/
theorem written_reads_back_nested :
    let pieces : List Piece :=
      [.literal "a>".toList, .double ['0', '7'] "<x:1?b>|".toList ">|>".toList,
        .single ['1'] "|>".toList, .literal " >\n".toList, .bare ['7'], .literal ">".toList]
    let s := "a><x:07?<x:1?b>>|||>>|>>><x:1?||>>> >\n<x:7>>".toList
    WellFormed pieces ∧ write pieces = s ∧ tags s = tagsAt 0 pieces ∧
      (Marker.mk s {} (.ident ['0', '7'] : Criterion Empty)).Renders
        "a><x:1?b>|  >\n >".toList := by
  intro pieces s
  have fits : WellFormed pieces := by decide
  have written : write pieces = s := rfl
  have read := @written_reads_back Empty Unit _ pieces fits
  rw [written] at read
  refine ⟨fits, written, read.1, ?_⟩
  exact read.2 {} (.ident ['0', '7']) _ (Criterion.answers_ident ['0', '7'])

end Document

end Waymark
