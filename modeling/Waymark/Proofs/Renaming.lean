import Waymark.Proofs.Session.Asking
import Waymark.Proofs.Tag.Reading

/-!
# Characters that are not told apart

Where tags are read, seven marks, the ten digits and the letter of the opener are told apart from
all other characters, and those are not told apart among each other. So when they are exchanged for
one another throughout a text, the same tags are found at the same places (`tags_map`), and what is
rendered is the same with the same characters exchanged (`render_map`). Each definition that the
scan is made of is shown to commute with such a `Renaming`. Taken together: `tags_rename`.
-/

namespace Waymark

variable {κ σ : Type} [Rules κ σ]

namespace Text

/-- The characters with a meaning of their own in tags, and the line breaks. -/
def marks : List Char := ['<', ':', '?', '|', '>', '\n', '\r']

/-- The characters that are told apart where tags are read. -/
def Reserved (c : Char) : Prop := c ∈ marks ∨ c.isDigit ∨ c = 'x' ∨ c = 'X'

instance (c : Char) : Decidable (Reserved c) :=
  inferInstanceAs (Decidable (c ∈ marks ∨ c.isDigit ∨ c = 'x' ∨ c = 'X'))

end Text

/-- A change of characters that keeps marks and digits, keeps the letters of the opener among
themselves, and makes no other character one of these. -/
structure Renaming (f : Char → Char) : Prop where
  mark : ∀ c ∈ Text.marks, f c = c
  digit : ∀ c : Char, c.isDigit → f c = c
  letter : ∀ c, c = 'x' ∨ c = 'X' → f c = 'x' ∨ f c = 'X'
  other : ∀ c, ¬ Text.Reserved c → ¬ Text.Reserved (f c)

namespace Renaming

variable {f : Char → Char} (renames : Renaming f)

include renames

/-! ## Single characters -/

theorem eq_mark_iff {m : Char} (mark : m ∈ Text.marks) (c : Char) : f c = m ↔ c = m := by
  constructor
  · intro same
    by_cases reserved : Text.Reserved c
    · rcases reserved with here | digit | letter
      · rwa [renames.mark c here] at same
      · rwa [renames.digit c digit] at same
      · -- the letters of the opener are no marks
        rcases renames.letter c letter with image | image
        · rw [same] at image
          subst image
          exact absurd mark (by decide)
        · rw [same] at image
          subst image
          exact absurd mark (by decide)
    · exact absurd (.inl (same ▸ mark)) (renames.other c reserved)
  · rintro rfl
    exact renames.mark c mark

theorem isDigit_eq (c : Char) : (f c).isDigit = c.isDigit := by
  by_cases reserved : Text.Reserved c
  · rcases reserved with mark | digit | letter
    · rw [renames.mark c mark]
    · rw [renames.digit c digit]
    · have plain {d : Char} (letter : d = 'x' ∨ d = 'X') : d.isDigit = false := by
        rcases letter with rfl | rfl <;> rfl
      rw [plain letter, plain (renames.letter c letter)]
  · have image := renames.other c reserved
    rw [Text.Reserved, not_or, not_or] at reserved image
    rw [Bool.eq_false_iff.2 reserved.2.1, Bool.eq_false_iff.2 image.2.1]

theorem letter_iff (c : Char) : (f c = 'x' ∨ f c = 'X') ↔ (c = 'x' ∨ c = 'X') := by
  constructor
  · intro image
    have kept {d : Char} (same : f c = d) (here : f c = c) : c = d := here.symm.trans same
    by_cases reserved : Text.Reserved c
    · rcases reserved with mark | digit | letter
      · exact image.imp (kept · (renames.mark c mark)) (kept · (renames.mark c mark))
      · exact image.imp (kept · (renames.digit c digit)) (kept · (renames.digit c digit))
      · exact letter
    · exact absurd (.inr (.inr image)) (renames.other c reserved)
  · exact renames.letter c

theorem isLineBreak_eq (c : Char) : Text.isLineBreak (f c) = Text.isLineBreak c := by
  have feed := renames.eq_mark_iff (m := '\n') (by decide) c
  have carriage := renames.eq_mark_iff (m := '\r') (by decide) c
  rw [Bool.eq_iff_iff]
  simp [Text.isLineBreak, feed, carriage]

/-- Digits stay as they are. -/
theorem map_digits {digits : Text} (all : ∀ c ∈ digits, c.isDigit) : digits.map f = digits := by
  conv => rhs; rw [← List.map_id digits]
  apply List.map_congr_left
  intro c member
  exact renames.digit c (all c member)

theorem head?_ne {m : Char} (mark : m ∈ Text.marks) {s : Text} (absent : s.head? ≠ some m) :
    (s.map f).head? ≠ some m := by
  cases s with
  | nil => simp
  | cons c rest =>
    intro here
    have same := (renames.eq_mark_iff mark c).1 (Option.some.inj here)
    exact absent (congrArg some same)

/-! ## Reading -/

theorem closer?_map (s : Text) : Branches.closer? (s.map f) = Branches.closer? s := by
  have fixed : f '>' = '>' := renames.mark '>' (by decide)
  fun_induction Branches.closer? s with
  | case1 rest ih => rw [List.map_cons, List.map_cons, fixed, Branches.closer?_pair, ih]
  | case2 rest single =>
    have alone := renames.head?_ne (by decide) (Text.head?_ne_some single)
    rw [List.map_cons, fixed, Branches.closer?_lone alone]
  | case3 c rest _ _ ends =>
    rw [List.map_cons, Branches.closer?_of_isLineBreak ((renames.isLineBreak_eq c).trans ends)]
  | case4 c rest _ bracket inner ih =>
    have other : f c ≠ '>' := fun h => bracket ((renames.eq_mark_iff (by decide) c).1 h)
    have same : Text.isLineBreak (f c) = false := by
      rw [renames.isLineBreak_eq c]
      simpa using inner
    rw [List.map_cons, Branches.closer?_plain same other, ih]
  | case5 => rfl

theorem ofText?_map (s : Text) : Branches.ofText? (s.map f) = Branches.ofText? s := by
  have bar : f '|' = '|' := renames.mark '|' (by decide)
  have bracket : f '>' = '>' := renames.mark '>' (by decide)
  fun_induction Branches.ofText? s with
  | case1 rest ih => rw [List.map_cons, List.map_cons, bar, Branches.ofText?_bars, ih]
  | case2 rest ih => rw [List.map_cons, List.map_cons, bracket, Branches.ofText?_brackets, ih]
  | case3 rest single =>
    have alone := renames.head?_ne (by decide) (Text.head?_ne_some single)
    rw [List.map_cons, bar, Branches.ofText?_separator alone, renames.closer?_map]
  | case4 rest single =>
    have alone := renames.head?_ne (by decide) (Text.head?_ne_some single)
    rw [List.map_cons, bracket, Branches.ofText?_lone alone]
  | case5 c rest _ _ _ _ ends =>
    rw [List.map_cons, Branches.ofText?_of_isLineBreak ((renames.isLineBreak_eq c).trans ends)]
  | case6 c rest _ _ noBar noBracket inner ih =>
    have hs : f c ≠ '|' := fun h => noBar ((renames.eq_mark_iff (by decide) c).1 h)
    have hb : f c ≠ '>' := fun h => noBracket ((renames.eq_mark_iff (by decide) c).1 h)
    have same : Text.isLineBreak (f c) = false := by
      rw [renames.isLineBreak_eq c]
      simpa using inner
    rw [List.map_cons, Branches.ofText?_plain same hs hb, ih]
  | case7 => rfl

end Renaming

/-! ## Tags -/

/-- A head with its characters changed; the identifier is made of digits and stays. -/
def Head.rename (f : Char → Char) : Head → Head
  | closed identifier => closed identifier
  | branched identifier body => branched identifier (body.map f)

/-- A tag with the characters of its branches and of its raw text changed. -/
def Tag.rename (f : Char → Char) (tag : Tag) : Tag :=
  { tag with
    trueBranch := tag.trueBranch.map (List.map f)
    falseBranch := tag.falseBranch.map (List.map f)
    raw := tag.raw.map f }

theorem Tag.branch?_map (f : Char → Char) (written : Text) :
    branch? (written.map f) = (branch? written).map (List.map f) := by
  cases written <;> rfl

theorem Tag.ofClosed_map (f : Char → Char) (pos : Nat) (s identifier : Text) :
    ofClosed pos (s.map f) identifier = (ofClosed pos s identifier).rename f := by
  simp only [ofClosed, rename, Option.map_none, List.map_take]

theorem Tag.ofBranches_map (f : Char → Char) (pos : Nat) (s identifier body : Text)
    (branches : Branches) :
    ofBranches pos (s.map f) identifier (body.map f) branches =
      (ofBranches pos s identifier body branches).rename f := by
  simp only [ofBranches, rename, Branches.trueText, Branches.falseText, ← branch?_map,
    List.map_take, List.map_drop]

namespace Renaming

variable {f : Char → Char} (renames : Renaming f)

include renames

theorem front {letter : Char} {identifier : Text} (front : Head.Front letter identifier) :
    Head.Front (f letter) identifier :=
  ⟨renames.letter letter front.opener, front.nonempty, front.digits⟩

theorem map_front (letter mark : Char) {identifier : Text} (digits : ∀ c ∈ identifier, c.isDigit)
    (kept : f mark = mark) (after : Text) :
    ('<' :: letter :: ':' :: (identifier ++ mark :: after)).map f =
      '<' :: f letter :: ':' :: (identifier ++ mark :: after.map f) := by
  have bracket : f '<' = '<' := renames.mark '<' (by decide)
  have colon : f ':' = ':' := renames.mark ':' (by decide)
  simp [bracket, colon, kept, renames.map_digits digits]

/-- What is changed to the beginning of a tag was the beginning of a tag. -/
theorem eq_front_of_map {s after identifier : Text} {letter mark : Char}
    (front : Head.Front letter identifier) (listed : mark ∈ Text.marks)
    (written : s.map f = '<' :: letter :: ':' :: (identifier ++ mark :: after)) :
    ∃ first rest, Head.Front first identifier ∧
      s = '<' :: first :: ':' :: (identifier ++ mark :: rest) := by
  obtain ⟨c0, s, rfl, h0, written⟩ := List.map_eq_cons_iff.1 written
  obtain ⟨c1, s, rfl, h1, written⟩ := List.map_eq_cons_iff.1 written
  obtain ⟨c2, s, rfl, h2, written⟩ := List.map_eq_cons_iff.1 written
  obtain ⟨digits, s, rfl, h3, written⟩ := List.map_eq_append_iff.1 written
  obtain ⟨c4, rest, rfl, h4, -⟩ := List.map_eq_cons_iff.1 written
  have all : ∀ c ∈ digits, c.isDigit := by
    intro c member
    rw [← renames.isDigit_eq c]
    exact front.digits (f c) (h3 ▸ List.mem_map_of_mem member)
  rw [renames.map_digits all] at h3
  rw [renames.eq_mark_iff (by decide)] at h0 h2
  rw [renames.eq_mark_iff listed] at h4
  subst h0 h2 h3 h4
  have opener : c1 = 'x' ∨ c1 = 'X' := by
    rw [← renames.letter_iff, h1]
    exact front.opener
  exact ⟨c1, rest, ⟨opener, front.nonempty, front.digits⟩, rfl⟩

theorem read?_map (s : Text) : Head.read? (s.map f) = (Head.read? s).map (Head.rename f) := by
  cases head : Head.read? s with
  | some first =>
    cases first with
    | closed identifier =>
      obtain ⟨letter, after, front, rfl⟩ := Head.front_of_closed head
      rw [renames.map_front letter '>' front.digits (renames.mark '>' (by decide)),
        (renames.front front).read?_closed]
      rfl
    | branched identifier body =>
      obtain ⟨letter, front, rfl⟩ := Head.front_of_branched head
      rw [renames.map_front letter '?' front.digits (renames.mark '?' (by decide)),
        (renames.front front).read?_branched]
      rfl
  | none =>
    cases image : Head.read? (s.map f) with
    | none => rfl
    | some first =>
      -- a head of the changed text would have been one of the text
      cases first with
      | closed identifier =>
        obtain ⟨letter, after, front, written⟩ := Head.front_of_closed image
        obtain ⟨first, rest, before, rfl⟩ := renames.eq_front_of_map front (by decide) written
        rw [before.read?_closed] at head
        cases head
      | branched identifier body =>
        obtain ⟨letter, front, written⟩ := Head.front_of_branched image
        obtain ⟨first, rest, before, rfl⟩ := renames.eq_front_of_map front (by decide) written
        rw [before.read?_branched] at head
        cases head

theorem at?_map (pos : Nat) (s : Text) :
    Tag.at? pos (s.map f) = (Tag.at? pos s).map (Tag.rename f) := by
  cases head : Head.read? s with
  | none => simp [Tag.at?, renames.read?_map, head]
  | some first =>
    cases first with
    | closed identifier =>
      simp [Tag.at?, renames.read?_map, head, Head.rename, Tag.ofClosed_map]
    | branched identifier body =>
      simp only [Tag.at?, renames.read?_map, head, Option.map_some, Head.rename,
        renames.ofText?_map, Option.map_map]
      congr 1
      funext branches
      exact Tag.ofBranches_map f pos s identifier body branches

theorem tagsFrom_map (pos skip : Nat) (s : Text) :
    tagsFrom none pos skip (s.map f) = (tagsFrom none pos skip s).map (Tag.rename f) := by
  induction s generalizing pos skip with
  | nil => simp
  | cons c rest ih =>
    cases skip with
    | succ skip => exact ih (pos + 1) skip
    | zero =>
      have image := renames.at?_map pos (c :: rest)
      cases found : Tag.at? pos (c :: rest) with
      | none =>
        rw [found] at image
        rw [tagsFrom_of_absent found, ← ih]
        exact tagsFrom_of_absent image
      | some tag =>
        rw [found] at image
        rw [tagsFrom_of_found found]
        show _ = tag.rename f ::
          (tagsFrom none (pos + 1) (tag.stop - (pos + 1)) rest).map (Tag.rename f)
        rw [← ih]
        exact tagsFrom_of_found image

/-- **Tags of a changed text.** The same tags stand at the same places. -/
theorem tags_map (s : Text) : tags (s.map f) = (tags s).map (Tag.rename f) :=
  renames.tagsFrom_map 0 0 s

end Renaming

/-! ## Rendering -/

/-- Options with the characters of the defaults changed. -/
def Options.rename (f : Char → Char) (options : Options) : Options where
  trueDefault := options.trueDefault.map f
  falseDefault := options.falseDefault.map f

/-- A marker with the characters of its text and of its defaults changed. -/
def Marker.rename (f : Char → Char) (marker : Marker κ) : Marker κ where
  source := marker.source.map f
  options := marker.options.rename f
  criterion := marker.criterion

/-- Halving asks for nothing but which characters are the delimiter. -/
theorem Text.halve_map {f : Char → Char} {d : Char} (same : ∀ c, f c = d ↔ c = d) (s : Text) :
    halve d (s.map f) = (halve d s).map f := by
  have fixed : f d = d := (same d).2 rfl
  fun_induction halve d s with
  | case1 a b rest pair ih =>
    obtain ⟨rfl, rfl⟩ := pair
    simp only [List.map_cons, fixed, halve_pair, ih]
  | case2 a b rest other ih =>
    have apart : ¬ (f a = d ∧ f b = d) := by
      rw [same, same]
      exact other
    rw [List.map_cons, List.map_cons, halve, if_neg apart, List.map_cons, ← ih, List.map_cons]
  | case3 rest short =>
    cases rest with
    | nil => rfl
    | cons a rest =>
      cases rest with
      | nil => rfl
      | cons b rest => exact absurd rfl (short a b rest)

/-- Changed answers are woven into a changed text. -/
theorem weave_map (f : Char → Char) (pos : Nat) (rest : Text) (found : List Tag)
    (answers : List Text) :
    weave pos (rest.map f) (found.map (Tag.rename f)) (answers.map (List.map f)) =
      (weave pos rest found answers).map f := by
  induction found generalizing pos rest answers with
  | nil => rfl
  | cons tag later ih =>
    cases answers with
    | nil => rfl
    | cons shown answers =>
      simp only [List.map_cons, weave, Tag.rename, List.map_append, List.map_take, ← ih,
        List.map_drop]

namespace Renaming

variable {f : Char → Char} (renames : Renaming f)

include renames

theorem textFor_map (options : Options) (selected : Bool) (tag : Tag) :
    (options.rename f).textFor selected (tag.rename f) = (options.textFor selected tag).map f := by
  have bar := renames.eq_mark_iff (m := '|') (by decide)
  have bracket := renames.eq_mark_iff (m := '>') (by decide)
  cases selected with
  | true =>
    cases held : tag.trueBranch <;>
      simp [Options.textFor, Options.rename, Tag.rename, held, Text.unescapeTrue,
        Text.halve_map bar, Text.halve_map bracket]
  | false =>
    cases held : tag.falseBranch <;>
      simp [Options.textFor, Options.rename, Tag.rename, held, Text.unescapeFalse,
        Text.halve_map bracket]

theorem resolve_map (marker : Marker κ) (tag : Tag) :
    ((marker.rename f).resolve (tag.rename f) : Action κ σ Text) =
      List.map f <$> marker.resolve tag := by
  rw [Marker.resolve, Marker.resolve, map_bind]
  simp only [map_pure, ← renames.textFor_map]
  rfl

theorem mapM_resolve_map (marker : Marker κ) (found : List Tag) :
    ((found.map (Tag.rename f)).mapM (marker.rename f).resolve : Action κ σ (List Text)) =
      List.map (List.map f) <$> found.mapM marker.resolve := by
  induction found with
  | nil => rfl
  | cons tag later ih =>
    rw [List.map_cons, List.mapM_cons, List.mapM_cons, renames.resolve_map, ih]
    simp only [bind_map_left, map_bind, map_pure, List.map_cons]

/-- **Renderings of a changed text.** The criterion is asked the same, and the rendering is the
changed one. -/
theorem render_map (marker : Marker κ) :
    ((marker.rename f).render : Action κ σ Text) = List.map f <$> marker.render := by
  have found : (marker.rename f).tags = marker.tags.map (Tag.rename f) :=
    renames.tags_map marker.source
  have length : (marker.rename f).source.length = marker.source.length := List.length_map f
  rw [Marker.render_eq, Marker.render_eq, found, renames.mapM_resolve_map, length, List.length_map]
  simp only [bind_map_left, map_bind, map_pure, ← weave_map]
  rfl

end Renaming

/-! ## Outlines -/

/-- A character for all that are not told apart from it. -/
def Text.outline (c : Char) : Char :=
  if c = 'X' then 'x' else if Reserved c then c else 'a'

theorem Renaming.outline : Renaming Text.outline where
  mark c mark := by
    have upper : c ≠ 'X' := by
      rintro rfl
      exact absurd mark (by decide)
    rw [Text.outline, if_neg upper, if_pos (.inl mark)]
  digit c digit := by
    have upper : c ≠ 'X' := by
      rintro rfl
      simp at digit
    rw [Text.outline, if_neg upper, if_pos (.inr (.inl digit))]
  letter c letter := by
    rcases letter with rfl | rfl <;> exact .inl rfl
  other c other := by
    have upper : c ≠ 'X' := by
      rintro rfl
      exact other (by decide)
    rw [Text.outline, if_neg upper, if_neg other]
    decide

/-- **Renaming.** Let the characters of a text be changed so that marks and digits stay, the letters
of the opener stay among themselves, and no other character becomes one of these. Then the same tags
are found at the same places, with their characters changed. If the defaults are changed as well,
then to render the changed text is to render the text and to change what comes out, whatever the
criterion does. So texts in which characters that are not told apart stand for one another have tags
of the same identifiers at the same places. -/
theorem tags_rename (κ σ : Type) [Rules κ σ] :
    (∀ f : Char → Char, Renaming f →
      (∀ s : Text, tags (s.map f) = (tags s).map (Tag.rename f)) ∧
      ∀ marker : Marker κ,
        ((marker.rename f).render : Action κ σ Text) = List.map f <$> marker.render) ∧
    ∀ s t : Text, s.map Text.outline = t.map Text.outline →
      (tags s).map (fun tag => (tag.identifier, tag.start, tag.stop)) =
        (tags t).map fun tag => (tag.identifier, tag.start, tag.stop) := by
  refine ⟨?_, ?_⟩
  · intro f renames
    exact ⟨renames.tags_map, renames.render_map⟩
  · intro s t same
    have places (u : Text) : (tags (u.map Text.outline)).map
        (fun tag => (tag.identifier, tag.start, tag.stop)) =
          (tags u).map fun tag => (tag.identifier, tag.start, tag.stop) := by
      rw [Renaming.outline.tags_map, List.map_map]
      rfl
    rw [← places s, ← places t, same]

/-- Two texts of one outline: the letter of the opener is written in both ways, a digit of another
script and a line separator stand for other characters, and the last tag is backed off from. -/
theorem tags_rename_outline :
    let s : Text := "<x:1?a\u2028||b|>>><X:٣><X:2?c>>\n".toList
    let t : Text := "<X:1?é ||٣|>>><x:a><x:2?\u2028>>\n".toList
    let outlined : Text := "<x:1?aa||a|>>><x:a><x:2?a>>\n".toList
    s.map Text.outline = outlined ∧ t.map Text.outline = outlined ∧
      tags outlined = (tags s).map (Tag.rename Text.outline) ∧
      (∀ criterion : Criterion Empty,
        ((Marker.mk outlined ⟨['x'], ['a']⟩ criterion).render : Action Empty Unit Text) =
          List.map Text.outline <$> (Marker.mk s ⟨['X'], ['é']⟩ criterion).render) ∧
      (tags s).map (fun tag => (tag.identifier, tag.start, tag.stop)) =
        (tags t).map fun tag => (tag.identifier, tag.start, tag.stop) := by
  intro s t outlined
  have first : s.map Text.outline = outlined := by decide
  have second : t.map Text.outline = outlined := by decide
  obtain ⟨changed, places⟩ := tags_rename Empty Unit
  obtain ⟨found, renders⟩ := changed Text.outline Renaming.outline
  refine ⟨first, second, first ▸ found s, ?_, places s t (first.trans second.symm)⟩
  intro criterion
  rw [← first]
  exact renders ⟨s, ⟨['X'], ['é']⟩, criterion⟩

end Waymark
