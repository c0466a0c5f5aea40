import Waymark.Options
import Waymark.Proofs.Tag.BackOff
import Waymark.Proofs.Tag.Spelling

/-!
# Writing tags again

To unescape a text loses how it was written: `|` may have been `|` or `||`. But a branch that was
read is an escaped text, however it ended (`Tag.exists_escaped_of_chosen`), and so escaping what it
stands for gives the branch again (`Tag.escape_unescape_of_chosen`). With the opener, the identifier
and the separators this is enough to write the tag again (`Tag.raw_eq_spell`). Taken together:
`tags_reescaped`.
-/

namespace Waymark

/-! ## Branches of either kind -/

/-- A text as it is written in the branch of a selected tag, or of one that is not selected. -/
def Text.escape (selected : Bool) (s : Text) : Text :=
  if selected then escapeTrue s else escapeFalse s

/-- The text that such a branch stands for. -/
def Text.unescape (selected : Bool) (s : Text) : Text :=
  if selected then unescapeTrue s else unescapeFalse s

theorem Text.unescape_escape (selected : Bool) (s : Text) :
    unescape selected (escape selected s) = s := by
  cases selected with
  | true => exact unescapeTrue_escapeTrue s
  | false => exact unescapeFalse_escapeFalse s

namespace Tag

/-- The branch that stands for the tag if it is selected, or if it is not. -/
def chosen (tag : Tag) (selected : Bool) : Option Text :=
  if selected then tag.trueBranch else tag.falseBranch

/-- What a tag renders to if nothing stands in for an absent branch. -/
def shown (tag : Tag) (selected : Bool) : Text :=
  Options.textFor { trueDefault := [], falseDefault := [] } selected tag

variable {s : Text} {tag : Tag} {selected : Bool} {branch : Text}

/-- What stands in for absent branches does not matter for a branch that is there. -/
theorem textFor_of_chosen (held : tag.chosen selected = some branch) (options : Options) :
    options.textFor selected tag = Text.unescape selected branch := by
  cases selected <;> simp_all [Options.textFor, chosen, Text.unescape]

theorem shown_of_absent (absent : tag.chosen selected = none) : tag.shown selected = [] := by
  cases selected <;> simp_all [shown, Options.textFor, chosen]

/-! ## Branches written again -/

theorem exists_escaped_of_at? {pos : Nat} (found : at? pos s = some tag) :
    (∃ text, tag.trueWritten = Text.escapeTrue text) ∧
      ∃ text, tag.falseWritten = Text.escapeFalse text := by
  unfold at? at found
  split at found
  · simp at found
  · obtain rfl := Option.some.inj found
    exact ⟨⟨[], rfl⟩, ⟨[], rfl⟩⟩
  · obtain ⟨branches, read, rfl⟩ := Option.map_eq_some_iff.1 found
    rw [trueWritten_ofBranches, falseWritten_ofBranches]
    exact ⟨Branches.trueText_escaped read, Branches.falseText_escaped read⟩

/-- A branch that is read is an escaped text. -/
theorem exists_escaped_of_chosen (member : tag ∈ tags s)
    (held : tag.chosen selected = some branch) : ∃ text, branch = Text.escape selected text := by
  obtain ⟨first, second⟩ := exists_escaped_of_at? (at?_of_mem member)
  cases selected with
  | true =>
    have written : tag.trueWritten = branch := congrArg (Option.getD · []) held
    rwa [written] at first
  | false =>
    have written : tag.falseWritten = branch := congrArg (Option.getD · []) held
    rwa [written] at second

/-- **Writing branches again.** To escape what a branch stands for gives the branch. -/
theorem escape_unescape_of_chosen (member : tag ∈ tags s)
    (held : tag.chosen selected = some branch) :
    Text.escape selected (Text.unescape selected branch) = branch := by
  obtain ⟨text, rfl⟩ := exists_escaped_of_chosen member held
  rw [Text.unescape_escape]

theorem escape_shown (member : tag ∈ tags s) (selected : Bool) :
    Text.escape selected (tag.shown selected) = (tag.chosen selected).getD [] := by
  cases held : tag.chosen selected with
  | none =>
    rw [shown_of_absent held]
    cases selected <;> rfl
  | some branch =>
    rw [shown, textFor_of_chosen held, escape_unescape_of_chosen member held]
    rfl

/-- A branch that is there stands for some text. -/
theorem unescape_ne_nil_of_chosen (member : tag ∈ tags s)
    (held : tag.chosen selected = some branch) : Text.unescape selected branch ≠ [] := by
  intro empty
  have spelled := spelled_of_at? (at?_of_mem member)
  have written := escape_unescape_of_chosen member held
  rw [empty] at written
  cases selected with
  | true =>
    obtain rfl : [] = branch := written
    exact spelled.trueBranch_ne held
  | false =>
    obtain rfl : [] = branch := written
    exact spelled.falseBranch_ne held

/-- Branches that stand for the same text are the same. -/
theorem chosen_eq_of_textFor_eq {s' : Text} {other : Tag} (member : tag ∈ tags s)
    (member' : other ∈ tags s') {options options' : Options} (present : tag.chosen selected ≠ none)
    (present' : other.chosen selected ≠ none)
    (same : options.textFor selected tag = options'.textFor selected other) :
    tag.chosen selected = other.chosen selected := by
  obtain ⟨branch, held⟩ := Option.ne_none_iff_exists'.1 present
  obtain ⟨branch', held'⟩ := Option.ne_none_iff_exists'.1 present'
  rw [textFor_of_chosen held, textFor_of_chosen held'] at same
  rw [held, held', ← escape_unescape_of_chosen member held, same,
    escape_unescape_of_chosen member' held']

/-! ## Tags written again -/

/-- The separators of a tag. -/
inductive Separators where
  | neither
  /-- A `?` after the identifier. -/
  | question
  /-- A `?` after the identifier, and a `|` after the true branch. -/
  | both
deriving Repr, DecidableEq

/-- The separators that the tag is written with. -/
def separators (tag : Tag) : Separators :=
  if tag.Branched then
    if tag.raw[tag.identifier.length + 4 + tag.trueWritten.length]? = some '|' then .both
    else .question
  else .neither

/-- A tag as it is written, where the branches are given as the texts that they stand for. -/
def Separators.spell (opener identifier trueShown falseShown : Text) : Separators → Text
  | neither => opener ++ identifier ++ ['>']
  | question => opener ++ identifier ++ '?' :: (Text.escapeTrue trueShown ++ ['>'])
  | both =>
      opener ++ identifier ++
        '?' :: (Text.escapeTrue trueShown ++ '|' :: (Text.escapeFalse falseShown ++ ['>']))

/-- **Writing a tag again.** The raw text of a tag is spelled out of its opener, its identifier, what
its branches render to, and its separators. -/
theorem raw_eq_spell (member : tag ∈ tags s) :
    tag.raw = tag.separators.spell (tag.raw.take 3) tag.identifier (tag.shown true)
      (tag.shown false) := by
  have trueEq : Text.escapeTrue (tag.shown true) = tag.trueWritten := escape_shown member true
  have falseEq : Text.escapeFalse (tag.shown false) = tag.falseWritten := escape_shown member false
  obtain ⟨letter, ending, -, written, raw⟩ := (spelled_of_at? (at?_of_mem member)).raw_eq
  have opener : tag.raw.take 3 = ['<', letter, ':'] := by
    rw [raw, List.append_assoc]
    rfl
  -- the ending begins behind the three characters of the opener and the identifier
  have behind (offset : Nat) : tag.raw[tag.identifier.length + 3 + offset]? = ending[offset]? := by
    rw [raw, List.getElem?_append_right (by simp)]
    congr 1
    simp
  have mark := behind 0
  have bar := behind (1 + tag.trueWritten.length)
  rw [← Nat.add_assoc, Nat.add_comm 1] at bar
  cases written with
  | closed =>
    have closed : ¬ tag.Branched := by
      rw [Branched, mark]
      simp
    rw [separators, if_neg closed, Separators.spell, opener, raw]
  | single =>
    have question : tag.Branched := mark
    rw [List.getElem?_cons_succ, List.getElem?_append_right (Nat.le_refl _), Nat.sub_self] at bar
    rw [separators, if_pos question, bar, if_neg (by simp), Separators.spell, opener, raw, trueEq]
  | double =>
    have question : tag.Branched := mark
    rw [List.getElem?_cons_succ, List.getElem?_append_right (Nat.le_refl _), Nat.sub_self,
      List.getElem?_cons_zero] at bar
    rw [separators, if_pos question, bar, if_pos rfl, Separators.spell, opener, raw, trueEq, falseEq]

end Tag

/-- **Writing tags again.** Escaping what a branch of a tag is unescaped to gives the branch. So a
branch that is there renders to some text, branches that render to the same text are the same, and a
tag is spelled out of its opener, its identifier, what its branches render to, and its separators. -/
theorem tags_reescaped (s : Text) :
    (∀ tag ∈ tags s,
      (∀ branch, tag.trueBranch = some branch →
        Text.escapeTrue (Text.unescapeTrue branch) = branch) ∧
      (∀ branch, tag.falseBranch = some branch →
        Text.escapeFalse (Text.unescapeFalse branch) = branch) ∧
      (∀ (options : Options) (selected : Bool), tag.chosen selected ≠ none →
        options.textFor selected tag ≠ []) ∧
      tag.raw = tag.separators.spell (tag.raw.take 3) tag.identifier (tag.shown true)
        (tag.shown false)) ∧
    ∀ s' : Text, ∀ tag ∈ tags s, ∀ other ∈ tags s',
      ∀ (options options' : Options) (selected : Bool),
        tag.chosen selected ≠ none → other.chosen selected ≠ none →
          options.textFor selected tag = options'.textFor selected other →
            tag.chosen selected = other.chosen selected := by
  refine ⟨?_, ?_⟩
  · intro tag member
    refine ⟨?_, ?_, ?_, Tag.raw_eq_spell member⟩
    · intro branch held
      exact @Tag.escape_unescape_of_chosen s tag true branch member held
    · intro branch held
      exact @Tag.escape_unescape_of_chosen s tag false branch member held
    · intro options selected present
      obtain ⟨branch, held⟩ := Option.ne_none_iff_exists'.1 present
      rw [Tag.textFor_of_chosen held]
      exact Tag.unescape_ne_nil_of_chosen member held
  · intro s' tag member other member' options options' selected
    exact Tag.chosen_eq_of_textFor_eq member member'

/-- Two tags with the same false branch, the second with a separator and no true branch before it.
Reading the first one backed off. -/
theorem tags_reescaped_twice :
    let s := "<x:1?a||>>b|c|>>>>\n<X:2?|c|>> >".toList
    let first : Tag :=
      ⟨['1'], some "a||>>b".toList, some "c|>>".toList, 0, 17, "<x:1?a||>>b|c|>>>".toList⟩
    let second : Tag := ⟨['2'], none, some "c|>> ".toList, 19, 31, "<X:2?|c|>> >".toList⟩
    first ∈ tags s ∧ second ∈ tags s ∧
      Text.escapeTrue (Text.unescapeTrue "a||>>b".toList) = "a||>>b".toList ∧
      second.raw = Tag.Separators.both.spell "<X:".toList ['2'] [] "c|> ".toList ∧
      ({} : Options).textFor false first ≠ ({} : Options).textFor false second := by
  intro s first second
  have memberFirst : first ∈ tags s := by decide
  have memberSecond : second ∈ tags s := by decide
  have known := tags_reescaped s
  refine ⟨memberFirst, memberSecond, ?_, ?_, ?_⟩
  · exact (known.1 first memberFirst).1 _ rfl
  · exact (known.1 second memberSecond).2.2.2
  · intro same
    have equal := known.2 s first memberFirst second memberSecond {} {} false (by decide) (by decide)
      same
    simp [Tag.chosen, first, second] at equal

end Waymark
