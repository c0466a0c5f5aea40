import Waymark.Text.Basic

/-!
# Tags

A tag is written `<x:ID>`, `<x:ID?TRUE>` or `<x:ID?TRUE|FALSE>`. `Tag` records where a tag stands in
its text and what it holds; `Head` is what the beginning of a tag tells: its identifier, and
whether branches follow.
-/

namespace Waymark

/-- A tag of a text. Its branches are as written, with doubled delimiters; an empty branch counts
as absent. -/
structure Tag where
  /-- Decimal digits; identifiers are compared as texts, so `7` and `07` differ. -/
  identifier : Text
  /-- What stands for the tag when its identifier is selected. -/
  trueBranch : Option Text
  /-- What stands for the tag when its identifier is not selected. -/
  falseBranch : Option Text
  /-- Offset of the tag's first character. -/
  start : Nat
  /-- Offset just after the tag's last character. -/
  stop : Nat
  /-- The tag as it stands in the text. -/
  raw : Text
deriving Repr, DecidableEq, Inhabited

/-- A branch as a tag stores it: an empty branch is no branch. -/
def Tag.branch? (written : Text) : Option Text :=
  if written = [] then none else some written

/-- The same tag in a text that has `amount` more characters before it. -/
def Tag.shift (amount : Nat) (tag : Tag) : Tag :=
  { tag with start := tag.start + amount, stop := tag.stop + amount }

@[simp] theorem Tag.branch?_nil : Tag.branch? [] = none := rfl

@[simp] theorem Tag.branch?_cons (c : Char) (rest : Text) :
    Tag.branch? (c :: rest) = some (c :: rest) := rfl

/-- A stored branch is never empty. -/
theorem Tag.branch?_ne_some_nil (written : Text) : Tag.branch? written ≠ some [] := by
  cases written <;> simp

@[simp] theorem Tag.shift_zero (tag : Tag) : tag.shift 0 = tag := rfl

theorem Tag.shift_shift (first second : Nat) (tag : Tag) :
    (tag.shift first).shift second = tag.shift (first + second) := by
  simp [Tag.shift, Nat.add_assoc]

/-- The beginning of a tag: opener, identifier, and the mark after it. -/
inductive Head where
  /-- The tag ends right after its identifier. -/
  | closed (identifier : Text)
  /-- A `?` follows the identifier, and then comes `body`. -/
  | branched (identifier body : Text)
deriving Repr, DecidableEq

/-- The head that follows an opener: as many digits as there are, at least one, and then `>` or
`?`. -/
def Head.ofDigits? (rest : Text) : Option Head :=
  match rest.takeWhile Char.isDigit, rest.dropWhile Char.isDigit with
  | [], _ => none
  | identifier, '>' :: _ => some (.closed identifier)
  | identifier, '?' :: body => some (.branched identifier body)
  | _, _ => none

/-- The head at the beginning of a text. The opener is `<x:` or `<X:`. -/
def Head.read? : Text → Option Head
  | '<' :: 'x' :: ':' :: rest => ofDigits? rest
  | '<' :: 'X' :: ':' :: rest => ofDigits? rest
  | _ => none

namespace Head

/-- A head after an opener, written out. -/
theorem eq_of_ofDigits? {rest : Text} {head : Head} (found : ofDigits? rest = some head) :
    (∃ identifier after, head = .closed identifier ∧ rest = identifier ++ '>' :: after ∧
        identifier ≠ [] ∧ ∀ c ∈ identifier, c.isDigit) ∨
      ∃ identifier body, head = .branched identifier body ∧ rest = identifier ++ '?' :: body ∧
        identifier ≠ [] ∧ ∀ c ∈ identifier, c.isDigit := by
  have split := List.takeWhile_append_dropWhile (p := Char.isDigit) (l := rest)
  have digits : ∀ c ∈ rest.takeWhile Char.isDigit, c.isDigit :=
    List.all_eq_true.1 List.all_takeWhile
  unfold ofDigits? at found
  generalize rest.takeWhile Char.isDigit = identifier at found split digits
  generalize rest.dropWhile Char.isDigit = after at found split
  split at found
  · simp at found
  · exact .inl ⟨_, _, (Option.some.inj found).symm, split.symm, by assumption, digits⟩
  · exact .inr ⟨_, _, (Option.some.inj found).symm, split.symm, by assumption, digits⟩
  · simp at found

/-- What comes before the branches of a tag: an opener, digits and a `?`. -/
theorem eq_of_branched {s identifier body : Text}
    (found : read? s = some (.branched identifier body)) :
    ∃ letter, (letter = 'x' ∨ letter = 'X') ∧
      s = '<' :: letter :: ':' :: (identifier ++ '?' :: body) ∧
      identifier ≠ [] ∧ ∀ c ∈ identifier, c.isDigit := by
  unfold read? at found
  split at found
  · rcases eq_of_ofDigits? found with ⟨_, _, h, _⟩ | ⟨_, _, h, rfl, digits⟩
    · simp at h
    · obtain ⟨rfl, rfl⟩ := Head.branched.inj h
      exact ⟨'x', .inl rfl, rfl, digits⟩
  · rcases eq_of_ofDigits? found with ⟨_, _, h, _⟩ | ⟨_, _, h, rfl, digits⟩
    · simp at h
    · obtain ⟨rfl, rfl⟩ := Head.branched.inj h
      exact ⟨'X', .inr rfl, rfl, digits⟩
  · simp at found

/-- What a tag without branches is: an opener, digits and a `>`. -/
theorem eq_of_closed {s identifier : Text} (found : read? s = some (.closed identifier)) :
    ∃ letter after, (letter = 'x' ∨ letter = 'X') ∧
      s = '<' :: letter :: ':' :: (identifier ++ '>' :: after) ∧
      identifier ≠ [] ∧ ∀ c ∈ identifier, c.isDigit := by
  unfold read? at found
  split at found
  · rcases eq_of_ofDigits? found with ⟨_, after, h, rfl, digits⟩ | ⟨_, _, h, _⟩
    · obtain rfl := Head.closed.inj h
      exact ⟨'x', after, .inl rfl, rfl, digits⟩
    · simp at h
  · rcases eq_of_ofDigits? found with ⟨_, after, h, rfl, digits⟩ | ⟨_, _, h, _⟩
    · obtain rfl := Head.closed.inj h
      exact ⟨'X', after, .inr rfl, rfl, digits⟩
    · simp at h
  · simp at found

end Head

end Waymark
