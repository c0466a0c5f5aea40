import Waymark.Rendering

/-!
# Writing texts with tags

A document is made of pieces: literal texts, and tags with the branches that they stand for.
`write` gives its text, with delimiters in branches doubled. `tagsAt` and `meaning` say, without a
scan, what tags stand in that text and what it renders to. `WellFormed` is what a writer has to see
to, so that the literal texts do not look like tags; it can be checked.
-/

namespace Waymark

/-- A piece of a document. Branches are given as the texts that they stand for. -/
inductive Piece where
  | literal (text : Text)
  /-- A tag without branches. -/
  | bare (identifier : Text)
  /-- A tag with a true branch only. -/
  | single (identifier trueText : Text)
  /-- A tag with both branches. -/
  | double (identifier trueText falseText : Text)
deriving Repr, DecidableEq

namespace Piece

/-- A piece as it is written. -/
def write : Piece → Text
  | literal text => text
  | bare identifier => ['<', 'x', ':'] ++ identifier ++ ['>']
  | single identifier trueText =>
      ['<', 'x', ':'] ++ identifier ++ ['?'] ++ Text.escapeTrue trueText ++ ['>']
  | double identifier trueText falseText =>
      ['<', 'x', ':'] ++ identifier ++ ['?'] ++ Text.escapeTrue trueText ++ ['|'] ++
        Text.escapeFalse falseText ++ ['>']

/-- The tag of a piece that is written at `pos`. -/
def tagAt? (pos : Nat) (piece : Piece) : Option Tag :=
  let tag (identifier trueText falseText : Text) : Tag :=
    { identifier,
      trueBranch := Tag.branch? (Text.escapeTrue trueText),
      falseBranch := Tag.branch? (Text.escapeFalse falseText),
      start := pos, stop := pos + piece.write.length, raw := piece.write }
  match piece with
  | literal _ => none
  | bare identifier => some (tag identifier [] [])
  | single identifier trueText => some (tag identifier trueText [])
  | double identifier trueText falseText => some (tag identifier trueText falseText)

/-- What a piece renders to. -/
def meaning (selects : Text → Bool) (options : Options) (piece : Piece) : Text :=
  let shown (identifier trueText falseText : Text) : Text :=
    if selects identifier then if trueText = [] then options.trueDefault else trueText
    else if falseText = [] then options.falseDefault else falseText
  match piece with
  | literal text => text
  | bare identifier => shown identifier [] []
  | single identifier trueText => shown identifier trueText []
  | double identifier trueText falseText => shown identifier trueText falseText

/-- One or more digits. -/
def Identifier (s : Text) : Prop := s ≠ [] ∧ ∀ c ∈ s, c.isDigit

/-- A text within one line. -/
def OneLine (s : Text) : Prop := ∀ c ∈ s, Text.isLineBreak c = false

/-- What the parts of a tag have to be. The text of a false branch does not begin with a `|`, which
would be read as one pair with the `|` before it. -/
def WellFormed : Piece → Prop
  | literal _ => True
  | bare identifier => Identifier identifier
  | single identifier trueText => Identifier identifier ∧ OneLine trueText
  | double identifier trueText falseText =>
      Identifier identifier ∧ OneLine trueText ∧ OneLine falseText ∧ falseText.head? ≠ some '|'

end Piece

namespace Document

/-- The text of a document. -/
def write (pieces : List Piece) : Text := pieces.flatMap Piece.write

/-- The tags of a document that is written at `pos`. -/
def tagsAt : Nat → List Piece → List Tag
  | _, [] => []
  | pos, piece :: rest => (piece.tagAt? pos).toList ++ tagsAt (pos + piece.write.length) rest

/-- What a document renders to. -/
def meaning (selects : Text → Bool) (options : Options) (pieces : List Piece) : Text :=
  pieces.flatMap (Piece.meaning selects options)

/-- The literal text before the first tag of a document. -/
def leading : List Piece → Text
  | .literal text :: rest => text ++ leading rest
  | _ => []

/-- A text in which no digit follows an opener. -/
def NoOpener (s : Text) : Prop :=
  ∀ before letter digit after, s = before ++ '<' :: letter :: ':' :: digit :: after →
    letter = 'x' ∨ letter = 'X' → digit.isDigit = false

/-- What has to hold after a piece: no stretch of literal text after a tag holds an opener with a
digit, and none after the `>` of a tag with branches begins with a `>`, which would be read as one
pair with it. -/
def Follows (rest : List Piece) : Piece → Prop
  | .literal _ => True
  | .bare _ => NoOpener (leading rest)
  | .single _ _ | .double _ _ _ => NoOpener (leading rest) ∧ (leading rest).head? ≠ some '>'

/-- Each piece of a document is well formed, and so is what follows it. -/
def PiecesFit : List Piece → Prop
  | [] => True
  | piece :: rest => piece.WellFormed ∧ Follows rest piece ∧ PiecesFit rest

/-- A document whose tags are read back. -/
def WellFormed (pieces : List Piece) : Prop := NoOpener (leading pieces) ∧ PiecesFit pieces

end Document

/-! ## Checking a document -/

instance (s : Text) : Decidable (Piece.Identifier s) :=
  have := List.decidableBAll (fun c : Char => c.isDigit = true) s
  inferInstanceAs (Decidable (s ≠ [] ∧ ∀ c ∈ s, c.isDigit))

instance (s : Text) : Decidable (Piece.OneLine s) :=
  List.decidableBAll (fun c => Text.isLineBreak c = false) s

instance Piece.decidableWellFormed : (piece : Piece) → Decidable piece.WellFormed
  | literal _ => isTrue trivial
  | bare identifier => inferInstanceAs (Decidable (Identifier identifier))
  | single identifier trueText =>
      inferInstanceAs (Decidable (Identifier identifier ∧ OneLine trueText))
  | double identifier trueText falseText =>
      inferInstanceAs (Decidable (Identifier identifier ∧ OneLine trueText ∧ OneLine falseText ∧
        falseText.head? ≠ some '|'))

namespace Document

/-- Whether a text begins with an opener and a digit. -/
def opens : Text → Bool
  | '<' :: letter :: ':' :: digit :: _ => (letter == 'x' || letter == 'X') && digit.isDigit
  | _ => false

theorem noOpener_nil : NoOpener [] := by
  intro before letter digit after written
  simp at written

theorem noOpener_cons {c : Char} {s : Text} :
    NoOpener (c :: s) ↔ opens (c :: s) = false ∧ NoOpener s := by
  constructor
  · intro free
    refine ⟨?_, ?_⟩
    · unfold opens
      split
      · rename_i letter digit after written
        have first := free [] letter digit after written
        cases digits : digit.isDigit <;> simp_all
      · rfl
    · intro before letter digit after written
      exact free (c :: before) letter digit after (by rw [written, List.cons_append])
  · rintro ⟨first, free⟩ before letter digit after written opener
    cases before with
    | nil =>
      rw [written] at first
      rcases opener with rfl | rfl <;> simpa [opens] using first
    | cons d before =>
      exact free before letter digit after (List.cons.inj written).2 opener

instance decidableNoOpener : (s : Text) → Decidable (NoOpener s)
  | [] => isTrue noOpener_nil
  | c :: s =>
      have := decidableNoOpener s
      decidable_of_iff (opens (c :: s) = false ∧ NoOpener s) noOpener_cons.symm

instance decidableFollows (rest : List Piece) : (piece : Piece) → Decidable (Follows rest piece)
  | .literal _ => isTrue trivial
  | .bare _ => inferInstanceAs (Decidable (NoOpener (leading rest)))
  | .single _ _ | .double _ _ _ =>
      inferInstanceAs (Decidable (NoOpener (leading rest) ∧ (leading rest).head? ≠ some '>'))

instance decidablePiecesFit : (pieces : List Piece) → Decidable (PiecesFit pieces)
  | [] => isTrue trivial
  | piece :: rest =>
      have := decidablePiecesFit rest
      inferInstanceAs (Decidable (piece.WellFormed ∧ Follows rest piece ∧ PiecesFit rest))

instance (pieces : List Piece) : Decidable (WellFormed pieces) :=
  inferInstanceAs (Decidable (NoOpener (leading pieces) ∧ PiecesFit pieces))

end Document

end Waymark
