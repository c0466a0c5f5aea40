import Waymark.Text.Basic

/-!
# The lines of a text

`Text.lines` takes a text apart at its line breaks, and `Lines.text` puts it together again. The
line breaks are kept, since there are two of them. Main statements: nothing is lost (`text_lines`),
and no line has a line break (`isLineBreak_of_mem_lines`).
-/

namespace Waymark

/-- Lines, each after the first one with the line break before it. -/
structure Lines where
  first : Text
  later : List (Char × Text)
deriving Repr, DecidableEq

namespace Lines

/-- The text of the lines. -/
def text (lines : Lines) : Text :=
  lines.first ++ lines.later.flatMap fun (ending, line) => ending :: line

/-- Each line changed, with the line breaks as they are. -/
def map (change : Text → Text) (lines : Lines) : Lines where
  first := change lines.first
  later := lines.later.map fun (ending, line) => (ending, change line)

/-- The lines themselves. -/
def list (lines : Lines) : List Text := lines.first :: lines.later.map Prod.snd

theorem list_map (change : Text → Text) (lines : Lines) :
    (lines.map change).list = lines.list.map change := by
  simp [list, map]

theorem text_nil (first : Text) : text ⟨first, []⟩ = first := List.append_nil first

theorem text_cons (first : Text) (ending : Char) (line : Text) (later : List (Char × Text)) :
    text ⟨first, (ending, line) :: later⟩ = first ++ ending :: text ⟨line, later⟩ := by
  simp [text]

/-- Of lines without line breaks the text has the line breaks between them, in their order. -/
theorem filter_text {lines : Lines}
    (inner : ∀ line ∈ lines.list, ∀ c ∈ line, Text.isLineBreak c = false)
    (between : ∀ entry ∈ lines.later, Text.isLineBreak entry.1 = true) :
    lines.text.filter Text.isLineBreak = lines.later.map Prod.fst := by
  obtain ⟨first, later⟩ := lines
  have empty {line : Text} (plain : ∀ c ∈ line, Text.isLineBreak c = false) :
      line.filter Text.isLineBreak = [] := by
    simpa [List.filter_eq_nil_iff] using plain
  induction later generalizing first with
  | nil =>
    rw [text_nil]
    exact empty (inner first List.mem_cons_self)
  | cons entry later ih =>
    obtain ⟨ending, line⟩ := entry
    have rest := ih line (fun other member => inner other (List.mem_cons_of_mem first member))
      (fun entry member => between entry (List.mem_cons_of_mem (ending, line) member))
    have ends : Text.isLineBreak ending = true := between (ending, line) List.mem_cons_self
    rw [text_cons, List.filter_append, empty (inner first List.mem_cons_self),
      List.filter_cons_of_pos ends, rest]
    rfl

end Lines

namespace Text

/-- The lines of a text. -/
def lines : Text → Lines
  | [] => ⟨[], []⟩
  | c :: rest =>
      let after := lines rest
      if isLineBreak c then ⟨[], (c, after.first) :: after.later⟩
      else ⟨c :: after.first, after.later⟩

theorem lines_break {c : Char} (ends : isLineBreak c = true) (rest : Text) :
    lines (c :: rest) = ⟨[], (c, (lines rest).first) :: (lines rest).later⟩ := by
  simp [lines, ends]

theorem lines_inner {c : Char} (inner : isLineBreak c = false) (rest : Text) :
    lines (c :: rest) = ⟨c :: (lines rest).first, (lines rest).later⟩ := by
  simp [lines, inner]

/-- A text is made of its lines. -/
theorem text_lines (s : Text) : (lines s).text = s := by
  induction s with
  | nil => rfl
  | cons c rest ih =>
    cases ends : isLineBreak c with
    | true =>
      rw [lines_break ends, Lines.text_cons]
      exact congrArg (c :: ·) ih
    | false =>
      rw [lines_inner ends]
      exact congrArg (c :: ·) ih

/-- No line has a line break, and only line breaks are between the lines. -/
theorem isLineBreak_of_mem_lines (s : Text) :
    (∀ line ∈ (lines s).list, ∀ c ∈ line, isLineBreak c = false) ∧
      ∀ entry ∈ (lines s).later, isLineBreak entry.1 = true := by
  induction s with
  | nil => simp [lines, Lines.list]
  | cons c rest ih =>
    cases ends : isLineBreak c with
    | true =>
      rw [lines_break ends]
      simpa [Lines.list, ends] using ih
    | false =>
      rw [lines_inner ends]
      simpa [Lines.list, ends] using ih

end Text

end Waymark
