import Waymark.Text.Basic

/-!
# Doubled delimiters

Inside a branch a delimiter is written twice. `halve d` reads each pair of `d` as one, from left to
right and without overlap; `double d` writes each `d` twice. Main statement: halving undoes
doubling (`halve_double`). A true branch has the two delimiters `|` and `>`, a false branch only
`>`.
-/

namespace Waymark.Text

/-- Reads each pair of the delimiter `d` as a single `d`; a `d` that stands alone is kept. -/
def halve (d : Char) : Text → Text
  | a :: b :: rest => if a = d ∧ b = d then d :: halve d rest else a :: halve d (b :: rest)
  | rest => rest

/-- Writes each `d` twice. -/
def double (d : Char) : Text → Text
  | [] => []
  | c :: rest => if c = d then d :: d :: double d rest else c :: double d rest

/-- The text that a written true branch stands for. -/
def unescapeTrue (s : Text) : Text := halve '>' (halve '|' s)

/-- The text that a written false branch stands for. -/
def unescapeFalse (s : Text) : Text := halve '>' s

/-- A text as it is written inside a true branch. -/
def escapeTrue (s : Text) : Text := double '|' (double '>' s)

/-- A text as it is written inside a false branch. -/
def escapeFalse (s : Text) : Text := double '>' s

/-! ## Halving -/

@[simp] theorem halve_nil (d : Char) : halve d [] = [] := rfl

@[simp] theorem halve_pair (d : Char) (rest : Text) :
    halve d (d :: d :: rest) = d :: halve d rest := by
  simp [halve]

/-- A character other than the delimiter is passed on as it is. -/
theorem halve_cons_of_ne {c d : Char} (other : c ≠ d) (rest : Text) :
    halve d (c :: rest) = c :: halve d rest := by
  cases rest with
  | nil => rfl
  | cons b rest => simp [halve, other]

/-- A delimiter before another character stands alone and is kept. -/
theorem halve_lone {c d : Char} (other : c ≠ d) (rest : Text) :
    halve d (d :: c :: rest) = d :: halve d (c :: rest) := by
  simp [halve, other]

/-- Halving only leaves characters out. -/
theorem halve_sublist (d : Char) (s : Text) : (halve d s).Sublist s := by
  fun_induction halve d s with
  | case1 a b rest pair ih =>
    obtain ⟨rfl, rfl⟩ := pair
    exact (ih.cons _).cons_cons _
  | case2 a b rest _ ih => exact ih.cons_cons a
  | case3 => exact List.Sublist.refl _

/-- Halving keeps a text that has no delimiter. -/
theorem halve_eq_self {d : Char} {s : Text} (absent : d ∉ s) : halve d s = s := by
  induction s with
  | nil => rfl
  | cons c rest ih =>
    rw [List.mem_cons, not_or] at absent
    rw [halve_cons_of_ne (Ne.symm absent.1), ih absent.2]

/-! ## Doubling -/

/-- Halving undoes doubling. -/
theorem halve_double (d : Char) (s : Text) : halve d (double d s) = s := by
  induction s with
  | nil => rfl
  | cons c rest ih =>
    by_cases h : c = d
    · simp [double, h, ih]
    · rw [double, if_neg h, halve_cons_of_ne h, ih]

theorem unescapeTrue_escapeTrue (s : Text) : unescapeTrue (escapeTrue s) = s := by
  rw [unescapeTrue, escapeTrue, halve_double, halve_double]

theorem unescapeFalse_escapeFalse (s : Text) : unescapeFalse (escapeFalse s) = s :=
  halve_double '>' s

/-! ## Branches, character by character -/

theorem escapeTrue_bar (s : Text) : escapeTrue ('|' :: s) = '|' :: '|' :: escapeTrue s := rfl

theorem escapeTrue_bracket (s : Text) : escapeTrue ('>' :: s) = '>' :: '>' :: escapeTrue s := rfl

theorem escapeTrue_plain {c : Char} (separator : c ≠ '|') (bracket : c ≠ '>') (s : Text) :
    escapeTrue (c :: s) = c :: escapeTrue s := by
  rw [escapeTrue, double, if_neg bracket, double, if_neg separator]
  rfl

theorem escapeFalse_bracket (s : Text) : escapeFalse ('>' :: s) = '>' :: '>' :: escapeFalse s := rfl

theorem escapeFalse_plain {c : Char} (bracket : c ≠ '>') (s : Text) :
    escapeFalse (c :: s) = c :: escapeFalse s := by
  rw [escapeFalse, double, if_neg bracket]
  rfl

end Waymark.Text
