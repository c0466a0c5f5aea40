import Waymark.Text.Basic

/-!
# Texts as runs

A text is made up of its maximal runs: stretches of one character each, where neighbours have
different characters. `runs` tells the runs of a text and `ofRuns` writes runs out again. Main
statements: nothing is lost (`ofRuns_runs`), and there is only one way to make up a text of maximal
runs (`runs_ofRuns`). `Run.halve` makes the runs of some characters half as long.
-/

namespace Waymark.Text

/-- One character, written one or more times. -/
structure Run where
  char : Char
  length : Nat
  pos : 0 < length
deriving Repr, DecidableEq

/-- Puts a character in front of runs. It makes the first of them longer, or is a run itself. -/
def Run.push (c : Char) : List Run → List Run
  | [] => [⟨c, 1, Nat.one_pos⟩]
  | run :: later =>
      if c = run.char then ⟨c, run.length + 1, Nat.succ_pos _⟩ :: later
      else ⟨c, 1, Nat.one_pos⟩ :: run :: later

/-- The maximal runs of a text. -/
def runs (s : Text) : List Run := s.foldr Run.push []

/-- The text that is made up of runs. -/
def ofRuns (runs : List Run) : Text := runs.flatMap fun run => List.replicate run.length run.char

/-- No run goes on in the next one. -/
def Maximal : List Run → Prop
  | [] => True
  | run :: later => (∀ next ∈ later.head?, next.char ≠ run.char) ∧ Maximal later

/-- Makes a run of one of the characters listed half as long, rounded up, and leaves any other
one. -/
def Run.halve (delimiters : List Char) (run : Run) : Run where
  char := run.char
  length := if run.char ∈ delimiters then (run.length + 1) / 2 else run.length
  pos := by
    have := run.pos
    split <;> omega

@[simp] theorem runs_nil : runs [] = [] := rfl

@[simp] theorem runs_cons (c : Char) (s : Text) : runs (c :: s) = Run.push c (runs s) := rfl

@[simp] theorem ofRuns_nil : ofRuns [] = [] := rfl

@[simp] theorem ofRuns_cons (run : Run) (later : List Run) :
    ofRuns (run :: later) = List.replicate run.length run.char ++ ofRuns later := rfl

/-! ## A text and its runs -/

theorem ofRuns_push (c : Char) (list : List Run) : ofRuns (Run.push c list) = c :: ofRuns list := by
  cases list with
  | nil => rfl
  | cons run later =>
    by_cases same : c = run.char
    · rw [Run.push, if_pos same, ofRuns_cons, List.replicate_succ, same]
      rfl
    · rw [Run.push, if_neg same]
      rfl

/-- **Nothing is lost.** A text is made up of its runs. -/
theorem ofRuns_runs (s : Text) : ofRuns (runs s) = s := by
  induction s with
  | nil => rfl
  | cons c rest ih => rw [runs_cons, ofRuns_push, ih]

/-- The first run of a text is one of its first character. -/
theorem char_of_mem_head?_push {c : Char} {list : List Run} {run : Run}
    (first : run ∈ (Run.push c list).head?) : run.char = c := by
  cases list with
  | nil =>
    obtain rfl := Option.some.inj first
    rfl
  | cons next later =>
    rw [Run.push] at first
    split at first
    · obtain rfl := Option.some.inj first
      rfl
    · obtain rfl := Option.some.inj first
      rfl

theorem Maximal.push {list : List Run} (maximal : Maximal list) (c : Char) :
    Maximal (Run.push c list) := by
  cases list with
  | nil => exact ⟨nofun, trivial⟩
  | cons run later =>
    obtain ⟨apart, rest⟩ := maximal
    by_cases same : c = run.char
    · rw [Run.push, if_pos same]
      refine ⟨?_, rest⟩
      rwa [← same] at apart
    · rw [Run.push, if_neg same]
      refine ⟨?_, apart, rest⟩
      intro next first
      obtain rfl := Option.some.inj first
      exact Ne.symm same

theorem maximal_runs (s : Text) : Maximal (runs s) := by
  induction s with
  | nil => trivial
  | cons c rest ih => exact ih.push c

/-- A run in front of a text that begins with another character is the first run. -/
theorem runs_replicate_append {c : Char} {s : Text} (apart : ∀ next ∈ (runs s).head?, next.char ≠ c)
    {length : Nat} (pos : 0 < length) :
    runs (List.replicate length c ++ s) = ⟨c, length, pos⟩ :: runs s := by
  induction length with
  | zero => exact absurd pos (Nat.lt_irrefl 0)
  | succ length ih =>
    rw [List.replicate_succ, List.cons_append, runs_cons]
    cases length with
    | zero =>
      rw [List.replicate_zero, List.nil_append]
      cases found : runs s with
      | nil => rfl
      | cons run later =>
        have other := apart run (by rw [found]; rfl)
        rw [Run.push, if_neg (Ne.symm other)]
    | succ length =>
      rw [ih (Nat.succ_pos _), Run.push, if_pos rfl]

/-- **Only one way.** Maximal runs are the runs of the text that they make up. -/
theorem runs_ofRuns {list : List Run} (maximal : Maximal list) : runs (ofRuns list) = list := by
  induction list with
  | nil => rfl
  | cons run later ih =>
    obtain ⟨apart, rest⟩ := maximal
    have same := ih rest
    rw [ofRuns_cons, runs_replicate_append (by rwa [same]) run.pos, same]

/-! ## Halved runs -/

theorem Maximal.map_halve {list : List Run} (maximal : Maximal list) (delimiters : List Char) :
    Maximal (list.map (Run.halve delimiters)) := by
  induction list with
  | nil => trivial
  | cons run later ih =>
    obtain ⟨apart, rest⟩ := maximal
    refine ⟨?_, ih rest⟩
    intro next first
    rw [List.head?_map] at first
    obtain ⟨before, member, rfl⟩ := Option.map_eq_some_iff.1 first
    exact apart before member

/-- Runs of different characters are halved apart from each other. -/
theorem Run.halve_halve {first second : List Char} (apart : ∀ c ∈ first, c ∉ second) (run : Run) :
    (run.halve second).halve first = run.halve (first ++ second) := by
  obtain ⟨c, length, pos⟩ := run
  by_cases inFirst : c ∈ first
  · simp [Run.halve, inFirst, apart c inFirst]
  · by_cases inSecond : c ∈ second <;> simp [Run.halve, inFirst, inSecond]

end Waymark.Text
