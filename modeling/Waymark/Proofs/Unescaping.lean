import Waymark.Text.Escape
import Waymark.Text.RunLength

/-!
# Unescaping in one pass

`Text.unescapeTrue` reads the pairs of the two delimiters in two passes, one after the other.
`Text.collapse` reads the pairs of all delimiters in one pass, from left to right. What a pass does
shows in the runs of the text: each run of a delimiter becomes half as long, rounded up, and all
runs stay apart (`Text.collapse_eq_ofRuns`). So passes for different delimiters neither make pairs
for each other nor break them, and one pass for all of them does the same (`Text.collapse_collapse`),
in whatever order they are made. Taken together: `Text.unescape_one_pass`.
-/

namespace Waymark.Text

/-- Reads each pair of a delimiter that is listed as a single one; anything else is kept. -/
def collapse (delimiters : List Char) : Text → Text
  | a :: b :: rest =>
      if a = b ∧ a ∈ delimiters then a :: collapse delimiters rest
      else a :: collapse delimiters (b :: rest)
  | rest => rest

/-- With one delimiter this is to halve it. -/
theorem halve_eq_collapse (d : Char) (s : Text) : halve d s = collapse [d] s := by
  fun_induction halve d s with
  | case1 a b rest pair ih =>
    obtain ⟨rfl, rfl⟩ := pair
    rw [collapse, if_pos ⟨rfl, List.mem_singleton.2 rfl⟩, ih]
  | case2 a b rest single ih =>
    have apart : ¬ (a = b ∧ a ∈ [d]) := by
      rintro ⟨rfl, listed⟩
      exact single ⟨List.mem_singleton.1 listed, List.mem_singleton.1 listed⟩
    rw [collapse, if_neg apart, ih]
  | case3 rest short =>
    rw [collapse]
    exact short

/-! ## One pass, seen in the runs -/

/-- Two more of a delimiter in front make one more of it once its run is halved. -/
theorem ofRuns_halve_pair {delimiters : List Char} {c : Char} (listed : c ∈ delimiters)
    (list : List Run) :
    ofRuns ((Run.push c (Run.push c list)).map (Run.halve delimiters)) =
      c :: ofRuns (list.map (Run.halve delimiters)) := by
  cases list with
  | nil => simp [Run.push, Run.halve, listed]
  | cons run later =>
    by_cases same : c = run.char
    · subst same
      have longer : (run.length + 1 + 1 + 1) / 2 = (run.length + 1) / 2 + 1 := by omega
      simp [Run.push, Run.halve, listed, longer, List.replicate_succ]
    · simp [Run.push, Run.halve, listed, same]

/-- A character in front is kept if it is no delimiter, or if it stands alone. -/
theorem ofRuns_halve_push {delimiters : List Char} {c : Char} {list : List Run}
    (kept : c ∈ delimiters → ∀ run ∈ list.head?, run.char ≠ c) :
    ofRuns ((Run.push c list).map (Run.halve delimiters)) =
      c :: ofRuns (list.map (Run.halve delimiters)) := by
  cases list with
  | nil => simp [Run.push, Run.halve]
  | cons run later =>
    by_cases same : c = run.char
    · have unlisted : c ∉ delimiters := fun listed => kept listed run rfl same.symm
      subst same
      simp [Run.push, Run.halve, unlisted, List.replicate_succ]
    · simp [Run.push, Run.halve, same]

/-- **Runs.** One pass makes each run of a delimiter half as long, rounded up, and keeps any other
run. -/
theorem collapse_eq_ofRuns (delimiters : List Char) (s : Text) :
    collapse delimiters s = ofRuns ((runs s).map (Run.halve delimiters)) := by
  fun_induction collapse delimiters s with
  | case1 a b rest pair ih =>
    obtain ⟨rfl, listed⟩ := pair
    rw [runs_cons, runs_cons, ofRuns_halve_pair listed, ih]
  | case2 a b rest single ih =>
    have kept : a ∈ delimiters → ∀ run ∈ (runs (b :: rest)).head?, run.char ≠ a := by
      intro listed run first same
      have next : run.char = b := char_of_mem_head?_push first
      exact single ⟨same.symm.trans next, listed⟩
    rw [runs_cons, ofRuns_halve_push kept, ih]
  | case3 rest short =>
    match rest, short with
    | [], _ => rfl
    | [c], _ =>
      rw [runs_cons, runs_nil, ofRuns_halve_push (by simp)]
      rfl
    | a :: b :: rest, short => exact absurd rfl (short a b rest)

/-- The runs that are left after a pass are the halved runs. -/
theorem runs_collapse (delimiters : List Char) (s : Text) :
    runs (collapse delimiters s) = (runs s).map (Run.halve delimiters) := by
  rw [collapse_eq_ofRuns, runs_ofRuns ((maximal_runs s).map_halve delimiters)]

/-! ## Several passes -/

/-- **Passes.** A pass for some delimiters after a pass for others is one pass for all of them. -/
theorem collapse_collapse {first second : List Char} (apart : ∀ c ∈ first, c ∉ second) (s : Text) :
    collapse first (collapse second s) = collapse (first ++ second) s := by
  rw [collapse_eq_ofRuns first, runs_collapse, List.map_map, collapse_eq_ofRuns]
  congr 2
  funext run
  exact Run.halve_halve apart run

/-- The order in which delimiters are listed does not matter. -/
theorem collapse_comm (first second : List Char) (s : Text) :
    collapse (first ++ second) s = collapse (second ++ first) s := by
  rw [collapse_eq_ofRuns, collapse_eq_ofRuns]
  congr 2
  funext run
  simp only [Run.halve, List.mem_append, or_comm]

theorem halve_halve {c d : Char} (other : c ≠ d) (s : Text) :
    halve c (halve d s) = collapse [c, d] s := by
  rw [halve_eq_collapse, halve_eq_collapse, collapse_collapse]
  · rfl
  · intro a listed
    rwa [List.mem_singleton.1 listed, List.mem_singleton]

/-- Halving a delimiter leaves out no other character. -/
theorem filter_halve (d : Char) (s : Text) :
    (halve d s).filter (fun c => c ≠ d) = s.filter fun c => c ≠ d := by
  fun_induction halve d s with
  | case1 a b rest pair ih =>
    obtain ⟨rfl, rfl⟩ := pair
    simpa using ih
  | case2 a b rest single ih => rw [List.filter_cons, List.filter_cons, ih]
  | case3 => rfl

/-- **One pass.** To unescape a true branch is to read its pairs `||` and `>>` in one pass from left
to right: each maximal run of one of the two delimiters becomes half as long, rounded up, and
anything else is kept; so the two passes may change places. To unescape a false branch is the same
for `>` alone, and leaves everything else where it is. So a true branch is unescaped like a false
one once its pairs `||` are read, and where it has no `|`, just like a false one. -/
theorem unescape_one_pass (s : Text) :
    (Maximal (runs s) ∧ ofRuns (runs s) = s) ∧
    (unescapeTrue s = collapse ['|', '>'] s ∧
      unescapeTrue s = ofRuns ((runs s).map (Run.halve ['|', '>'])) ∧
      unescapeTrue s = halve '|' (halve '>' s)) ∧
    (unescapeFalse s = collapse ['>'] s ∧
      unescapeFalse s = ofRuns ((runs s).map (Run.halve ['>'])) ∧
      (unescapeFalse s).filter (fun c => c ≠ '>') = s.filter fun c => c ≠ '>') ∧
    unescapeTrue s = unescapeFalse (collapse ['|'] s) ∧
    ('|' ∉ s → unescapeTrue s = unescapeFalse s) := by
  have onePass : unescapeTrue s = collapse ['|', '>'] s := by
    rw [unescapeTrue, halve_halve (by decide)]
    exact collapse_comm ['>'] ['|'] s
  have onePassFalse : unescapeFalse s = collapse ['>'] s := halve_eq_collapse '>' s
  refine ⟨⟨maximal_runs s, ofRuns_runs s⟩, ⟨onePass, ?_, ?_⟩, ⟨onePassFalse, ?_, ?_⟩, ?_, ?_⟩
  · rw [onePass, collapse_eq_ofRuns]
  · rw [onePass, halve_halve (by decide)]
  · rw [onePassFalse, collapse_eq_ofRuns]
  · exact filter_halve '>' s
  · rw [← halve_eq_collapse]
    rfl
  · intro absent
    rw [unescapeTrue, halve_eq_self absent]
    rfl

/-- Runs of odd and even lengths, and no `|`. -/
theorem unescape_one_pass_brackets :
    '|' ∉ ">>>a>> >".toList ∧ unescapeTrue ">>>a>> >".toList = ">>a> >".toList ∧
      unescapeTrue ">>>a>> >".toList = unescapeFalse ">>>a>> >".toList := by
  have absent : '|' ∉ ">>>a>> >".toList := by decide
  have known := unescape_one_pass ">>>a>> >".toList
  refine ⟨absent, ?_, known.2.2.2.2 absent⟩
  rw [known.2.1.2.1]
  decide

end Waymark.Text
