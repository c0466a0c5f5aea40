import Waymark.Pattern

/-!
# Trying the successes of a pattern in turn

`Pattern.tries p s next` goes through the ways to match `p` at the beginning of `s`, the preferred
one first, and answers with the first of them from which `next` goes on. There is one equation for
each kind of pattern, so that a whole pattern is followed from left to right; a repetition takes one
more round first, and stops only if that leads nowhere (`tries_many`).
-/

namespace Waymark

variable {ι α : Type}

/-- Two successes in a row, the second one where the first one ended. -/
def Success.join (first second : Success ι) : Success ι :=
  ⟨first.captures ++ second.captures, second.rest⟩

namespace Pattern

/-- The answer of `next` to the first success that it does not refuse. -/
def tries (p : Pattern ι) (s : Text) (next : Success ι → Option α) : Option α :=
  (p.successes s).findSome? next

theorem first?_eq_tries (p : Pattern ι) (s : Text) : p.first? s = p.tries s some := by
  rw [first?, tries]
  cases p.successes s <;> rfl

private theorem findSome?_flatMap {β γ : Type} (items : List β) (inner : β → List γ)
    (next : γ → Option α) :
    (items.flatMap inner).findSome? next = items.findSome? fun item =>
      (inner item).findSome? next := by
  induction items with
  | nil => rfl
  | cons item items ih =>
    rw [List.flatMap_cons, List.findSome?_append, ih, List.findSome?_cons]
    cases (inner item).findSome? next <;> rfl

@[simp] theorem tries_one_nil (accepts : Char → Bool) (next : Success ι → Option α) :
    (one accepts).tries [] next = none := rfl

theorem tries_one_cons (accepts : Char → Bool) (c : Char) (rest : Text)
    (next : Success ι → Option α) :
    (one accepts).tries (c :: rest) next = if accepts c then next ⟨[], rest⟩ else none := by
  rw [tries, successes_one_cons]
  by_cases h : accepts c
  · simp [h]
  · simp [h]

theorem tries_char_cons (c : Char) (rest : Text) (next : Success ι → Option α) :
    (char c).tries (c :: rest) next = next ⟨[], rest⟩ := by
  rw [char, tries_one_cons, if_pos (beq_self_eq_true c)]

theorem tries_char_other {c : Char} {s : Text} (other : s.head? ≠ some c)
    (next : Success ι → Option α) : (char c).tries s next = none := by
  cases s with
  | nil => rfl
  | cons d rest =>
    rw [char, tries_one_cons]
    exact if_neg fun h => other (by simpa using h)

theorem tries_sequence (first second : Pattern ι) (s : Text) (next : Success ι → Option α) :
    (sequence first second).tries s next = first.tries s fun done =>
      second.tries done.rest fun last => next (done.join last) := by
  rw [tries, successes_sequence, findSome?_flatMap]
  simp only [List.findSome?_map]
  rfl

theorem tries_choice (first second : Pattern ι) (s : Text) (next : Success ι → Option α) :
    (choice first second).tries s next = (first.tries s next).or (second.tries s next) := by
  rw [tries, successes_choice, List.findSome?_append]
  rfl

theorem tries_optional (inner : Pattern ι) (s : Text) (next : Success ι → Option α) :
    (optional inner).tries s next = (inner.tries s next).or (next ⟨[], s⟩) := by
  rw [tries, successes_optional, List.findSome?_append, List.findSome?_singleton]
  rfl

theorem tries_capture (name : ι) (inner : Pattern ι) (s : Text) (next : Success ι → Option α) :
    (capture name inner).tries s next = inner.tries s fun done =>
      next ⟨(name, s.take (s.length - done.rest.length)) :: done.captures, done.rest⟩ := by
  rw [tries, successes_capture, List.findSome?_map]
  rfl

/-! ## Repetitions -/

/-- A pattern that takes at least one character whenever it matches. -/
def Consumes (p : Pattern ι) : Prop :=
  ∀ s, ∀ done ∈ p.successes s, done.rest.length < s.length

theorem consumes_one (accepts : Char → Bool) : (one accepts : Pattern ι).Consumes := by
  intro s done member
  cases s with
  | nil => simp [successes_one_nil] at member
  | cons c rest =>
    rw [successes_one_cons] at member
    split at member
    · obtain rfl := List.mem_singleton.1 member
      exact Nat.lt_succ_self _
    · simp at member

theorem Consumes.sequence {first : Pattern ι} (consumes : first.Consumes) {second : Pattern ι}
    (also : second.Consumes) : (sequence first second).Consumes := by
  intro s done member
  rw [successes_sequence] at member
  obtain ⟨before, hb, member⟩ := List.mem_flatMap.1 member
  obtain ⟨last, hl, rfl⟩ := List.mem_map.1 member
  exact Nat.lt_trans (also before.rest last hl) (consumes s before hb)

theorem Consumes.choice {first second : Pattern ι} (consumes : first.Consumes)
    (also : second.Consumes) : (choice first second).Consumes := by
  intro s done member
  rw [successes_choice] at member
  rcases List.mem_append.1 member with member | member
  · exact consumes s done member
  · exact also s done member

/-- Where every round takes a character, more rounds than characters add nothing. -/
theorem Consumes.repeated_succ {p : Pattern ι} (consumes : p.Consumes) {count : Nat} {s : Text}
    (enough : s.length ≤ count) :
    repeated p.successes (count + 1) s = repeated p.successes count s := by
  induction count generalizing s with
  | zero =>
    obtain rfl := List.eq_nil_of_length_eq_zero (Nat.le_zero.1 enough)
    -- nothing is left that a further round could take
    have stuck : p.successes [] = [] := by
      apply List.eq_nil_iff_forall_not_mem.2
      intro done member
      exact absurd (consumes [] done member) (Nat.not_lt_zero _)
    rw [Pattern.repeated_succ, stuck, List.flatMap_nil, List.nil_append]
    rfl
  | succ count ih =>
    rw [Pattern.repeated_succ, Pattern.repeated_succ]
    congr 1
    refine congrArg List.flatten (List.map_congr_left ?_)
    intro first member
    have shorter := consumes s first member
    rw [ih (by omega)]

theorem Consumes.repeated_eq {p : Pattern ι} (consumes : p.Consumes) {count : Nat} {s : Text}
    (enough : s.length ≤ count) :
    repeated p.successes count s = repeated p.successes s.length s := by
  obtain ⟨more, rfl⟩ := Nat.exists_eq_add_of_le enough
  induction more with
  | zero => rfl
  | succ more ih =>
    rw [← Nat.add_assoc, consumes.repeated_succ (Nat.le_add_right ..), ih (Nat.le_add_right ..)]

/-- A repetition takes one more round, or else it stops. -/
theorem Consumes.tries_many {p : Pattern ι} (consumes : p.Consumes) (s : Text)
    (next : Success ι → Option α) :
    (many p).tries s next =
      (p.tries s fun done => (many p).tries done.rest fun last => next (done.join last)).or
        (next ⟨[], s⟩) := by
  -- the bound on the rounds is the length of the text, which is less behind the first round
  have unrolled : (many p).successes s =
      ((p.successes s).flatMap fun first => ((many p).successes first.rest).map first.join) ++
        [⟨[], s⟩] := by
    rw [successes_many, ← consumes.repeated_succ (Nat.le_refl _), Pattern.repeated_succ]
    congr 1
    refine congrArg List.flatten (List.map_congr_left ?_)
    intro first member
    have shorter := consumes s first member
    rw [successes_many, consumes.repeated_eq (Nat.le_of_lt shorter)]
    rfl
  rw [tries, unrolled, List.findSome?_append, findSome?_flatMap, List.findSome?_singleton]
  simp only [List.findSome?_map]
  rfl

end Pattern

end Waymark
