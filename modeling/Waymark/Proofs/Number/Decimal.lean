import Mathlib.Data.List.Basic
import Mathlib.Data.List.Induction
import Waymark.Number.Integer

/-!
# Decimals

What the decimal of a number is, told by reading it: digits that have the value of the number, and
that begin with a `0` only if they are nothing else (`IsDecimal`); before those of a negative number
stands a `-` (`IsSignedDecimal`). Each integer has exactly one decimal, and that is how it is written
(`isSignedDecimal_iff`).
-/

namespace Waymark.Text

/-- The text is the decimal of a natural number. -/
structure IsDecimal (n : Nat) (s : Text) : Prop where
  nonempty : s ≠ []
  digits : ∀ c ∈ s, c.isDigit
  value : Nat.ofDigitChars 10 s 0 = n
  leading : s.head? = some '0' → s = ['0']

/-- The text is the decimal of an integer. -/
def IsSignedDecimal : Int → Text → Prop
  | .ofNat n, s => IsDecimal n s
  | .negSucc n, s => ∃ digits, s = '-' :: digits ∧ IsDecimal (n + 1) digits

theorem exists_digitChar {c : Char} (digit : c.isDigit) : ∃ k < 10, c = Nat.digitChar k := by
  have range : 48 ≤ c.toNat ∧ c.toNat ≤ 57 := by
    simpa [Char.isDigit, UInt32.le_iff_toNat_le] using digit
  refine ⟨c.toNat - 48, by omega, ?_⟩
  apply Char.toNat_inj.1
  rw [Nat.toNat_digitChar_of_lt_ten (by omega)]
  omega

/-- Only the decimal of zero begins with a `0`. -/
theorem eq_zero_of_head?_ofNat {n : Nat} (leading : (ofNat n).head? = some '0') : n = 0 := by
  induction n using Nat.strongRecOn with
  | ind n ih =>
    rcases Nat.lt_or_ge n 10 with small | large
    · rw [ofNat, Nat.toDigits_of_lt_base small] at leading
      simpa using leading
    · rw [ofNat, Nat.toDigits_of_base_le (by decide) large,
        List.head?_append_of_ne_nil _ Nat.toDigits_ne_nil] at leading
      have front := ih (n / 10) (by omega) leading
      omega

/-- **Uniqueness.** Digits without a `0` in front are the decimal of their value. -/
theorem ofNat_ofDigitChars {s : Text} (nonempty : s ≠ []) (digits : ∀ c ∈ s, c.isDigit)
    (leading : s.head? = some '0' → s = ['0']) : ofNat (Nat.ofDigitChars 10 s 0) = s := by
  induction s using List.reverseRecOn with
  | nil => exact absurd rfl nonempty
  | append_singleton front last ih =>
    obtain ⟨k, small, rfl⟩ := exists_digitChar (digits last (by simp))
    have value : Nat.ofDigitChars 10 (front ++ [k.digitChar]) 0 =
        10 * Nat.ofDigitChars 10 front 0 + k := by
      rw [Nat.ofDigitChars_append, Nat.ofDigitChars_cons_digitChar_of_lt_ten small,
        Nat.ofDigitChars_nil]
    rw [value, ofNat]
    by_cases single : front = []
    · subst single
      rw [Nat.ofDigitChars_nil, Nat.mul_zero, Nat.zero_add, Nat.toDigits_of_lt_base small]
      rfl
    · -- two digits or more do not begin with a `0`, and neither do they without the last one
      have plain : front.head? ≠ some '0' := by
        intro zero
        have whole := leading (by rwa [List.head?_append_of_ne_nil _ single])
        have lengths := congrArg List.length whole
        rw [List.length_append] at lengths
        exact single (List.eq_nil_of_length_eq_zero (by simpa using lengths))
      have rest := ih single (fun c member => digits c (by simp [member]))
        (fun zero => absurd zero plain)
      have positive : 0 < Nat.ofDigitChars 10 front 0 := by
        apply Nat.pos_of_ne_zero
        intro zero
        rw [zero] at rest
        rw [← rest] at plain
        exact plain rfl
      rw [← Nat.toDigits_append_toDigits (by decide) positive small,
        Nat.toDigits_of_lt_base small]
      exact congrArg (· ++ [k.digitChar]) rest

theorem isDecimal_iff {n : Nat} {s : Text} : IsDecimal n s ↔ s = ofNat n := by
  constructor
  · rintro ⟨nonempty, digits, rfl, leading⟩
    exact (ofNat_ofDigitChars nonempty digits leading).symm
  · rintro rfl
    refine ⟨ofNat_ne_nil n, fun c => isDigit_of_mem_ofNat, Nat.ofDigitChars_ten_toDigits, ?_⟩
    intro leading
    rw [eq_zero_of_head?_ofNat leading]
    rfl

/-- **Decimals.** An integer has one decimal, the text that it is written with. -/
theorem isSignedDecimal_iff {n : Int} {s : Text} : IsSignedDecimal n s ↔ s = ofInt n := by
  cases n with
  | ofNat n => exact isDecimal_iff
  | negSucc n =>
    constructor
    · rintro ⟨digits, rfl, decimal⟩
      rw [isDecimal_iff.1 decimal]
      rfl
    · rintro rfl
      exact ⟨ofNat (n + 1), rfl, isDecimal_iff.2 rfl⟩

/-- A decimal has no `0` in front. -/
theorem IsSignedDecimal.leading {n : Int} {s : Text} (decimal : IsSignedDecimal n s)
    (zero : s.head? = some '0') : s = ['0'] := by
  cases n with
  | ofNat n => exact IsDecimal.leading decimal zero
  | negSucc n =>
    obtain ⟨digits, rfl, -⟩ := decimal
    exact absurd (Option.some.inj zero) (by decide)

end Waymark.Text
