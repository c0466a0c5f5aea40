import Waymark.Text.Basic

/-!
# Decimal texts of integers

`Text.ofNat` and `Text.ofInt` write an integer with the digits `0` to `9`, without leading
zeros, and with a `-` before a negative one. Main statements: a natural number is written with
digits alone, and different integers are written differently (`ofInt_inj`).
-/

namespace Waymark.Text

/-- The decimal text of a natural number. -/
def ofNat (n : Nat) : Text := Nat.toDigits 10 n

/-- The decimal text of an integer. -/
def ofInt : Int → Text
  | .ofNat n => ofNat n
  | .negSucc n => '-' :: ofNat (n + 1)

theorem ofNat_ne_nil (n : Nat) : ofNat n ≠ [] := Nat.toDigits_ne_nil

/-- A natural number is written with digits alone. -/
theorem isDigit_of_mem_ofNat {n : Nat} {c : Char} (member : c ∈ ofNat n) : c.isDigit :=
  Nat.isDigit_of_mem_toDigits (by decide) (by decide) member

theorem ofNat_inj {m n : Nat} : ofNat m = ofNat n ↔ m = n := by
  constructor
  · intro same
    have := congrArg (Nat.ofDigitChars 10 · 0) same
    simpa [ofNat] using this
  · rintro rfl
    rfl

/-- No natural number is written with a `-`. -/
theorem cons_minus_ne_ofNat (s : Text) (n : Nat) : '-' :: s ≠ ofNat n := by
  intro same
  have digit : ('-' : Char).isDigit := isDigit_of_mem_ofNat (n := n) (by rw [← same]; simp)
  exact absurd digit (by decide)

/-- Different integers have different texts. -/
theorem ofInt_inj {i j : Int} : ofInt i = ofInt j ↔ i = j := by
  constructor
  · intro same
    cases i with
    | ofNat m =>
      cases j with
      | ofNat n => rw [ofNat_inj.1 same]
      | negSucc n => exact absurd same.symm (cons_minus_ne_ofNat _ _)
    | negSucc m =>
      cases j with
      | ofNat n => exact absurd same (cons_minus_ne_ofNat _ _)
      | negSucc n =>
        have := ofNat_inj.1 (List.cons.inj same).2
        rw [Nat.succ.inj this]
  · rintro rfl
    rfl

end Waymark.Text
