import Waymark.Number.Binary64

/-!
# The fewest digits that read back

A decimal reads back as a binary number if that number is the one nearest to it, an exact half
going to the even significand. `Magnitude.shortest` finds, among the decimals that read back, one
with the fewest digits, and of these the nearest. All arithmetic is exact: a decimal of exponent
`k` and the ends of the interval of decimals that read back are compared on one common scale.
-/

namespace Waymark

/-- A positive number `significand * 2 ^ exponent` of a binary format. -/
structure Magnitude where
  significand : Nat
  exponent : Int
  /-- The gap to the next smaller number is half the gap to the next greater one. -/
  narrowBelow : Bool
deriving Repr, DecidableEq

/-- The decimal number `digits * 10 ^ exponent`. -/
structure Decimal where
  digits : Nat
  exponent : Int
deriving Repr, DecidableEq

namespace Magnitude

/-- The exponent of the decade of a number: the least `p` with `significand * 2 ^ exponent` below
`10 ^ p`. -/
def point (x : Magnitude) : Int :=
  let upper := x.significand * Nat.pow 2 x.exponent.toNat
  let lower := Nat.pow 2 (-x.exponent).toNat
  if lower ≤ upper then ((Nat.toDigits 10 (upper / lower)).length : Int)
  else 1 - ((Nat.toDigits 10 ((lower + upper - 1) / upper - 1)).length : Int)

/-- One step of the decimal grid with exponent `k`, on the scale of that grid. -/
def step (x : Magnitude) (k : Int) : Nat := Nat.pow 10 k.toNat * Nat.pow 2 (2 - x.exponent).toNat

/-- A quarter of the gap above the number, on the scale of the decimal grid with exponent `k`. -/
def quarter (x : Magnitude) (k : Int) : Nat :=
  Nat.pow 2 (x.exponent - 2).toNat * Nat.pow 10 (-k).toNat

/-- Whether `digits * 10 ^ k` reads back as the number: it lies no more than half a gap from it, and
nearer than that if the significand is odd. -/
def readsBack (x : Magnitude) (k : Int) (digits : Nat) : Bool :=
  let low := (4 * x.significand - if x.narrowBelow then 1 else 2) * x.quarter k
  let high := (4 * x.significand + 2) * x.quarter k
  let place := digits * x.step k
  if x.significand % 2 = 0 then decide (low ≤ place ∧ place ≤ high)
  else decide (low < place ∧ place < high)

/-- The decimal with exponent `k` that reads back, if there is one: one of the two neighbours of the
number on that grid, the nearer one if both do, the even one if both are as near. -/
def onGrid? (x : Magnitude) (k : Int) : Option Decimal :=
  let centre := 4 * x.significand * x.quarter k
  let below := centre / x.step k
  let above := below + 1
  let middle := (below + above) * x.step k
  match x.readsBack k below, x.readsBack k above with
  | false, false => none
  | true, false => some ⟨below, k⟩
  | false, true => some ⟨above, k⟩
  | true, true =>
      if 2 * centre < middle ∨ (2 * centre = middle ∧ below % 2 = 0) then some ⟨below, k⟩
      else some ⟨above, k⟩

/-- The number itself as a decimal. -/
def exact (x : Magnitude) : Decimal where
  digits := x.significand * Nat.pow 2 x.exponent.toNat * Nat.pow 5 (-x.exponent).toNat
  exponent := min x.exponent 0

/-- The shortest decimal that reads back. One with at most seventeen digits is always found. -/
def shortest (x : Magnitude) : Decimal :=
  ((List.range 17).findSome? fun n : Nat => x.onGrid? (x.point - (n + 1))).getD x.exact

end Magnitude

end Waymark
