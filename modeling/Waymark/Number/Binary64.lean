/-!
# Numbers in the 64-bit binary format

A number of this format is held by its bits: a sign, eleven bits of exponent and fifty-two of
fraction. `value` decodes them to an exact sign, significand and power of two; `integer?` is the
integer that the number denotes, whatever its size, if it denotes one.
-/

namespace Waymark

/-- A number in the 64-bit binary format. -/
structure Binary64 where
  /-- Sign, exponent field and fraction field, from the highest bit down. -/
  bits : UInt64
deriving Repr, DecidableEq

namespace Binary64

/-- What the bits of a number denote. -/
inductive Value where
  /-- Plus or minus `significand * 2 ^ exponent`. -/
  | finite (negative : Bool) (significand : Nat) (exponent : Int)
  | infinite (negative : Bool)
  | notANumber
deriving Repr, DecidableEq

/-- The sign bit. -/
def negative (x : Binary64) : Bool := decide (Nat.pow 2 63 ≤ x.bits.toNat)

/-- The eleven bits of the exponent. -/
def exponentField (x : Binary64) : Nat := x.bits.toNat / Nat.pow 2 52 % Nat.pow 2 11

/-- The fifty-two bits of the fraction. -/
def fractionField (x : Binary64) : Nat := x.bits.toNat % Nat.pow 2 52

/-- Decodes the bits. The least exponent field marks the numbers without the implied leading bit,
the greatest one marks what is not finite. -/
def value (x : Binary64) : Value :=
  if x.exponentField = 2047 then
    if x.fractionField = 0 then .infinite x.negative else .notANumber
  else if x.exponentField = 0 then .finite x.negative x.fractionField (-1074)
  else .finite x.negative (Nat.pow 2 52 + x.fractionField) ((x.exponentField : Int) - 1075)

/-- Whether the next number toward zero is only half as far away as the next one away from it:
true of the powers of two, the smallest ones excepted. -/
def narrowBelow (x : Binary64) : Bool := x.fractionField == 0 && 1 < x.exponentField

/-- The natural number `significand * 2 ^ exponent`, if it is one. -/
def natural? (significand : Nat) : Int → Option Nat
  | .ofNat e => some (significand * Nat.pow 2 e)
  | .negSucc e =>
      let divisor := Nat.pow 2 (e + 1)
      if significand % divisor = 0 then some (significand / divisor) else none

/-- The integer that a number denotes, if it denotes one; both zeros denote `0`. -/
def integer? (x : Binary64) : Option Int :=
  match x.value with
  | .finite negative significand exponent =>
      (natural? significand exponent).map fun n => if negative then -(n : Int) else n
  | _ => none

end Binary64

end Waymark
