import Waymark.Number.Integer
import Waymark.Number.Shortest

/-!
# How a binary number is written

`Layout` gathers the decisions of a number's written form: where positional notation ends, how wide
an exponent is. `Binary64.text` writes a number with the fewest digits that read back, in the layout
`plain`.
-/

namespace Waymark

/-- The decisions of a written form, in terms of the point: how many of a number's digits stand
before its decimal point. -/
structure Layout where
  /-- The least point that is written positionally. -/
  leastPoint : Int
  /-- The greatest point that is written positionally. -/
  greatestPoint : Int
  /-- The least count of digits of an exponent. -/
  exponentWidth : Nat

namespace Layout

/-- Numbers from `0.0001` to below `10 ^ 16` are written positionally, all others with an exponent
of at least two digits. -/
def plain : Layout where
  leastPoint := -3
  greatestPoint := 16
  exponentWidth := 2

/-- An exponent with its sign, filled up with zeros. -/
def exponentText (layout : Layout) (exponent : Int) : Text :=
  let digits := Text.ofNat exponent.natAbs
  (if exponent < 0 then '-' else '+') ::
    (List.replicate (layout.exponentWidth - digits.length) '0' ++ digits)

/-- Digits with a point after the first `point` of them; at least one digit stands on either
side. -/
def positional (digits : Text) (point : Int) : Text :=
  if point ≤ 0 then '0' :: '.' :: (List.replicate (-point).toNat '0' ++ digits)
  else
    let whole := digits.take point.toNat
    let fraction := digits.drop point.toNat
    whole ++ List.replicate (point.toNat - digits.length) '0' ++
      '.' :: (if fraction = [] then ['0'] else fraction)

/-- Digits with a point after the first, if there are more, and an exponent. -/
def scientific (layout : Layout) (digits : Text) (point : Int) : Text :=
  let mantissa := match digits with
    | first :: next :: rest => first :: '.' :: next :: rest
    | digits => digits
  mantissa ++ 'e' :: layout.exponentText (point - 1)

/-- Writes `0.DIGITS * 10 ^ point`. -/
def write (layout : Layout) (digits : Text) (point : Int) : Text :=
  if layout.leastPoint ≤ point ∧ point ≤ layout.greatestPoint then positional digits point
  else layout.scientific digits point

end Layout

/-- The digits of a decimal without the zeros at their end. -/
def Decimal.significant (d : Decimal) : Text :=
  ((Text.ofNat d.digits).reverse.dropWhile (· == '0')).reverse

/-- How many of a decimal's digits stand before its point. -/
def Decimal.point (d : Decimal) : Int := (Text.ofNat d.digits).length + d.exponent

namespace Binary64

/-- The text of a number without its sign. -/
def magnitudeText (x : Binary64) (significand : Nat) (exponent : Int) : Text :=
  if significand = 0 then ['0', '.', '0']
  else
    let shortest := Magnitude.shortest { significand, exponent, narrowBelow := x.narrowBelow }
    Layout.plain.write shortest.significant shortest.point

/-- The text of a number, with the fewest digits that read back. -/
def text (x : Binary64) : Text :=
  let signed (negative : Bool) (rest : Text) : Text := if negative then '-' :: rest else rest
  match x.value with
  | .finite negative significand exponent =>
      signed negative (x.magnitudeText significand exponent)
  | .infinite negative => signed negative ['i', 'n', 'f']
  | .notANumber => ['n', 'a', 'n']

end Binary64

end Waymark
