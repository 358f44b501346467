import HopQuery.Decimal.Binary64

/-!
# Shortest decimals

The decimal text of a number in double precision: the fewest digits that still round to the
number, and of those the nearest to it, an exact half going to the even last digit. Exponents from
-5 to 15 are written positionally, with `.0` after a whole number; all others in scientific form
with a signed exponent.

* `Magnitude.Interval`, `Magnitude.interval`: the reals that round to a magnitude;
* `Magnitude.shortest`: its digits and their decimal exponent;
* `Binary64.text`: the text of a number.
-/

namespace HopQuery

namespace Magnitude

/-- The reals that round to a magnitude, in quarters of a unit. -/
structure Interval where
  low : Nat
  value : Nat
  high : Nat
  /-- Whether the two ends round to the magnitude as well. -/
  closed : Bool

/-- The interval of a magnitude: half-way to either neighbour, of which the lower one is half as
far where the scale changes. The ends belong to it if the significand is even. -/
def interval (m : Magnitude) : Interval where
  low := 4 * m.units - (if m.rank % binade = 0 ∧ 2 * binade ≤ m.rank then 1 else 2) * Nat.pow 2 m.scale
  value := 4 * m.units
  high := 4 * m.units + 2 * Nat.pow 2 m.scale
  closed := m.significand % 2 = 0

/-- Whether the interval holds `num / den` quarters of a unit. -/
def Interval.holds (i : Interval) (num den : Nat) : Bool :=
  if i.closed then i.low * den ≤ num && num ≤ i.high * den
  else i.low * den < num && num < i.high * den

/-- The number one in quarters of a unit. -/
def one : Nat := Nat.pow 2 1076

/-- The number whose multiple of `num / den` lies in the interval and is nearest to its value, if
there is one: that of one of the two multiples next to the value. -/
def Interval.multiple? (i : Interval) (num den : Nat) : Option Nat :=
  let below := i.value * den / num
  let above := below + 1
  match i.holds (below * num) den, i.holds (above * num) den with
  | false, false => none
  | true, false => some below
  | false, true => some above
  | true, true =>
    let toBelow := i.value * den - below * num
    let toAbove := above * num - i.value * den
    if toBelow < toAbove ∨ (toBelow = toAbove ∧ below % 2 = 0) then some below else some above

/-- The multiple of `10 ^ exponent` in the interval that is nearest to its value, if there is
one. -/
def Interval.gridPoint? (i : Interval) (exponent : Int) : Option Nat :=
  i.multiple? (Nat.pow 10 exponent.toNat * one) (Nat.pow 10 (-exponent).toNat)

/-- A decimal exponent so large that its grid has no point in the interval of the magnitude but
zero. -/
def exponentBound (m : Magnitude) : Int :=
  ((Nat.log2 m.units : Int) - 1072) * 30103 / 100000 + 2

/-- The digits and the decimal exponent of the coarsest grid with a point in the interval. -/
def shortest (m : Magnitude) : Nat × Int :=
  let top := m.exponentBound
  let found := (List.range 25).findSome? (fun (i : Nat) =>
    (m.interval.gridPoint? (top - i)).map (·, top - i))
  found.getD (0, 0)

end Magnitude

namespace Binary64

/-- Numbers whose leading digit has an exponent from `lowestPlace` to `highestPlace` are written
positionally. -/
def lowestPlace : Int := -5

/-- The upper end of the exponents that are written positionally. -/
def highestPlace : Int := 15

/-- The text of a decimal number `digits * 10 ^ exponent` with the leading digit at `place`. -/
def positional (digits : List Char) (exponent place : Int) : List Char :=
  if 0 ≤ exponent then digits ++ List.replicate exponent.toNat '0' ++ ['.', '0']
  else if 0 ≤ place then
    digits.take (place.toNat + 1) ++ '.' :: digits.drop (place.toNat + 1)
  else '0' :: '.' :: List.replicate (-place - 1).toNat '0' ++ digits

/-- The text of a decimal number with the leading digit at `place`, in scientific form. -/
def scientific (digits : List Char) (place : Int) : List Char :=
  let mantissa := match digits with
    | [] => []
    | [d] => [d]
    | d :: rest => d :: '.' :: rest
  let sign := if place < 0 then '-' else '+'
  mantissa ++ 'e' :: sign :: (toString place.natAbs).toList

/-- The text of the decimal number `number * 10 ^ exponent`. -/
def decimalText (number : Nat) (exponent : Int) : List Char :=
  let digits := (toString number).toList
  let place := exponent + (digits.length : Int) - 1
  if lowestPlace ≤ place ∧ place ≤ highestPlace then positional digits exponent place
  else scientific digits place

/-- The text of a number without a sign. -/
def unsignedText (m : Magnitude) : List Char :=
  if m.rank = 0 then ['0', '.', '0'] else decimalText m.shortest.1 m.shortest.2

/-- The text of a number. -/
def text (x : Binary64) : String :=
  String.ofList (if x.negative then '-' :: unsignedText x.magnitude else unsignedText x.magnitude)

end Binary64

end HopQuery
