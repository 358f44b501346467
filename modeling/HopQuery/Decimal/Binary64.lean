/-!
# Numbers in double precision

The finite numbers of the 64-bit binary format. The magnitudes are numbered in increasing order,
from zero to the largest one; a number is a sign with such a rank, so there are two zeros. Every
magnitude is a whole number of units of `2 ^ -1074`, and arithmetic is exact arithmetic on units
followed by one rounding to the nearest magnitude, a half going to the even significand.

* `Magnitude`: the ranks, with `significand`, `scale` and `units`;
* `Magnitude.nearest?`: the magnitude next to a quotient;
* `Magnitude.mul?`, `Magnitude.div?`: rounded products and quotients;
* `Binary64`: a sign with a magnitude.
-/

namespace HopQuery

/-- The number of magnitudes that share a scale, `2 ^ 52`; the least scale has twice as many. -/
def Magnitude.binade : Nat := Nat.pow 2 52

/-- The rank that infinity would have: the number of finite magnitudes. -/
def Magnitude.count : Nat := 2047 * binade

/-- A finite magnitude. -/
structure Magnitude where
  /-- Its place in increasing order. -/
  rank : Nat
  rank_lt : rank < Magnitude.count
  deriving DecidableEq

namespace Magnitude

/-- Zero, the least magnitude. -/
def zero : Magnitude :=
  ⟨0, by decide⟩

/-- The binary digits of the magnitude, below `2 ^ 53`. -/
def significand (m : Magnitude) : Nat :=
  if m.rank < binade then m.rank else binade + m.rank % binade

/-- The number of places by which the digits are shifted. -/
def scale (m : Magnitude) : Nat :=
  m.rank / binade - 1

/-- The magnitude in units of `2 ^ -1074`. -/
def units (m : Magnitude) : Nat :=
  m.significand * Nat.pow 2 m.scale

/-- The magnitude nearest to `num / den`, unless it is beyond the finite ones. -/
def nearest? (num den : Nat) : Option Magnitude :=
  let target := num * Nat.pow 2 1074
  let places := Nat.log2 (target / den) - 52
  let step := den * Nat.pow 2 places
  let digits := target / step
  let rest := target % step
  let rounded := if 2 * rest > step ∨ (2 * rest = step ∧ digits % 2 = 1) then digits + 1 else digits
  let rank := places * binade + rounded
  if h : rank < count then some ⟨rank, h⟩ else none

/-- The rounded product. -/
def mul? (a b : Magnitude) : Option Magnitude :=
  nearest? (a.units * b.units) (Nat.pow 2 2148)

/-- The rounded quotient. -/
def div? (a b : Magnitude) : Option Magnitude :=
  nearest? a.units b.units

end Magnitude

/-- A finite number in double precision. -/
structure Binary64 where
  negative : Bool
  magnitude : Magnitude
  deriving DecidableEq

namespace Binary64

/-- Whether two numbers are equal as numbers: the two zeros are. -/
def sameNumber (x y : Binary64) : Bool :=
  x.magnitude == y.magnitude && (x.negative == y.negative || x.magnitude.rank == 0)

end Binary64

end HopQuery
