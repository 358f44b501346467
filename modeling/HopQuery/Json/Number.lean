import HopQuery.Json.Value

/-!
# JSON numbers

From the digits of a number to its value. A number without fraction and exponent that fits in 64
bits is a whole number; minus zero is not one of them. Any other number is real, and is read in
three steps of which each rounds:

* the digits are gathered into one whole number below `2 ^ 64`; a digit that would take it beyond
  is dropped with all after it, each such digit before the point counting one power of ten;
* the whole number is rounded to double precision;
* it is multiplied or divided by the rounded power of ten.

So the value need not be the number nearest to the digits. A value beyond the largest finite one
is an error, one too small for the format is zero.

* `NumberText`: a number as written;
* `Json.Number.ofText?`: its value.
-/

namespace HopQuery

/-- A number as written. -/
structure NumberText where
  negative : Bool
  /-- The digits before the point. -/
  whole : List Char
  /-- The digits after the point, if there is one. -/
  fraction : List Char
  /-- The sign and the digits of the exponent, if there is one: `true` for a minus. -/
  exponent : Option (Bool × List Char)
  deriving DecidableEq, Repr

namespace NumberText

/-- The value of a decimal digit. -/
def digitValue (c : Char) : Nat :=
  c.toNat - 0x30

/-- Gathered numbers are below this bound, `2 ^ 64`. -/
def gatherBound : Nat := Nat.pow 2 64

/-- Gathers leading digits onto `value` while the result stays below the bound; gives the number
and how many digits were left over. -/
def gather (value : Nat) : List Char → Nat × Nat
  | [] => (value, 0)
  | c :: rest =>
    let next := value * 10 + digitValue c
    if next < gatherBound then gather next rest else (value, rest.length + 1)

/-- The number of digits of the exponent that are read is bounded by this value. -/
def exponentBound : Nat := Nat.pow 2 31

/-- The value of the digits of an exponent, unless it reaches the bound on the way. -/
def exponentValue? (value : Nat) : List Char → Option Nat
  | [] => some value
  | c :: rest =>
    let next := value * 10 + digitValue c
    if next < exponentBound then exponentValue? next rest else none

end NumberText

namespace Magnitude

/-- The largest exponent whose power of ten is a finite number. -/
def largestPower : Nat := 308

/-- The rounded power of ten. -/
def powerOfTen? (exponent : Nat) : Option Magnitude :=
  if exponent ≤ largestPower then nearest? (Nat.pow 10 exponent) 1 else none

/-- The quotient by a power of ten. -/
def divideOnce (m : Magnitude) (exponent : Nat) : Option Magnitude := do
  let power ← powerOfTen? exponent
  m.div? power

/-- The magnitude divided by `10 ^ largestPower` so many times, or until it is zero, and then by
the power of ten. -/
def divideTimes (m : Magnitude) (exponent : Nat) : Nat → Option Magnitude
  | 0 => m.divideOnce exponent
  | times + 1 =>
    if m.rank = 0 then some m
    else do
      let quotient ← m.divideOnce largestPower
      quotient.divideTimes exponent times

/-- The magnitude divided by a power of ten, step by step if the exponent is too large for one. -/
def dividePower (m : Magnitude) (exponent : Nat) : Option Magnitude :=
  let times := (exponent - 1) / largestPower
  m.divideTimes (exponent - times * largestPower) times

/-- The magnitude multiplied by a power of ten, unless the result is beyond the finite ones. -/
def multiplyPower (m : Magnitude) (exponent : Nat) : Option Magnitude :=
  match powerOfTen? exponent with
  | some power => m.mul? power
  | none => if m.rank = 0 then some m else none

/-- The magnitude `digits * 10 ^ exponent`, rounded step by step. -/
def ofDecimal? (digits : Nat) (exponent : Int) : Option Magnitude := do
  let m ← nearest? digits 1
  if 0 ≤ exponent then m.multiplyPower exponent.toNat else m.dividePower (-exponent).toNat

end Magnitude

namespace Json.Number

/-- The real number with the sign and the magnitude `digits * 10 ^ exponent`. -/
def realOfDecimal? (negative : Bool) (digits : Nat) (exponent : Int) : Option Number :=
  (Magnitude.ofDecimal? digits exponent).map (fun m => .real ⟨negative, m⟩)

/-- The value of a number without fraction and exponent. -/
def wholeOfDigits? (negative : Bool) (digits : List Char) : Option Number :=
  match NumberText.gather 0 digits with
  | (n, 0) =>
    if !negative then some (.whole n)
    else if n = 0 ∨ Nat.pow 2 63 < n then realOfDecimal? true n 0
    else some (.whole (-n))
  | (n, left) => realOfDecimal? negative n left

/-- The value of a number as written. -/
def ofText? (text : NumberText) : Option Number :=
  if text.fraction.isEmpty && text.exponent.isNone then wholeOfDigits? text.negative text.whole
  else
    let (wholePart, left) := NumberText.gather 0 text.whole
    let (digits, dropped) := NumberText.gather wholePart text.fraction
    let point : Int := (left : Int) - ((text.fraction.length - dropped : Nat) : Int)
    match text.exponent with
    | none => realOfDecimal? text.negative digits point
    | some (minus, exponentDigits) =>
      match NumberText.exponentValue? 0 exponentDigits with
      | some value =>
        realOfDecimal? text.negative digits (if minus then point - value else point + value)
      | none =>
        if digits ≠ 0 ∧ !minus then none else some (.real ⟨text.negative, .zero⟩)

end Json.Number

end HopQuery
