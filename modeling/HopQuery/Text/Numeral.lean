/-!
# Unsigned numerals

Decimal numbers below `2 ^ 64`, as they stand in settings and on the command line: one optional
plus sign, then digits, leading zeros included. Reading goes from left to right and reports the
first thing that is wrong.

* `NumeralError`: what can be wrong, with `NumeralError.message`;
* `readNumeral`: the number of a text.
-/

namespace HopQuery.Text

/-- Why a text is no unsigned numeral. -/
inductive NumeralError
  /-- The text is empty. -/
  | empty
  /-- A character is no digit, or a lone sign stands for a number. -/
  | invalidDigit
  /-- The number is `2 ^ 64` or more. -/
  | tooLarge
  deriving DecidableEq, Repr

/-- The wording of a numeral error. -/
def NumeralError.message : NumeralError → String
  | .empty => "cannot parse integer from empty string"
  | .invalidDigit => "invalid digit found in string"
  | .tooLarge => "number too large to fit in target type"

/-- The numbers that a numeral may denote are those below this bound. -/
def numeralBound : Nat := Nat.pow 2 64

/-- The number whose leading digits have the value `value` and whose further digits are given. -/
def readDigits (value : Nat) : List Char → Except NumeralError Nat
  | [] => .ok value
  | c :: rest =>
    if c.isDigit then
      let next := value * 10 + (c.toNat - 0x30)
      if next < numeralBound then readDigits next rest else .error .tooLarge
    else .error .invalidDigit

/-- The number that a text denotes. -/
def readNumeral (text : String) : Except NumeralError Nat :=
  match text.toList with
  | [] => .error .empty
  | ['+'] => .error .invalidDigit
  | '+' :: digits => readDigits 0 digits
  | digits => readDigits 0 digits

end HopQuery.Text
