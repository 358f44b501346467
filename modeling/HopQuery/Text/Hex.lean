/-!
# Hexadecimal digits

* `hexLower`, `hexUpper`: the digit of a number below sixteen, in either case;
* `hexValue?`: the number of a digit.
-/

namespace HopQuery.Text

/-- The hexadecimal digit of `n % 16`, in lower case. -/
def hexLower (n : Nat) : Char :=
  let d := n % 16
  if d < 10 then Char.ofNat (0x30 + d) else Char.ofNat (0x61 + (d - 10))

/-- The hexadecimal digit of `n % 16`, in upper case. -/
def hexUpper (n : Nat) : Char :=
  let d := n % 16
  if d < 10 then Char.ofNat (0x30 + d) else Char.ofNat (0x41 + (d - 10))

/-- The value of a hexadecimal digit of either case. -/
def hexValue? (c : Char) : Option Nat :=
  if c.isDigit then some (c.toNat - 0x30)
  else if 'a' ≤ c ∧ c ≤ 'f' then some (c.toNat - 0x61 + 10)
  else if 'A' ≤ c ∧ c ≤ 'F' then some (c.toNat - 0x41 + 10)
  else none

/-- The number with the given hexadecimal digits, zero without any. -/
def hexNumber? (digits : List Char) : Option Nat :=
  digits.foldlM (fun n c => (hexValue? c).map (n * 16 + ·)) 0

end HopQuery.Text
