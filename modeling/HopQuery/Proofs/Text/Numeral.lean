import HopQuery.Text.Numeral
import Mathlib.Data.Nat.Digits.Defs

/-!
# Reading numerals

The texts that are read as a number, and the number: digits, one at least, with or without a plus
sign before them, whose value is below the bound.

* `readDigits_eq_ok_iff`, `readNumeral_eq_ok_iff`: when there is a number, and which;
* `readNumeral_toString`: a number that is written in digits is read back.
-/

namespace HopQuery.Text

/-- Further digits make a number no smaller. -/
theorem le_ofDigitChars (value : Nat) (digits : List Char) :
    value ≤ Nat.ofDigitChars 10 digits value := by
  rw [Nat.ofDigitChars_eq_ofDigitChars_zero]
  exact (Nat.le_mul_of_pos_left value (Nat.pow_pos (by decide))).trans (Nat.le_add_right _ _)

/-- The bound is looked at after each digit, which is as good as once at the end. -/
theorem readDigits_eq_ok_iff {value : Nat} (hvalue : value < numeralBound) (digits : List Char)
    (n : Nat) : readDigits value digits = .ok n ↔ (∀ c ∈ digits, c.isDigit = true) ∧
      Nat.ofDigitChars 10 digits value = n ∧ n < numeralBound := by
  induction digits generalizing value with
  | nil =>
    rw [readDigits, Nat.ofDigitChars_nil]
    constructor
    · rintro ⟨⟩
      exact ⟨nofun, rfl, hvalue⟩
    · rintro ⟨-, rfl, -⟩
      rfl
  | cons c rest ih =>
    rw [readDigits, Nat.ofDigitChars_cons, List.forall_mem_cons, Nat.mul_comm 10 value]
    by_cases hc : c.isDigit = true
    · rw [if_pos hc, and_iff_right hc]
      show (if value * 10 + (c.toNat - '0'.toNat) < numeralBound then
        readDigits (value * 10 + (c.toNat - '0'.toNat)) rest else .error .tooLarge) = .ok n ↔ _
      generalize value * 10 + (c.toNat - '0'.toNat) = next
      by_cases hnext : next < numeralBound
      · rw [if_pos hnext]
        exact ih hnext
      · rw [if_neg hnext]
        constructor
        · rintro ⟨⟩
        · rintro ⟨-, rfl, hlt⟩
          exact absurd ((le_ofDigitChars next rest).trans_lt hlt) hnext
    · rw [if_neg hc]
      exact ⟨nofun, fun h => absurd h.1.1 hc⟩

/-- What is read as a number: digits, one at least, with or without a plus sign before them. -/
theorem readNumeral_eq_ok_iff (text : String) (n : Nat) : readNumeral text = .ok n ↔
    ∃ digits, (text.toList = digits ∨ text.toList = '+' :: digits) ∧ digits ≠ [] ∧
      (∀ c ∈ digits, c.isDigit = true) ∧ Nat.ofDigitChars 10 digits 0 = n ∧ n < numeralBound := by
  have hread : ∀ digits, readDigits 0 digits = .ok n ↔ (∀ c ∈ digits, c.isDigit = true) ∧
      Nat.ofDigitChars 10 digits 0 = n ∧ n < numeralBound :=
    fun digits => readDigits_eq_ok_iff (by decide) digits n
  unfold readNumeral
  split
  · next htext => simp [htext]
  · next htext =>
    rw [htext]
    constructor
    · rintro ⟨⟩
    · rintro ⟨digits, rfl | heq, hne, hdigits, -⟩
      · cases hdigits '+' List.mem_cons_self
      · cases heq
        exact absurd rfl hne
  · next digits hne htext =>
    rw [htext, hread]
    constructor
    · exact fun h => ⟨digits, .inr rfl, hne, h⟩
    · rintro ⟨digits', rfl | heq, -, hdigits, hvalue⟩
      · cases hdigits '+' List.mem_cons_self
      · cases heq
        exact ⟨hdigits, hvalue⟩
  · next hne hsign hsigned =>
    rw [hread]
    constructor
    · exact fun h => ⟨_, .inl rfl, hne, h⟩
    · rintro ⟨digits, rfl | heq, -, h⟩
      · exact h
      · exact absurd heq (hsigned digits)

theorem readNumeral_toString {n : Nat} (h : n < numeralBound) : readNumeral (toString n) = .ok n := by
  refine (readNumeral_eq_ok_iff ..).2 ⟨Nat.toDigits 10 n, .inl ?_, ?_, ?_, ?_, h⟩
  · rw [Nat.toString_eq_repr, Nat.toList_repr]
  · exact Nat.toDigits_ne_nil
  · exact fun c hc => Nat.isDigit_of_mem_toDigits (by decide) (by decide) hc
  · exact Nat.ofDigitChars_ten_toDigits

end HopQuery.Text
