import HopQuery.Proofs.Decimal.Interval
import Mathlib.Algebra.Field.Basic
import Mathlib.Data.Nat.Cast.Field

/-!
# Reading decimals

The text of a number in double precision is a decimal of which the exact value lies in the
interval of the magnitude. So the text tells the number, the two zeros included, whose texts
differ in the sign.

* `Binary64.isPart`, `Binary64.text_parts`: the characters of the text;
* `Binary64.decimalValue`: the exact value of digits with a point and an exponent;
* `Binary64.decimalValue_decimalText`: the value of a decimal as it is written;
* `Binary64.text_injective`: no two numbers have the same text.
-/

namespace HopQuery.Binary64

/-! ### Digits -/

theorem toList_toString (n : Nat) : (toString n).toList = Nat.toDigits 10 n := by
  rw [Nat.toString_eq_repr, Nat.toList_repr]

theorem isDigit_of_mem_toDigits {n : Nat} {c : Char} (h : c ∈ Nat.toDigits 10 n) :
    c.isDigit = true :=
  Nat.isDigit_of_mem_toDigits (by decide) (by decide) h

/-- A row of digits. -/
def AllDigits (cs : List Char) : Prop :=
  ∀ c ∈ cs, c.isDigit = true

theorem allDigits_toDigits (n : Nat) : AllDigits (Nat.toDigits 10 n) :=
  fun _ => isDigit_of_mem_toDigits

theorem AllDigits.append {cs ds : List Char} (hcs : AllDigits cs) (hds : AllDigits ds) :
    AllDigits (cs ++ ds) := by
  intro c hc
  rcases List.mem_append.1 hc with hc | hc
  · exact hcs c hc
  · exact hds c hc

theorem AllDigits.take {cs : List Char} (h : AllDigits cs) (n : Nat) : AllDigits (cs.take n) :=
  fun c hc => h c (List.mem_of_mem_take hc)

theorem AllDigits.drop {cs : List Char} (h : AllDigits cs) (n : Nat) : AllDigits (cs.drop n) :=
  fun c hc => h c (List.mem_of_mem_drop hc)

theorem allDigits_replicate (n : Nat) : AllDigits (List.replicate n '0') := by
  intro c hc
  rw [List.eq_of_mem_replicate hc]
  rfl

/-! ### Values of decimals -/

/-- The value of an exponent as written. -/
def exponentValue : List Char → Int
  | 'e' :: '-' :: digits => -(Nat.ofDigitChars 10 digits 0 : Nat)
  | 'e' :: '+' :: digits => (Nat.ofDigitChars 10 digits 0 : Nat)
  | _ => 0

/-- The value of a decimal as written, with or without a point and an exponent. -/
def decimalValue (cs : List Char) : ℚ :=
  let mantissa := cs.takeWhile (· ≠ 'e')
  let whole := mantissa.takeWhile (· ≠ '.')
  let fraction := (mantissa.dropWhile (· ≠ '.')).tail
  Nat.ofDigitChars 10 (whole ++ fraction) 0 *
    10 ^ (exponentValue (cs.dropWhile (· ≠ 'e')) - fraction.length)

theorem AllDigits.ne {cs : List Char} (h : AllDigits cs) {mark : Char}
    (hmark : mark.isDigit = false) : ∀ c ∈ cs, c ≠ mark := by
  rintro c hc rfl
  exact absurd (h c hc) (by simp [hmark])

/-- What stands before the first mark of its kind, and what stands from there on. -/
theorem takeWhile_dropWhile_mark (mark : Char) (before after : List Char)
    (hbefore : ∀ c ∈ before, c ≠ mark) (hafter : ∀ c ∈ after.head?, c = mark) :
    (before ++ after).takeWhile (· ≠ mark) = before ∧
      (before ++ after).dropWhile (· ≠ mark) = after := by
  have hall : ∀ c ∈ before, decide (c ≠ mark) = true := by simpa using hbefore
  rw [List.takeWhile_append_of_pos hall, List.dropWhile_append_of_pos hall]
  cases after with
  | nil => simp
  | cons c rest => simp [hafter c (by simp)]

section Value

variable (whole fraction tail : List Char) (hwhole : AllDigits whole)
  (hfraction : AllDigits fraction) (htail : ∀ c ∈ tail.head?, c = 'e')
include hwhole htail

theorem decimalValue_whole : decimalValue (whole ++ tail) =
    Nat.ofDigitChars 10 whole 0 * 10 ^ exponentValue tail := by
  obtain ⟨htake, hdrop⟩ := takeWhile_dropWhile_mark 'e' whole tail (hwhole.ne rfl) htail
  obtain ⟨htake', hdrop'⟩ := takeWhile_dropWhile_mark '.' whole [] (hwhole.ne rfl) (by simp)
  rw [List.append_nil] at htake' hdrop'
  simp only [decimalValue, htake, hdrop, htake', hdrop']
  simp

include hfraction in
theorem decimalValue_point : decimalValue (whole ++ '.' :: fraction ++ tail) =
    Nat.ofDigitChars 10 (whole ++ fraction) 0 *
      10 ^ (exponentValue tail - fraction.length) := by
  have hmantissa : ∀ c ∈ whole ++ '.' :: fraction, c ≠ 'e' := by
    intro c hc
    rcases List.mem_append.1 hc with hc | hc
    · exact hwhole.ne rfl c hc
    rcases List.mem_cons.1 hc with rfl | hc
    · decide
    · exact hfraction.ne rfl c hc
  obtain ⟨htake, hdrop⟩ := takeWhile_dropWhile_mark 'e' _ tail hmantissa htail
  obtain ⟨htake', hdrop'⟩ := takeWhile_dropWhile_mark '.' whole ('.' :: fraction)
    (hwhole.ne rfl) (by simp)
  simp only [decimalValue, htake, hdrop, htake', hdrop', List.tail_cons]

end Value

/-- Digits with a point and no exponent. -/
theorem decimalValue_of_point (whole fraction : List Char) (hwhole : AllDigits whole)
    (hfraction : AllDigits fraction) : decimalValue (whole ++ '.' :: fraction) =
      Nat.ofDigitChars 10 (whole ++ fraction) 0 * 10 ^ (-(fraction.length : Int)) := by
  have hvalue := decimalValue_point whole fraction [] hwhole hfraction (by simp)
  rwa [List.append_nil, exponentValue, Int.zero_sub] at hvalue
  · exact fun _ h => by cases h
  · exact fun _ h => by cases h

theorem exponentValue_sign (place : Int) :
    exponentValue ('e' :: (if place < 0 then '-' else '+') :: (toString place.natAbs).toList) =
      place := by
  rw [toList_toString]
  split_ifs <;>
  · rw [exponentValue, Nat.ofDigitChars_ten_toDigits]
    omega

/-! ### Decimals as they are written -/

section Written

variable {digits : List Char} {exponent place : Int} (hdigits : AllDigits digits)
  (hplace : place = exponent + digits.length - 1)
include hdigits hplace

/-- A decimal written positionally has its value. -/
theorem decimalValue_positional : decimalValue (positional digits exponent place) =
    Nat.ofDigitChars 10 digits 0 * 10 ^ exponent := by
  unfold positional
  split_ifs with hexponent hpoint
  · have hzeros : List.replicate exponent.toNat '0' ++ ['0'] =
        List.replicate (exponent.toNat + 1) '0' := List.replicate_succ'.symm
    have hpow : (10 : ℚ) ^ exponent = 10 ^ (exponent.toNat + 1) * 10 ^ (-(['0'].length : Int)) := by
      rw [← zpow_natCast, ← zpow_add₀ (by norm_num)]
      congr 1
      simp
      omega
    rw [decimalValue_of_point _ ['0'] (hdigits.append (allDigits_replicate _))
      (allDigits_replicate 1), List.append_assoc, hzeros, Nat.ofDigitChars_append,
      Nat.ofDigitChars_replicate_zero, hpow]
    push_cast
    ring
  · have hlength : -((digits.drop (place.toNat + 1)).length : Int) = exponent := by
      rw [List.length_drop]
      omega
    rw [decimalValue_of_point _ _ (hdigits.take _) (hdigits.drop _), List.take_append_drop, hlength]
  · have hlength : -((List.replicate (-place - 1).toNat '0' ++ digits).length : Int) =
        exponent := by
      rw [List.length_append, List.length_replicate]
      omega
    have hzero : Nat.ofDigitChars 10 (['0'] ++ (List.replicate (-place - 1).toNat '0' ++ digits)) 0 =
        Nat.ofDigitChars 10 digits 0 := by
      rw [← List.append_assoc, ← List.replicate_one, ← List.replicate_add, Nat.ofDigitChars_append,
        Nat.ofDigitChars_replicate_zero, Nat.mul_zero]
    have hvalue := decimalValue_of_point _ _ (allDigits_replicate 1)
      ((allDigits_replicate (-place - 1).toNat).append hdigits)
    rwa [hlength, List.replicate_one, hzero] at hvalue

/-- A decimal in scientific form has its value. -/
theorem decimalValue_scientific (hne : digits ≠ []) : decimalValue (scientific digits place) =
    Nat.ofDigitChars 10 digits 0 * 10 ^ exponent := by
  unfold scientific
  match digits, hne with
  | [d], _ =>
    have hexponent : place = exponent := by simpa using hplace
    rw [decimalValue_whole _ _ hdigits (by simp), exponentValue_sign, hexponent]
  | d :: e :: rest, _ =>
    have hexponent : place - (e :: rest).length = exponent := by
      rw [hplace, List.length_cons]
      omega
    have hvalue := decimalValue_point [d] (e :: rest)
      ('e' :: (if place < 0 then '-' else '+') :: (toString place.natAbs).toList)
      (hdigits.take 1) (hdigits.drop 1) (by simp)
    rw [exponentValue_sign, hexponent] at hvalue
    exact hvalue

end Written

/-- A decimal is written with its value. -/
theorem decimalValue_decimalText (number : Nat) (exponent : Int) :
    decimalValue (decimalText number exponent) = number * 10 ^ exponent := by
  have hdigits := allDigits_toDigits number
  unfold decimalText
  simp only [toList_toString]
  split_ifs
  · rw [decimalValue_positional hdigits rfl, Nat.ofDigitChars_ten_toDigits]
  · rw [decimalValue_scientific hdigits rfl Nat.toDigits_ne_nil, Nat.ofDigitChars_ten_toDigits]

/-- The text of a magnitude has a value in its interval. -/
theorem contains_decimalValue (m : Magnitude) :
    m.interval.Contains (decimalValue (unsignedText m) * Magnitude.one) := by
  unfold unsignedText
  split_ifs with hzero
  · have hvalue : decimalValue ['0', '.', '0'] = 0 := by
      refine (decimalValue_of_point ['0'] ['0'] (allDigits_replicate 1)
        (allDigits_replicate 1)).trans ?_
      simp [Nat.ofDigitChars]
    rw [hvalue, zero_mul]
    exact Magnitude.contains_zero hzero
  · rw [decimalValue_decimalText]
    exact Magnitude.contains_shortest hzero

/-! ### Characters of the text -/

/-- The characters that texts of numbers are made of. -/
def isPart (c : Char) : Bool :=
  c.isDigit || c == '-' || c == '+' || c == '.' || c == 'e'

theorem AllDigits.parts {cs : List Char} (h : AllDigits cs) : ∀ c ∈ cs, isPart c = true := by
  intro c hc
  simp [isPart, h c hc]

theorem parts_positional {digits : List Char} (h : AllDigits digits) (exponent place : Int) :
    ∀ c ∈ positional digits exponent place, isPart c = true := by
  have hdot : isPart '.' = true := rfl
  have hzero : isPart '0' = true := rfl
  unfold positional
  split_ifs <;>
    simp only [List.forall_mem_append, List.forall_mem_cons]
  · exact ⟨⟨h.parts, (allDigits_replicate _).parts⟩, hdot, hzero, by simp⟩
  · exact ⟨(h.take _).parts, hdot, (h.drop _).parts⟩
  · exact ⟨⟨hzero, hdot, (allDigits_replicate _).parts⟩, h.parts⟩

theorem parts_scientific {digits : List Char} (h : AllDigits digits) (place : Int) :
    ∀ c ∈ scientific digits place, isPart c = true := by
  have hsign : isPart (if place < 0 then '-' else '+') = true := by split_ifs <;> rfl
  have hexponent : ∀ c ∈ (toString place.natAbs).toList, isPart c = true := by
    rw [toList_toString]
    exact (allDigits_toDigits _).parts
  unfold scientific
  simp only [List.forall_mem_append, List.forall_mem_cons]
  refine ⟨?_, rfl, hsign, hexponent⟩
  split
  · simp
  · exact h.parts
  · exact List.forall_mem_cons.2 ⟨(h.take 1).parts _ (by simp), List.forall_mem_cons.2
      ⟨rfl, (h.drop 1).parts⟩⟩

theorem parts_unsignedText (m : Magnitude) : ∀ c ∈ unsignedText m, isPart c = true := by
  unfold unsignedText decimalText
  simp only [toList_toString]
  split_ifs
  · simp [isPart, Char.isDigit]
  · exact parts_positional (allDigits_toDigits _) _ _
  · exact parts_scientific (allDigits_toDigits _) _

/-- The text of a magnitude begins with a digit, so it has no sign. -/
theorem exists_unsignedText (m : Magnitude) :
    ∃ c cs, unsignedText m = c :: cs ∧ c.isDigit = true := by
  unfold unsignedText decimalText positional scientific
  obtain ⟨c, cs, hcs⟩ := List.exists_cons_of_ne_nil
    (Nat.toDigits_ne_nil : Nat.toDigits 10 m.shortest.1 ≠ [])
  have hc : c.isDigit = true := isDigit_of_mem_toDigits (hcs ▸ List.mem_cons_self)
  simp only [toList_toString, hcs]
  split_ifs
  · exact ⟨_, _, rfl, rfl⟩
  · exact ⟨_, _, rfl, hc⟩
  · exact ⟨_, _, rfl, hc⟩
  · exact ⟨_, _, rfl, rfl⟩
  · cases cs <;> exact ⟨_, _, rfl, hc⟩
  · cases cs <;> exact ⟨_, _, rfl, hc⟩

theorem point_mem_positional (digits : List Char) (exponent place : Int) :
    '.' ∈ positional digits exponent place := by
  unfold positional
  split_ifs <;> simp

/-- The text of a magnitude has a point or an exponent. -/
theorem exists_mark (m : Magnitude) : ∃ c ∈ unsignedText m, c = '.' ∨ c = 'e' := by
  unfold unsignedText decimalText
  dsimp only
  split_ifs
  · exact ⟨'.', by simp⟩
  · exact ⟨'.', point_mem_positional _ _ _, Or.inl rfl⟩
  · exact ⟨'e', by simp [scientific]⟩

theorem toList_text (x : Binary64) : x.text.toList =
    if x.negative then '-' :: unsignedText x.magnitude else unsignedText x.magnitude :=
  String.toList_ofList

/-- The text of a number is not empty, and has digits, signs, points and an `e` only. -/
theorem text_parts (x : Binary64) :
    x.text.toList ≠ [] ∧ ∀ c ∈ x.text.toList, isPart c = true := by
  obtain ⟨c, cs, hcs, -⟩ := exists_unsignedText x.magnitude
  have hparts := parts_unsignedText x.magnitude
  rw [toList_text]
  split_ifs
  · exact ⟨List.cons_ne_nil _ _, List.forall_mem_cons.2 ⟨rfl, hparts⟩⟩
  · exact ⟨hcs ▸ List.cons_ne_nil _ _, hparts⟩

/-! ### The text tells the number -/

theorem unsignedText_injective : Function.Injective unsignedText := fun a b h =>
  Magnitude.eq_of_contains (contains_decimalValue a) (h ▸ contains_decimalValue b)

/-- No two numbers have the same text. -/
theorem text_injective : Function.Injective text := by
  intro x y h
  obtain ⟨negative, m⟩ := x
  obtain ⟨negative', m'⟩ := y
  have hlist := congrArg String.toList h
  rw [toList_text, toList_text] at hlist
  obtain ⟨c, cs, hcs, hc⟩ := exists_unsignedText m
  obtain ⟨c', cs', hcs', hc'⟩ := exists_unsignedText m'
  have hsign : ∀ d : Char, d.isDigit = true → '-' ≠ d := by
    rintro d hd rfl
    exact absurd hd (by decide)
  cases negative <;> cases negative' <;> simp only [if_true, Bool.false_eq_true, if_false] at hlist
  · rw [unsignedText_injective hlist]
  · rw [hcs] at hlist
    exact absurd (List.cons.inj hlist).1.symm (hsign c hc)
  · rw [hcs'] at hlist
    exact absurd (List.cons.inj hlist).1 (hsign c' hc')
  · rw [unsignedText_injective (List.cons.inj hlist).2]

end HopQuery.Binary64
