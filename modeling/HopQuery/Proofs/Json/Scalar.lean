import HopQuery.Json.Writer
import HopQuery.Json.Written
import HopQuery.Proofs.Decimal.Text
import Mathlib.Data.List.Basic
import Mathlib.Tactic.SplitIfs
import Std.Data.String.ToInt

/-!
# Texts of scalars

Where the text of a scalar ends can be told from what it begins with: a string ends at the quote
that no escape takes, a number at the first character that no number has.

* `Written.string?_flatMap_charText`, `stringText_append_inj`: the reader of strings takes a
  written string for itself;
* `Number.text_parts`, `Number.text_injective`: what texts numbers have;
* `Number.Ends`, `Number.text_append_inj`: a number is cut off where a text goes on otherwise.
-/

namespace HopQuery

/-! ### Strings -/

namespace Written

theorem hexUnit?_hexLower {n : Nat} (hn : n < 0x20) :
    hexUnit? '0' '0' (Text.hexLower (n / 16)) (Text.hexLower n) = some (.char (Char.ofNat n)) := by
  revert n
  decide

/-- The reader takes a written character for the character. -/
theorem string?_charText (c : Char) (units : List StringUnit) (cs : List Char) :
    string? units (Json.charText c ++ cs) = string? (.char c :: units) cs := by
  unfold Json.charText
  split_ifs with hquote hslash hb hf hn hr ht hcontrol
  · subst hquote; simp [string?, shortEscape?]
  · subst hslash; simp [string?, shortEscape?]
  · subst hb; simp [string?, shortEscape?]
  · subst hf; simp [string?, shortEscape?]
  · subst hn; simp [string?, shortEscape?]
  · subst hr; simp [string?, shortEscape?]
  · subst ht; simp [string?, shortEscape?]
  · simp [string?, hexUnit?_hexLower hcontrol]
  · rw [List.singleton_append, string?]
    · simp [hcontrol, hslash]
    · exact hquote
    · exact fun _ _ _ _ _ h => absurd h hslash
    · exact fun _ _ h => absurd h hslash

/-- The reader takes written characters for the characters, up to the closing quote. -/
theorem string?_flatMap_charText (cs : List Char) (units : List StringUnit) (rest : List Char) :
    string? units (cs.flatMap Json.charText ++ '"' :: rest) =
      some (units.reverse ++ cs.map .char, rest) := by
  induction cs generalizing units with
  | nil => simp [string?]
  | cons c cs ih => simp [List.append_assoc, string?_charText, ih]

end Written

namespace Json

/-- A written string tells the string, and where it ends. -/
theorem stringText_append_inj {s t : String} {rest other : List Char}
    (h : stringText s ++ rest = stringText t ++ other) : s = t ∧ rest = other := by
  have hbody : s.toList.flatMap charText ++ '"' :: rest =
      t.toList.flatMap charText ++ '"' :: other := by
    simpa [stringText] using h
  have hread := congrArg (Written.string? []) hbody
  simp only [Written.string?_flatMap_charText, List.reverse_nil, List.nil_append, Option.some.injEq,
    Prod.mk.injEq] at hread
  have hinj : Function.Injective StringUnit.char := fun _ _ h => StringUnit.char.inj h
  exact ⟨String.toList_inj.1 (hinj.list_map hread.1), hread.2⟩

/-! ### Numbers -/

namespace Number

theorem toList_text_whole (n : Int) :
    (Number.text (.whole n)).toList =
      if 0 ≤ n then Nat.toDigits 10 n.toNat else '-' :: Nat.toDigits 10 (-n).toNat := by
  rw [text, Int.toString_eq_repr, Int.repr_eq_if]
  split_ifs
  · exact Nat.toList_repr
  · rw [String.toList_append, Nat.toList_repr]
    rfl

theorem digit_or_minus_of_mem_text_whole {n : Int} {c : Char}
    (h : c ∈ (Number.text (.whole n)).toList) : c.isDigit = true ∨ c = '-' := by
  rw [toList_text_whole] at h
  split_ifs at h
  · exact Or.inl (Binary64.isDigit_of_mem_toDigits h)
  · rcases List.mem_cons.1 h with rfl | h
    · exact Or.inr rfl
    · exact Or.inl (Binary64.isDigit_of_mem_toDigits h)

/-- The text of a number is not empty, and has digits, signs, points and an `e` only. -/
theorem text_parts (n : Number) :
    n.text.toList ≠ [] ∧ ∀ c ∈ n.text.toList, Binary64.isPart c = true := by
  cases n with
  | whole n =>
    constructor
    · rw [toList_text_whole]
      split_ifs
      · exact Nat.toDigits_ne_nil
      · exact List.cons_ne_nil _ _
    · intro c hc
      rcases digit_or_minus_of_mem_text_whole hc with hc | rfl
      · simp [Binary64.isPart, hc]
      · rfl
  | real x => exact x.text_parts

/-- No two numbers have the same text: that of a real number has a point or an exponent. -/
theorem text_injective : Function.Injective Number.text := by
  have hne : ∀ (n : Int) (x : Binary64), Number.text (.whole n) ≠ Number.text (.real x) := by
    intro n x h
    obtain ⟨c, hc, hmark⟩ := Binary64.exists_mark x.magnitude
    have hmem : c ∈ (Number.text (.whole n)).toList := by
      rw [h, text, Binary64.toList_text]
      split_ifs
      · exact List.mem_cons_of_mem _ hc
      · exact hc
    have hpart := digit_or_minus_of_mem_text_whole hmem
    rcases hmark with rfl | rfl <;> exact absurd hpart (by decide)
  intro m n h
  cases m with
  | whole a => cases n with
    | whole b => rw [Int.repr_injective h]
    | real y => exact absurd h (hne a y)
  | real x => cases n with
    | whole b => exact absurd h.symm (hne b x)
    | real y => rw [Binary64.text_injective h]

/-- A text that does not go on with a number. -/
def Ends (cs : List Char) : Prop :=
  ∀ c ∈ cs.head?, Binary64.isPart c = false

theorem takeWhile_isPart {n : Number} {rest : List Char} (h : Ends rest) :
    (n.text.toList ++ rest).takeWhile Binary64.isPart = n.text.toList := by
  rw [List.takeWhile_append_of_pos n.text_parts.2]
  cases rest with
  | nil => simp
  | cons c rest => simp [h c rfl]

/-- A written number tells the number where a text does not go on with one. -/
theorem text_append_inj {m n : Number} {rest other : List Char} (hrest : Ends rest)
    (hother : Ends other) (h : m.text.toList ++ rest = n.text.toList ++ other) :
    m.text = n.text ∧ rest = other := by
  have htext : m.text.toList = n.text.toList := by
    rw [← takeWhile_isPart hrest, h, takeWhile_isPart hother]
  rw [htext] at h
  exact ⟨String.toList_inj.1 htext, List.append_cancel_left h⟩

end Number

end Json

end HopQuery
