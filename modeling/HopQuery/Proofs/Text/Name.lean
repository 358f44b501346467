import HopQuery.Text.Name

/-!
# Reading names

A name at the front of a text goes on as long as the characters may stand in one.

* `isName_iff_grammar`: the names, character by character;
* `name?`: reads one name;
* `name?_append`, `isName_of_name?`: it reads exactly the names, each up to its end.
-/

namespace HopQuery.Text

/-- The longest name at the front, and what follows it. -/
def name? (cs : List Char) : Option (String × List Char) :=
  let name := String.ofList (cs.takeWhile isNameRest)
  if isName name then some (name, cs.dropWhile isNameRest) else none

theorem isNameRest_of_isNameStart {c : Char} (h : isNameStart c = true) : isNameRest c = true := by
  simp only [isNameStart, isNameRest, Char.isAlphanum, Bool.or_eq_true] at h ⊢
  rcases h with h | h
  · exact Or.inl (Or.inl h)
  · exact Or.inr h

/-- A name is not empty; its first character may open a name and all may follow in one. -/
theorem isName_eq_true_iff (name : String) : isName name = true ↔
    ∃ c rest, name.toList = c :: rest ∧ isNameStart c = true ∧
      ∀ d ∈ name.toList, isNameRest d = true := by
  unfold isName
  cases hname : name.toList with
  | nil => simp
  | cons c rest =>
    rw [Bool.and_eq_true, List.all_eq_true]
    constructor
    · rintro ⟨hc, hrest⟩
      refine ⟨c, rest, rfl, hc, ?_⟩
      intro d hd
      rcases List.mem_cons.1 hd with rfl | hd
      · exact isNameRest_of_isNameStart hc
      · exact hrest d hd
    · rintro ⟨d, tail, heq, hd, hall⟩
      cases heq
      exact ⟨hd, fun e he => hall e (List.mem_cons_of_mem _ he)⟩

/-- A letter from A to Z, in either case. -/
def IsLetter (c : Char) : Prop :=
  'A' ≤ c ∧ c ≤ 'Z' ∨ 'a' ≤ c ∧ c ≤ 'z'

/-- A digit from 0 to 9. -/
def IsDigit (c : Char) : Prop :=
  '0' ≤ c ∧ c ≤ '9'

theorem isAlpha_iff (c : Char) : c.isAlpha = true ↔ IsLetter c := by
  show (decide ('A' ≤ c ∧ c ≤ 'Z') || decide ('a' ≤ c) && decide (c ≤ 'z')) = true ↔ _
  rw [Bool.or_eq_true, Bool.and_eq_true, decide_eq_true_eq, decide_eq_true_eq, decide_eq_true_eq,
    IsLetter]

theorem isDigit_iff (c : Char) : c.isDigit = true ↔ IsDigit c := by
  show (decide ('0' ≤ c) && decide (c ≤ '9')) = true ↔ _
  rw [Bool.and_eq_true, decide_eq_true_eq, decide_eq_true_eq, IsDigit]

theorem isNameStart_iff (c : Char) : isNameStart c = true ↔ c = '_' ∨ IsLetter c := by
  rw [isNameStart, Bool.or_eq_true, isAlpha_iff, beq_iff_eq, or_comm]

theorem isNameRest_iff (c : Char) :
    isNameRest c = true ↔ c = '_' ∨ IsLetter c ∨ IsDigit c := by
  rw [isNameRest, Char.isAlphanum, Bool.or_eq_true, Bool.or_eq_true, isAlpha_iff, isDigit_iff,
    beq_iff_eq, or_comm]

/-- A name is an underscore or a letter, and then underscores, letters and digits up to the end of
the text. -/
theorem isName_iff_grammar (name : String) : isName name = true ↔ ∃ c rest, name.toList = c :: rest ∧
    (c = '_' ∨ IsLetter c) ∧ ∀ d ∈ rest, d = '_' ∨ IsLetter d ∨ IsDigit d := by
  unfold isName
  cases name.toList with
  | nil => simp
  | cons c rest =>
    rw [Bool.and_eq_true, List.all_eq_true, isNameStart_iff]
    simp only [isNameRest_iff]
    constructor
    · exact fun h => ⟨c, rest, rfl, h⟩
    · rintro ⟨c', rest', heq, h⟩
      cases heq
      exact h

/-- A name is read whole if what follows cannot go on with it. -/
theorem name?_append {name : String} {rest : List Char} (h : isName name = true)
    (hrest : ∀ c ∈ rest.head?, isNameRest c = false) :
    name? (name.toList ++ rest) = some (name, rest) := by
  obtain ⟨-, -, -, -, hall⟩ := (isName_eq_true_iff name).1 h
  have hstop : rest.takeWhile isNameRest = [] ∧ rest.dropWhile isNameRest = rest := by
    cases rest with
    | nil => exact ⟨rfl, rfl⟩
    | cons c rest => simp [hrest c rfl]
  rw [name?, List.takeWhile_append_of_pos hall, List.dropWhile_append_of_pos hall, hstop.1,
    hstop.2, List.append_nil, String.ofList_toList, if_pos h]

/-- What is read is a name, and stood at the front. -/
theorem isName_of_name? {cs rest : List Char} {name : String} (h : name? cs = some (name, rest)) :
    isName name = true ∧ cs = name.toList ++ rest := by
  simp only [name?] at h
  split at h
  · next hname =>
    cases h
    exact ⟨hname, by rw [String.toList_ofList, List.takeWhile_append_dropWhile]⟩
  · cases h

/-- A text that does not open with a name has none to be read. -/
theorem name?_cons_eq_none {c : Char} (h : isNameRest c = false) (cs : List Char) :
    name? (c :: cs) = none := by
  rw [name?, List.takeWhile_cons_of_neg (by simp [h])]
  rfl

end HopQuery.Text
