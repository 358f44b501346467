import HopQuery.Proofs.CommandLine.Building
import HopQuery.Proofs.Text.Numeral
import Mathlib.Data.List.TakeWhile

/-!
# Reading assignments

What an argument of `--filter` says: the number of a hop up to the first colon, the name of a filter
up to the first equals sign behind it, and the value, which is all the rest.

* `splitAtFirst_eq_some_iff`: a text is split at the first mark of its kind;
* `Assignment.Spells`, `Assignment.read?`: the texts that say so, and their reading;
* `Assignment.split_eq_ok_iff`: the hop, the filter and the value of an argument;
* `Assignment.spells_toString`: every value can be given to every filter whose name has no equals
  sign.
-/

namespace HopQuery

theorem splitAtFirst_eq_some_iff (mark : Char) (text before after : String) :
    splitAtFirst mark text = some (before, after) ↔
      text.toList = before.toList ++ mark :: after.toList ∧ mark ∉ before.toList := by
  have hpass : ∀ cs : List Char, mark ∉ cs → ∀ c ∈ cs, decide (c ≠ mark) = true := by
    rintro cs hmark c hc
    exact decide_eq_true fun heq => hmark (heq ▸ hc)
  simp only [splitAtFirst]
  constructor
  · intro h
    split at h
    · cases h
    · next c rest hdrop =>
      cases h
      have hstop := List.head?_dropWhile_not (fun c => decide (c ≠ mark)) text.toList
      rw [hdrop] at hstop
      have hc : c = mark := by simpa using hstop
      rw [String.toList_ofList, String.toList_ofList, ← hc, ← hdrop, hc,
        List.takeWhile_append_dropWhile]
      exact ⟨rfl, fun hmem => by simpa using List.mem_takeWhile_imp hmem⟩
  · rintro ⟨htext, hmark⟩
    rw [htext, List.takeWhile_append_of_pos (hpass _ hmark),
      List.dropWhile_append_of_pos (hpass _ hmark)]
    simp

theorem HopReference.read?_eq_some_iff (argument : String) (number : Nat) (rest : String) :
    read? argument = some (number, rest) ↔ ∃ digits, argument = digits ++ ":" ++ rest ∧
      ':' ∉ digits.toList ∧ Text.readNumeral digits = .ok number := by
  rw [read?, Option.bind_eq_some_iff]
  constructor
  · rintro ⟨⟨digits, rest'⟩, hsplit, hread⟩
    obtain ⟨number', hnumber, heq⟩ := Option.map_eq_some_iff.1 hread
    cases heq
    obtain ⟨hlist, hmark⟩ := (splitAtFirst_eq_some_iff ..).1 hsplit
    refine ⟨digits, String.toList_inj.1 ?_, hmark, ?_⟩
    · simp [hlist]
    · cases h : Text.readNumeral digits <;> simp_all [Except.toOption]
  · rintro ⟨digits, rfl, hmark, hnumber⟩
    refine ⟨(digits, rest), (splitAtFirst_eq_some_iff ..).2 ⟨by simp, hmark⟩, ?_⟩
    exact Option.map_eq_some_iff.2 ⟨number, by rw [hnumber]; rfl, rfl⟩

namespace Assignment

/-- The argument gives the number of a hop, a filter and a value: a numeral, a colon, the name, an
equals sign and the value. The numeral has no colon and the name no equals sign in it. -/
def Spells (argument : String) (number : Nat) (filter value : String) : Prop :=
  ∃ digits, argument = digits ++ ":" ++ filter ++ "=" ++ value ∧ ':' ∉ digits.toList ∧
    '=' ∉ filter.toList ∧ Text.readNumeral digits = .ok number

/-- The number of a hop, the filter and the value that an argument gives. -/
def read? (argument : String) : Option (Nat × String × String) :=
  (HopReference.read? argument).bind fun (number, assignment) =>
    (splitAtFirst '=' assignment).map (number, ·)

theorem read?_eq_some_iff (argument : String) (number : Nat) (filter value : String) :
    read? argument = some (number, filter, value) ↔ Spells argument number filter value := by
  rw [read?, Option.bind_eq_some_iff]
  constructor
  · rintro ⟨⟨number', rest⟩, hread, hassign⟩
    obtain ⟨⟨filter', value'⟩, hsplit, heq⟩ := Option.map_eq_some_iff.1 hassign
    cases heq
    obtain ⟨digits, rfl, hmark, hnumber⟩ := (HopReference.read?_eq_some_iff ..).1 hread
    obtain ⟨hrest, hfilter⟩ := (splitAtFirst_eq_some_iff ..).1 hsplit
    exact ⟨digits, String.toList_inj.1 (by simp [hrest]), hmark, hfilter, hnumber⟩
  · rintro ⟨digits, rfl, hmark, hfilter, hnumber⟩
    refine ⟨(number, filter ++ "=" ++ value), (HopReference.read?_eq_some_iff ..).2
      ⟨digits, by simp only [String.append_assoc], hmark, hnumber⟩, ?_⟩
    have hsplit : splitAtFirst '=' (filter ++ "=" ++ value) = some (filter, value) :=
      (splitAtFirst_eq_some_iff ..).2 ⟨by simp, hfilter⟩
    exact Option.map_eq_some_iff.2 ⟨_, hsplit, rfl⟩

/-- An assignment leads to the hop whose number it gives. -/
theorem split_eq_ok_iff (ids : List HopId) (argument : String) (id : HopId) (filter value : String) :
    split ids argument = .ok (id, filter, value) ↔
      ∃ index, read? argument = some (index + 1, filter, value) ∧ ids[index]? = some id := by
  rw [split, bind_eq_ok_iff]
  constructor
  · rintro ⟨⟨id', assignment⟩, hsplit, h⟩
    obtain ⟨index, hread, hid⟩ := (HopReference.split_eq_ok_iff ..).1 hsplit
    cases hassign : splitAtFirst '=' assignment with
    | none => simp [hassign, throw, throwThe, MonadExceptOf.throw] at h
    | some parts =>
      simp only [hassign] at h
      cases h
      exact ⟨index, Option.bind_eq_some_iff.2
        ⟨_, hread, Option.map_eq_some_iff.2 ⟨_, hassign, rfl⟩⟩, hid⟩
  · rintro ⟨index, hread, hid⟩
    obtain ⟨⟨number, assignment⟩, href, hassign⟩ := Option.bind_eq_some_iff.1 hread
    obtain ⟨parts, hparts, heq⟩ := Option.map_eq_some_iff.1 hassign
    cases heq
    refine ⟨(id, assignment), (HopReference.split_eq_ok_iff ..).2 ⟨index, href, hid⟩, ?_⟩
    simp only [hparts]
    rfl

/-- A number and a name are read up to their marks, so the value may be any text. -/
theorem spells_toString {number : Nat} (hnumber : number < Text.numeralBound) {filter : String}
    (hfilter : '=' ∉ filter.toList) (value : String) :
    Spells (toString number ++ ":" ++ filter ++ "=" ++ value) number filter value := by
  refine ⟨toString number, rfl, fun hmem => ?_, hfilter, Text.readNumeral_toString hnumber⟩
  rw [Nat.toString_eq_repr, Nat.toList_repr] at hmem
  exact absurd (Nat.isDigit_of_mem_toDigits (by decide) (by decide) hmem) (by decide)

end Assignment

end HopQuery
