import Mathlib.Data.List.Basic

/-!
# The last write

Of writes that are made one after the other, the last one to a place counts.

* `getLast?_filterMap_eq_some_iff`, `getLast?_filter_eq_some_iff`: the last of the elements of a list
  that have a value, or that are of a kind;
* `view_foldl`: what a run leaves at a place, given what one write does to it.
-/

namespace HopQuery

variable {σ α β : Type}

/-- The last value is that of an element behind which no element has one. -/
theorem getLast?_filterMap_eq_some_iff (value? : α → Option β) (list : List α) (value : β) :
    (list.filterMap value?).getLast? = some value ↔ ∃ before element after,
      list = before ++ element :: after ∧ value? element = some value ∧
      ∀ later ∈ after, value? later = none := by
  rw [List.getLast?_filterMap, List.findSome?_eq_some_iff]
  -- the last element with a value is the first one of the list in reverse
  simp only [List.reverse_eq_iff, List.reverse_append, List.reverse_cons, List.append_assoc,
    List.singleton_append]
  constructor
  · rintro ⟨after, element, before, hlist, hvalue, hafter⟩
    exact ⟨before.reverse, element, after.reverse, hlist, hvalue, by simpa using hafter⟩
  · rintro ⟨before, element, after, hlist, hvalue, hafter⟩
    exact ⟨after.reverse, element, before.reverse, by simpa using hlist, hvalue,
      by simpa using hafter⟩

/-- The last element of a kind is that behind which there is none of the kind. -/
theorem getLast?_filter_eq_some_iff (p : α → Prop) [DecidablePred p] (list : List α) (element : α) :
    (list.filter (p ·)).getLast? = some element ↔ ∃ before after,
      list = before ++ element :: after ∧ p element ∧ ∀ later ∈ after, ¬ p later := by
  rw [← List.filterMap_eq_filter, getLast?_filterMap_eq_some_iff]
  constructor
  · rintro ⟨before, other, after, rfl, hother, hafter⟩
    obtain ⟨rfl, hp⟩ := Option.guard_eq_some_iff.1 hother
    exact ⟨before, after, rfl, by simpa using hp, by simpa using hafter⟩
  · rintro ⟨before, after, rfl, hp, hafter⟩
    exact ⟨before, element, after, rfl, by simpa using hp, by simpa using hafter⟩

/-- If writes of one kind leave their value at a place, and all others leave what was there, then a
run of writes leaves the value of the last one of the kind, or what was there when there is none. -/
theorem view_foldl (view : σ → Option β) {write : σ → α → σ} {p : α → Prop} [DecidablePred p]
    {value : α → β} (hwrite : ∀ state element, view (write state element) =
      if p element then some (value element) else view state)
    (elements : List α) (state : σ) : view (elements.foldl write state) =
      ((elements.filter (p ·)).getLast?.map value).or (view state) := by
  induction elements generalizing state with
  | nil => rfl
  | cons element rest ih =>
    rw [List.foldl_cons, ih, hwrite, List.filter_cons]
    by_cases h : p element
    · cases hrest : (rest.filter (p ·)).getLast? <;> simp [h, List.getLast?_cons, hrest]
    · simp [h]

end HopQuery
