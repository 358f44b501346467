import HopQuery.Proofs.Json.Same
import HopQuery.Shape.Flat
import Mathlib.Data.List.Nodup

/-!
# The first of each row of equal values

A value is kept if no value before it has its canonical text. Where no zero is negative, these are
the values that are not deeply equal to any before them; a zero and a negative zero are equal, but
both are kept.

* `dedupe_concat`: what one more value adds;
* `distinct`: the values that are not equal to an earlier one, by comparison with all of them;
* `Comparable`: values of which texts tell whether they are equal;
* `dedupe_eq_distinct`: the two give the same, where no zero is negative;
* `dedupe_signed_zeros`: where one is, they differ.
-/

namespace HopQuery

open Json

/-! ### Keeping by texts -/

theorem dedupeBeyond_concat (seen : Std.HashSet String) (values : List Json) (value : Json) :
    dedupeBeyond seen (values ++ [value]) =
      if value.canonicalText ∈ seen ∨ value.canonicalText ∈ values.map canonicalText then
        dedupeBeyond seen values
      else dedupeBeyond seen values ++ [value] := by
  induction values generalizing seen with
  | nil => simp [dedupeBeyond]
  | cons first rest ih =>
    simp only [List.cons_append, dedupeBeyond, Std.HashSet.contains_iff_mem, List.map_cons,
      List.mem_cons]
    by_cases hseen : first.canonicalText ∈ seen
    · have hold : value.canonicalText ∈ seen ∨ value.canonicalText = first.canonicalText ∨
          value.canonicalText ∈ rest.map canonicalText ↔
          value.canonicalText ∈ seen ∨ value.canonicalText ∈ rest.map canonicalText := by
        grind
      simp only [if_pos hseen, ih, hold]
    -- the text of the first value stands in the set from now on
    · have hold : value.canonicalText ∈ seen ∨ value.canonicalText = first.canonicalText ∨
          value.canonicalText ∈ rest.map canonicalText ↔
          value.canonicalText ∈ seen.insert first.canonicalText ∨
            value.canonicalText ∈ rest.map canonicalText := by
        grind
      simp only [if_neg hseen, ih, hold]
      split_ifs <;> rfl

/-- One more value is kept unless a value before it has its text. -/
theorem dedupe_concat (values : List Json) (value : Json) : dedupe (values ++ [value]) =
    if value.canonicalText ∈ values.map canonicalText then dedupe values
    else dedupe values ++ [value] := by
  rw [dedupe, dedupeBeyond_concat, dedupe]
  simp

/-- What is kept of the values up to a place is not changed by those behind it. -/
theorem dedupe_isPrefix {before values : List Json} (h : before <+: values) :
    dedupe before <+: dedupe values := by
  obtain ⟨after, rfl⟩ := h
  induction after using List.reverseRecOn with
  | nil => rw [List.append_nil]
  | append_singleton after value ih =>
    rw [← List.append_assoc, dedupe_concat]
    split_ifs
    · exact ih
    · exact ih.trans (List.prefix_append _ _)

theorem dedupe_sublist (values : List Json) : (dedupe values).Sublist values := by
  induction values using List.reverseRecOn with
  | nil => exact .slnil
  | append_singleton values value ih =>
    rw [dedupe_concat]
    split_ifs
    · exact ih.trans (List.sublist_append_left _ _)
    · exact ih.append_right _

/-- The texts that are kept are those of all values. -/
theorem mem_map_dedupe (values : List Json) (key : String) :
    key ∈ (dedupe values).map canonicalText ↔ key ∈ values.map canonicalText := by
  induction values using List.reverseRecOn generalizing key with
  | nil => rfl
  | append_singleton values value ih =>
    rw [dedupe_concat, List.map_append, List.mem_append, List.map_singleton, List.mem_singleton]
    split_ifs with hold
    · rw [ih]
      exact ⟨Or.inl, fun h => h.elim id fun heq => heq ▸ hold⟩
    · rw [List.map_append, List.mem_append, ih, List.map_singleton, List.mem_singleton]

/-- No text is kept twice. -/
theorem nodup_map_dedupe (values : List Json) : ((dedupe values).map canonicalText).Nodup := by
  induction values using List.reverseRecOn with
  | nil => exact List.nodup_nil
  | append_singleton values value ih =>
    rw [dedupe_concat]
    split_ifs with hold
    · exact ih
    · rw [← mem_map_dedupe] at hold
      rw [List.map_append, List.map_singleton]
      exact List.nodup_append.2 ⟨ih, List.nodup_singleton _, fun a ha b hb => by
        rw [List.mem_singleton.1 hb]
        exact fun heq => hold (heq ▸ ha)⟩

/-! ### Keeping by comparison -/

/-- The values that are not equal to any before them, in order. -/
def distinct (values : List Json) : List Json :=
  (values.zipIdx.filter fun (value, place) =>
    !(values.take place).any fun earlier => earlier.same value).map Prod.fst

theorem distinct_concat (values : List Json) (value : Json) : distinct (values ++ [value]) =
    if values.any fun earlier => earlier.same value then distinct values
    else distinct values ++ [value] := by
  have hbefore : values.zipIdx.filter (fun (value', place) =>
      !((values ++ [value]).take place).any fun earlier => earlier.same value') =
      values.zipIdx.filter fun (value', place) =>
        !(values.take place).any fun earlier => earlier.same value' := by
    refine List.filter_congr fun (value', place) hentry => ?_
    have hplace : place < values.length := by simpa using List.snd_lt_of_mem_zipIdx hentry
    dsimp only
    rw [List.take_append_of_le_length hplace.le]
  rw [distinct, List.zipIdx_append, List.filter_append, hbefore, distinct]
  split_ifs with hold <;> simp [hold]

/-- Values without a negative zero and with distinct names in each object, of which texts tell
whether they are equal. -/
def Comparable (values : List Json) : Prop :=
  ∀ value ∈ values, value.WellFormed ∧ value.hasNegativeZero = false

theorem Comparable.text_eq_iff {values : List Json} (h : Comparable values)
    {value other : Json} (hvalue : value ∈ values) (hother : other ∈ values) :
    value.canonicalText = other.canonicalText ↔ value.same other = true :=
  canonicalText_eq_iff_same (h value hvalue).1 (h other hother).1 (h value hvalue).2
    (h other hother).2

theorem Comparable.of_isPrefix {before values : List Json} (h : Comparable values)
    (hbefore : before <+: values) : Comparable before :=
  fun value hvalue => h value (hbefore.subset hvalue)

theorem Comparable.dedupe_eq {values : List Json} (h : Comparable values) :
    dedupe values = distinct values := by
  induction values using List.reverseRecOn with
  | nil => rfl
  | append_singleton values value ih =>
    have hold : value.canonicalText ∈ values.map canonicalText ↔
        values.any (fun earlier => earlier.same value) = true := by
      rw [List.mem_map, List.any_eq_true]
      refine exists_congr fun earlier => and_congr_right fun hearlier => ?_
      exact h.text_eq_iff (by simp [hearlier]) (by simp)
    rw [dedupe_concat, distinct_concat, ih (h.of_isPrefix (List.prefix_append _ _))]
    simp only [hold]

/-- Where no zero is negative, comparing texts and comparing values keep the same: of each row of
equal values the first, and no two equal ones. A value that is dropped is equal to one kept before
it, and the values behind a place change nothing up to it. -/
theorem dedupe_eq_distinct (values : List Json) (h : Comparable values) :
    dedupe values = distinct values ∧
      (dedupe values).Pairwise (fun earlier value => earlier.same value = false) ∧
      (∀ before value after, values = before ++ value :: after →
        dedupe (before ++ [value]) = dedupe before ++ [value] ∨
          dedupe (before ++ [value]) = dedupe before ∧
            ∃ kept ∈ dedupe before, kept.same value = true) ∧
      ∀ before, before <+: values → dedupe before <+: dedupe values := by
  refine ⟨h.dedupe_eq, ?_, ?_, fun before hbefore => dedupe_isPrefix hbefore⟩
  · have hnodup := List.pairwise_map.1 (nodup_map_dedupe values)
    refine hnodup.imp_of_mem fun {a b} ha hb hne => ?_
    have hsub := (dedupe_sublist values).subset
    rwa [Ne, h.text_eq_iff (hsub ha) (hsub hb), Bool.not_eq_true] at hne
  · rintro before value after rfl
    rw [dedupe_concat]
    split_ifs with hold
    · refine Or.inr ⟨rfl, ?_⟩
      rw [← mem_map_dedupe] at hold
      obtain ⟨kept, hkept, heq⟩ := List.mem_map.1 hold
      have hmem := (dedupe_sublist before).subset hkept
      exact ⟨kept, hkept, (h.text_eq_iff (by simp [hmem]) (by simp)).1 heq⟩
    · exact Or.inl rfl

/-- The same object twice, with its members in another order, is kept once. -/
theorem dedupe_eq_distinct_reordered :
    Comparable [.object [("a", .number (.whole 0)), ("b", .array [.number (.real ⟨false, .zero⟩)])],
        .object [("b", .array [.number (.real ⟨false, .zero⟩)]), ("a", .number (.whole 0))],
        .string "0"] ∧
      dedupe [.object [("a", .number (.whole 0)), ("b", .array [.number (.real ⟨false, .zero⟩)])],
          .object [("b", .array [.number (.real ⟨false, .zero⟩)]), ("a", .number (.whole 0))],
          .string "0"] =
        [.object [("a", .number (.whole 0)), ("b", .array [.number (.real ⟨false, .zero⟩)])],
          .string "0"] := by
  have h : Comparable
      [.object [("a", .number (.whole 0)), ("b", .array [.number (.real ⟨false, .zero⟩)])],
        .object [("b", .array [.number (.real ⟨false, .zero⟩)]), ("a", .number (.whole 0))],
        .string "0"] := by
    simp [Comparable, WellFormed, MembersWellFormed, ItemsWellFormed, hasNegativeZero,
      membersHaveNegativeZero, itemsHaveNegativeZero, Number.isNegativeZero]
  exact ⟨h, (dedupe_eq_distinct _ h).1.trans (by decide +kernel)⟩

/-- A zero and a negative zero are equal, but both are kept. -/
theorem dedupe_signed_zeros :
    Json.read? "0.0" = some (.number (.real ⟨false, .zero⟩)) ∧
      Json.read? "-0.0" = some (.number (.real ⟨true, .zero⟩)) ∧
      same (.number (.real ⟨false, .zero⟩)) (.number (.real ⟨true, .zero⟩)) = true ∧
      distinct [.number (.real ⟨false, .zero⟩), .number (.real ⟨true, .zero⟩)] =
        [.number (.real ⟨false, .zero⟩)] ∧
      dedupe [.number (.real ⟨false, .zero⟩), .number (.real ⟨true, .zero⟩)] =
        [.number (.real ⟨false, .zero⟩), .number (.real ⟨true, .zero⟩)] := by
  refine ⟨by decide +kernel, by decide +kernel, by decide +kernel, by decide +kernel, ?_⟩
  have htext : canonicalText (.number (.real ⟨true, .zero⟩)) ≠
      canonicalText (.number (.real ⟨false, .zero⟩)) := by
    decide +kernel
  have hfirst : dedupe [.number (.real ⟨false, .zero⟩)] = [.number (.real ⟨false, .zero⟩)] :=
    dedupe_concat [] _
  refine (dedupe_concat [_] _).trans ?_
  rw [if_neg (by simpa using htext), hfirst]
  rfl

end HopQuery
