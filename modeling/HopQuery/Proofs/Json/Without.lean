import HopQuery.Json.Writer
import HopQuery.Proofs.Json.Induction
import Mathlib.Algebra.Order.BigOperators.Group.List
import Mathlib.Algebra.Order.Ring.Nat

/-!
# Values without a member

A value from which every member of one name is taken away, at every depth. Where there is such a
member, the text of the value gets shorter; where there is none, nothing changes.

* `Json.without`: the value that is left;
* `Json.HasMember`: whether there is a member of the name anywhere in a value;
* `text_without_eq_iff`: the text stays the same only if there is none;
* `get?_without`: the other members of an object are found as before.
-/

namespace HopQuery.Json

mutual

/-- The value without the members of the name, at every depth. -/
def without (name : String) : Json → Json
  | .array items => .array (withoutItems name items)
  | .object members => .object (withoutMembers name members)
  | scalar => scalar

/-- The items, each without the members of the name. -/
def withoutItems (name : String) : List Json → List Json
  | [] => []
  | item :: rest => without name item :: withoutItems name rest

/-- The members that have another name, their values without the members of the name. -/
def withoutMembers (name : String) : List (String × Json) → List (String × Json)
  | [] => []
  | (key, value) :: rest =>
    if key = name then withoutMembers name rest
    else (key, without name value) :: withoutMembers name rest

end

/-- A member of the name stands somewhere in the value. -/
inductive HasMember (name : String) : Json → Prop
  /-- The value is an object that has it. -/
  | here {members : List (String × Json)} {value : Json} (hmem : (name, value) ∈ members) :
      HasMember name (.object members)
  /-- It stands in the value of a member. -/
  | inside {members : List (String × Json)} {member : String × Json} (hmem : member ∈ members)
      (h : HasMember name member.2) : HasMember name (.object members)
  /-- It stands in an item. -/
  | item {items : List Json} {item : Json} (hmem : item ∈ items) (h : HasMember name item) :
      HasMember name (.array items)

variable {name : String}

theorem withoutItems_eq_map (items : List Json) :
    withoutItems name items = items.map (without name) := by
  induction items with
  | nil => rfl
  | cons item rest ih => rw [withoutItems, ih, List.map_cons]

theorem withoutMembers_eq_map (members : List (String × Json)) : withoutMembers name members =
    (members.filter (·.1 ≠ name)).map fun member => (member.1, without name member.2) := by
  induction members with
  | nil => rfl
  | cons member rest ih =>
    obtain ⟨key, value⟩ := member
    by_cases h : key = name <;> simp [withoutMembers, h, ih]

/-- Where there is no member of the name, nothing is taken away. -/
theorem without_of_not_hasMember {value : Json} (h : ¬ HasMember name value) :
    value.without name = value := by
  induction value using induct with
  | array items ih =>
    have hitems : ∀ item ∈ items, without name item = item := fun item hitem =>
      ih item hitem fun hhas => h (.item hitem hhas)
    rw [without, withoutItems_eq_map, List.map_congr_left hitems, List.map_id']
  | object members ih =>
    have hkept : members.filter (·.1 ≠ name) = members := by
      refine List.filter_eq_self.2 fun member hmember => decide_eq_true fun heq => h ?_
      obtain ⟨key, value⟩ := member
      cases heq
      exact .here hmember
    have hvalues : ∀ member ∈ members, (member.1, without name member.2) = member :=
      fun member hmember => Prod.ext rfl (ih member hmember fun hhas => h (.inside hmember hhas))
    rw [without, withoutMembers_eq_map, hkept, List.map_congr_left hvalues, List.map_id']
  | _ => rfl

/-! ### Lengths of texts -/

/-- What an item takes in the text of an array, with the comma behind it. -/
def itemWidth (item : Json) : Nat :=
  (write item).length + 1

/-- What a member takes in the text of an object, with the comma behind it. -/
def memberWidth (member : String × Json) : Nat :=
  (stringText member.1 ++ ':' :: write member.2).length + 1

theorem length_commaSeparated (texts : List (List Char)) :
    (commaSeparated texts).length = (texts.map (·.length + 1)).sum - 1 := by
  induction texts with
  | nil => rfl
  | cons text rest ih =>
    cases rest with
    | nil => simp [commaSeparated]
    | cons next rest =>
      simp only [commaSeparated, List.length_append, List.length_cons, ih, List.map_cons,
        List.sum_cons]
      omega

theorem length_write_array (items : List Json) :
    (write (.array items)).length = (items.map itemWidth).sum - 1 + 2 := by
  have htexts : writeItems items = items.map write := by
    induction items with
    | nil => rfl
    | cons item rest ih => rw [writeItems, ih, List.map_cons]
  simp only [write, arrayText, htexts, List.length_append, List.length_cons, List.length_nil,
    length_commaSeparated, List.map_map]
  rfl

theorem length_write_object (members : List (String × Json)) :
    (write (.object members)).length = (members.map memberWidth).sum - 1 + 2 := by
  have htexts : writeMembers members = members.map fun member => (member.1, write member.2) := by
    induction members with
    | nil => rfl
    | cons member rest ih => rw [writeMembers, ih, List.map_cons]
  simp only [write, objectText, htexts, List.length_append, List.length_cons, List.length_nil,
    length_commaSeparated, List.map_map]
  rfl

/-- A member that is taken away takes nothing, the others what their values take. -/
theorem sum_memberWidth_withoutMembers (members : List (String × Json)) :
    ((withoutMembers name members).map memberWidth).sum = (members.map fun member =>
      if member.1 = name then 0 else memberWidth (member.1, without name member.2)).sum := by
  induction members with
  | nil => rfl
  | cons member rest ih =>
    obtain ⟨key, value⟩ := member
    by_cases h : key = name <;> simp [withoutMembers, h, ih]

/-- Fewer characters for the members are fewer for the object: no member takes just one. -/
theorem length_write_object_lt {members others : List (String × Json)}
    (h : (members.map memberWidth).sum < (others.map memberWidth).sum) :
    (write (.object members)).length < (write (.object others)).length := by
  have htwo : 2 ≤ (others.map memberWidth).sum := by
    cases others with
    | nil => cases h
    | cons other rest =>
      rw [List.map_cons, List.sum_cons, memberWidth, List.length_append, List.length_cons]
      omega
  rw [length_write_object, length_write_object]
  omega

/-- A text that is shorter where there is a member of the name is never longer. -/
theorem length_write_without_le {value : Json}
    (h : HasMember name value → (write (value.without name)).length < (write value).length) :
    (write (value.without name)).length ≤ (write value).length := by
  by_cases hhas : HasMember name value
  · exact Nat.le_of_lt (h hhas)
  · rw [without_of_not_hasMember hhas]

/-- Where there is a member of the name, the text gets shorter. -/
theorem length_write_without_lt {value : Json} (h : HasMember name value) :
    (write (value.without name)).length < (write value).length := by
  induction value using induct with
  | array items ih =>
    have hle : ∀ item ∈ items, itemWidth (item.without name) ≤ itemWidth item :=
      fun item hitem => Nat.succ_le_succ (length_write_without_le (ih item hitem))
    obtain ⟨item, hitem, hhas⟩ : ∃ item ∈ items, HasMember name item := by
      cases h with
      | item hmem h => exact ⟨_, hmem, h⟩
    have hsum : (items.map fun item => itemWidth (item.without name)).sum <
        (items.map itemWidth).sum :=
      List.sum_lt_sum _ _ hle ⟨item, hitem, Nat.succ_lt_succ (ih item hitem hhas)⟩
    have hone : 1 ≤ (items.map fun item => itemWidth (item.without name)).sum :=
      Nat.le_trans (Nat.succ_pos _)
        (List.le_sum_of_mem (List.mem_map_of_mem
          (f := fun item => itemWidth (item.without name)) hitem))
    rw [without, length_write_array, length_write_array, withoutItems_eq_map, List.map_map,
      Function.comp_def]
    omega
  | object members ih =>
    have hle : ∀ member ∈ members,
        (if member.1 = name then 0 else memberWidth (member.1, member.2.without name)) ≤
          memberWidth member := by
      intro member hmember
      split
      · exact Nat.zero_le _
      · simpa [memberWidth] using length_write_without_le (ih member hmember)
    rw [without]
    refine length_write_object_lt ?_
    rw [sum_memberWidth_withoutMembers]
    cases h with
    | here hmem =>
      refine List.sum_lt_sum _ _ hle ⟨_, hmem, ?_⟩
      rw [if_pos rfl]
      exact Nat.succ_pos _
    | @inside _ member hmem h =>
      refine List.sum_lt_sum _ _ hle ⟨_, hmem, ?_⟩
      split
      · exact Nat.succ_pos _
      · simpa [memberWidth] using ih member hmem h
  | _ => cases h

/-- The text of a value tells whether it has a member of the name. -/
theorem text_without_eq_iff (name : String) (value : Json) :
    (value.without name).text = value.text ↔ ¬ HasMember name value := by
  constructor
  · intro heq h
    have hlt := length_write_without_lt h
    rw [String.ofList_injective heq] at hlt
    exact Nat.lt_irrefl _ hlt
  · intro h
    rw [without_of_not_hasMember h]

/-! ### The members that are left -/

theorem get?_without {key : String} (h : key ≠ name) (value : Json) :
    (value.without name).get? key = (value.get? key).map (without name) := by
  cases value with
  | object members =>
    show Table.lookup key (withoutMembers name members) = (Table.lookup key members).map _
    induction members with
    | nil => rfl
    | cons member rest ih =>
      obtain ⟨other, value⟩ := member
      by_cases hother : other = name
      · have hne : other ≠ key := fun heq => h (heq.symm.trans hother)
        rw [withoutMembers, if_pos hother, ih, Table.lookup, if_neg hne]
      · rw [withoutMembers, if_neg hother, Table.lookup, Table.lookup, ih]
        split <;> rfl
  | _ => rfl

end HopQuery.Json
