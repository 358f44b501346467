import HopQuery.Rules
import HopQuery.Text.Name

/-!
# Looking up rules

What a change of a table of rules does to the rule for a preceding type and a kind.

* `Table.get?_foldl_insert`: many values put under distinct keys;
* `Rules.get?_insert`, `Rules.get?_extend`: one more rule, and one table laid over another;
* `Rules.Named`: a table that names types by names only, as the rules of the school catalog do.
-/

namespace HopQuery

/-- Of values that are put under distinct keys, the one under a key counts before the one that was
there. -/
theorem Table.get?_foldl_insert {κ ν : Type} [DecidableEq κ] {entries : List (κ × ν)}
    (h : (entries.map Prod.fst).Nodup) (table : Table κ ν) (key : κ) :
    (entries.foldl (fun under entry => under.insert entry.1 entry.2) table).get? key =
      (lookup key entries).or (table.get? key) := by
  induction entries generalizing table with
  | nil => rfl
  | cons entry rest ih =>
    obtain ⟨k, v⟩ := entry
    obtain ⟨hk, hrest⟩ := List.nodup_cons.1 h
    rw [List.foldl_cons, ih hrest, get?_insert, lookup]
    by_cases heq : k = key
    · -- no later entry has the key again, so what was put first is not replaced
      subst heq
      have hnone : lookup k rest = none := (lookup_eq_none_iff k rest).2 hk
      simp [hnone]
    · simp [heq]

namespace Rules

/-! ### Lookups -/

theorem get?_eq_bind (rules : Rules) (previous current : String) :
    rules.get? previous current = (rules.byPrevious.get? previous).bind (·.get? current) := by
  rw [get?, after]
  cases rules.byPrevious.get? previous <;> rfl

theorem after_mk_insert (rules : Rules) (previous other : String)
    (table : Table String String) :
    (⟨rules.byPrevious.insert previous table⟩ : Rules).after other =
      if previous = other then table else rules.after other := by
  rw [after, Table.get?_insert]
  split
  · rfl
  · rfl

theorem get?_insert (rules : Rules) (previous current resolved previous' current' : String) :
    (rules.insert previous current resolved).get? previous' current' =
      if previous = previous' ∧ current = current' then some resolved
      else rules.get? previous' current' := by
  rw [get?, insert, after_mk_insert]
  by_cases hprevious : previous = previous'
  · subst hprevious
    rw [if_pos rfl, Table.get?_insert]
    simp [get?]
  · simp [hprevious, get?]

/-- The rules with a table laid over those after one preceding type. -/
def lay (rules : Rules) (previous : String) (table : Table String String) : Rules :=
  ⟨rules.byPrevious.insert previous
    (table.entries.foldl (fun under entry => under.insert entry.1 entry.2)
      (rules.after previous))⟩

theorem extend_eq_foldl_lay (lower upper : Rules) : lower.extend upper =
    upper.byPrevious.entries.foldl (fun rules entry => rules.lay entry.1 entry.2) lower := rfl

theorem get?_lay (rules : Rules) (previous previous' current : String)
    (table : Table String String) :
    (rules.lay previous table).get? previous' current =
      if previous = previous' then (table.get? current).or (rules.get? previous current)
      else rules.get? previous' current := by
  rw [get?, lay, after_mk_insert]
  split
  · exact Table.get?_foldl_insert table.nodup_keys _ current
  · rfl

/-- Of tables laid over rules after distinct preceding types, the one after a type counts before the
rules. -/
theorem get?_foldl_lay {entries : List (String × Table String String)}
    (h : (entries.map Prod.fst).Nodup) (rules : Rules) (previous current : String) :
    (entries.foldl (fun rules entry => rules.lay entry.1 entry.2) rules).get? previous current =
      ((Table.lookup previous entries).bind (·.get? current)).or
        (rules.get? previous current) := by
  induction entries generalizing rules with
  | nil => rfl
  | cons entry rest ih =>
    obtain ⟨p, table⟩ := entry
    obtain ⟨hp, hrest⟩ := List.nodup_cons.1 h
    rw [List.foldl_cons, ih hrest, get?_lay, Table.lookup]
    by_cases heq : p = previous
    · subst heq
      have hnone : Table.lookup p rest = none := (Table.lookup_eq_none_iff p rest).2 hp
      simp [hnone]
    · simp [heq]

/-- Where rules lie over others, the rule of the upper ones counts if there is one. -/
theorem get?_extend (lower upper : Rules) (previous current : String) :
    (lower.extend upper).get? previous current =
      (upper.get? previous current).or (lower.get? previous current) := by
  rw [extend_eq_foldl_lay, get?_foldl_lay upper.byPrevious.nodup_keys, upper.get?_eq_bind]
  rfl

/-! ### Tables of names -/

/-- The types to write are names. -/
def Named (rules : Rules) : Prop :=
  ∀ previous current typeName, rules.get? previous current = some typeName →
    Text.isName typeName = true

namespace Named

theorem empty : Rules.empty.Named := by
  intro previous current typeName h
  cases h

variable {rules : Rules}

theorem insert (h : rules.Named) (previous current : String) {resolved : String}
    (hresolved : Text.isName resolved = true) : (rules.insert previous current resolved).Named := by
  intro previous' current' typeName hget
  rw [get?_insert] at hget
  split at hget
  · cases hget
    exact hresolved
  · exact h previous' current' typeName hget

theorem school : Rules.school.Named :=
  List.foldlRecOn _ _ empty fun _ h previous _ => h.insert previous "schools" (by decide +kernel)

end Named

end Rules

end HopQuery
