import HopQuery.Proofs.LastWrite
import HopQuery.Proofs.Rules
import Mathlib.Data.List.Forall2

/-!
# Layers of rules

One table of rules laid over another, when the preceding types and the kinds after each of them are
visited in no particular order.

* `Rules.Same`: tables that hold the same, in whatever order;
* `Rules.VisitedIn`, `Rules.Extends`: an order of visiting a table, and where laying it over another
  one can lead;
* `Extends.get?_eq`, `Extends.mem_keys_iff`: in every order to the same rules after the same types;
* `Rules.insertAll`, `Rules.HoldsLast`: many rules put in one after the other, and the table in
  which the last one for each pair counts;
* `Extends.same_extend`, `Extends.same_of_extends_again`, `Extends.same_of_extends_extends`,
  `Extends.same_insertAll`: the laws of laying rules over others;
* `Extends.upper_before_lower`: what is found in layers, and all of these laws.
-/

namespace HopQuery

/-- Where no key occurs twice, the order of the pairs does not matter. -/
theorem Table.lookup_eq_of_perm {κ ν : Type} [DecidableEq κ] {s t : List (κ × ν)}
    (hs : (s.map Prod.fst).Nodup) (h : s.Perm t) (key : κ) : lookup key s = lookup key t := by
  have ht : (t.map Prod.fst).Nodup := (h.map Prod.fst).nodup_iff.1 hs
  ext value
  rw [lookup_eq_some_iff hs, lookup_eq_some_iff ht, h.mem_iff]

namespace Rules

/-- The tables have rules after the same preceding types, if only an empty table of them, and for
each pair the same rule. -/
structure Same (rules others : Rules) : Prop where
  mem_keys : ∀ previous, previous ∈ rules.byPrevious.keys ↔ previous ∈ others.byPrevious.keys
  get? : ∀ previous current, rules.get? previous current = others.get? previous current

/-! ### Visiting in any order -/

/-- The preceding types of a table in some order, each with its kinds in an order of their own. -/
def VisitedIn (rules : Rules) (order : List (String × Table String String)) : Prop :=
  ∃ entries, entries.Perm rules.byPrevious.entries ∧
    List.Forall₂ (fun visited entry => visited.1 = entry.1 ∧
      visited.2.entries.Perm entry.2.entries) order entries

/-- The upper rules can be laid over the lower ones in such an order that this is the result. -/
def Extends (lower upper result : Rules) : Prop :=
  ∃ order, upper.VisitedIn order ∧
    result = order.foldl (fun rules entry => rules.lay entry.1 entry.2) lower

theorem extends_extend (lower upper : Rules) : Extends lower upper (lower.extend upper) := by
  refine ⟨upper.byPrevious.entries, ⟨_, .refl _, ?_⟩, extend_eq_foldl_lay lower upper⟩
  exact List.forall₂_same.2 fun _ _ => ⟨rfl, .refl _⟩

namespace VisitedIn

variable {rules : Rules} {order : List (String × Table String String)} (h : rules.VisitedIn order)
include h

theorem perm_keys : (order.map Prod.fst).Perm rules.byPrevious.keys := by
  obtain ⟨entries, hperm, horder⟩ := h
  have heq : order.map Prod.fst = entries.map Prod.fst := by
    rw [← List.forall₂_eq_eq_eq, List.forall₂_map_left_iff, List.forall₂_map_right_iff]
    exact horder.imp fun _ _ hentry => hentry.1
  rw [heq]
  exact hperm.map Prod.fst

theorem nodup_keys : (order.map Prod.fst).Nodup :=
  h.perm_keys.nodup_iff.2 rules.byPrevious.nodup_keys

/-- What is visited holds for each pair the rule of the table. -/
theorem lookup_bind (previous current : String) :
    (Table.lookup previous order).bind (·.get? current) = rules.get? previous current := by
  obtain ⟨entries, hperm, horder⟩ := h
  have hnodup : (entries.map Prod.fst).Nodup :=
    (hperm.map Prod.fst).nodup_iff.2 rules.byPrevious.nodup_keys
  rw [get?_eq_bind, Table.get?, ← Table.lookup_eq_of_perm hnodup hperm]
  clear hperm hnodup
  -- only the order of the kinds differs now, type by type
  induction horder with
  | nil => rfl
  | @cons visited entry order entries hentry _ ih =>
    obtain ⟨hprevious, hkinds⟩ := hentry
    rw [Table.lookup, Table.lookup, hprevious]
    split
    · exact Table.lookup_eq_of_perm visited.2.nodup_keys hkinds current
    · exact ih

end VisitedIn

/-- What has been laid over rules adds its own preceding types to theirs, and drops none. -/
theorem mem_keys_foldl_lay (order : List (String × Table String String)) (rules : Rules)
    (previous : String) :
    previous ∈ (order.foldl (fun rules entry => rules.lay entry.1 entry.2) rules).byPrevious.keys ↔
      previous ∈ order.map Prod.fst ∨ previous ∈ rules.byPrevious.keys := by
  induction order generalizing rules with
  | nil => simp
  | cons entry rest ih =>
    rw [List.foldl_cons, ih, lay, Table.mem_keys_insert, List.map_cons, List.mem_cons]
    tauto

namespace Extends

variable {lower upper result : Rules}

/-- The rule of the upper table counts, whatever the order. -/
theorem get?_eq (h : Extends lower upper result) (previous current : String) :
    result.get? previous current =
      (upper.get? previous current).or (lower.get? previous current) := by
  obtain ⟨order, horder, rfl⟩ := h
  rw [get?_foldl_lay horder.nodup_keys, horder.lookup_bind]

theorem mem_keys_iff (h : Extends lower upper result) (previous : String) :
    previous ∈ result.byPrevious.keys ↔
      previous ∈ upper.byPrevious.keys ∨ previous ∈ lower.byPrevious.keys := by
  obtain ⟨order, horder, rfl⟩ := h
  rw [mem_keys_foldl_lay, horder.perm_keys.mem_iff]

end Extends

/-! ### One rule after the other -/

/-- A rule for a pair of a preceding type and a kind. -/
structure Rule where
  previous : String
  current : String
  resolved : String

/-- The rules with more of them put in, one after the other. -/
def insertAll (rules : Rules) (list : List Rule) : Rules :=
  list.foldl (fun rules rule => rules.insert rule.previous rule.current rule.resolved) rules

/-- The table has the preceding types of the list, and for each pair the last rule of the list. -/
structure HoldsLast (rules : Rules) (list : List Rule) : Prop where
  mem_keys : ∀ previous, previous ∈ rules.byPrevious.keys ↔ previous ∈ list.map Rule.previous
  get?_iff : ∀ previous current resolved, rules.get? previous current = some resolved ↔
    ∃ before after, list = before ++ ⟨previous, current, resolved⟩ :: after ∧
      ∀ later ∈ after, ¬ (later.previous = previous ∧ later.current = current)

/-- What the last rule of the list for the pair says. -/
def lastFor? (list : List Rule) (previous current : String) : Option String :=
  (list.filter fun rule => rule.previous = previous ∧ rule.current = current).getLast?.map
    Rule.resolved

theorem lastFor?_eq_some_iff (list : List Rule) (previous current resolved : String) :
    lastFor? list previous current = some resolved ↔
      ∃ before after, list = before ++ ⟨previous, current, resolved⟩ :: after ∧
        ∀ later ∈ after, ¬ (later.previous = previous ∧ later.current = current) := by
  rw [lastFor?, Option.map_eq_some_iff]
  simp only [getLast?_filter_eq_some_iff]
  constructor
  · rintro ⟨rule, ⟨before, after, hlist, ⟨rfl, rfl⟩, hafter⟩, rfl⟩
    exact ⟨before, after, hlist, hafter⟩
  · rintro ⟨before, after, hlist, hafter⟩
    exact ⟨_, ⟨before, after, hlist, ⟨rfl, rfl⟩, hafter⟩, rfl⟩

theorem get?_insertAll (rules : Rules) (list : List Rule) (previous current : String) :
    (rules.insertAll list).get? previous current =
      (lastFor? list previous current).or (rules.get? previous current) :=
  view_foldl (fun rules : Rules => rules.get? previous current)
    (fun rules rule => rules.get?_insert rule.previous rule.current rule.resolved previous current)
    list rules

theorem mem_keys_insertAll (rules : Rules) (list : List Rule) (previous : String) :
    previous ∈ (rules.insertAll list).byPrevious.keys ↔
      previous ∈ list.map Rule.previous ∨ previous ∈ rules.byPrevious.keys := by
  induction list generalizing rules with
  | nil => simp [insertAll]
  | cons rule rest ih =>
    have hcons : rules.insertAll (rule :: rest) =
        (rules.insert rule.previous rule.current rule.resolved).insertAll rest := rfl
    rw [hcons, ih, Rules.insert, Table.mem_keys_insert, List.map_cons, List.mem_cons]
    tauto

/-- Put into an empty table, the last rule for each pair is there. -/
theorem holdsLast_insertAll (list : List Rule) : (Rules.empty.insertAll list).HoldsLast list where
  mem_keys previous := by
    rw [mem_keys_insertAll]
    exact or_iff_left nofun
  get?_iff previous current resolved := by
    have hempty : Rules.empty.get? previous current = none := rfl
    rw [get?_insertAll, hempty, Option.or_none, lastFor?_eq_some_iff]

theorem HoldsLast.get?_eq {rules : Rules} {list : List Rule} (h : rules.HoldsLast list)
    (previous current : String) : rules.get? previous current = lastFor? list previous current := by
  ext resolved
  rw [h.get?_iff, lastFor?_eq_some_iff]

/-! ### The laws of layers -/

namespace Extends

variable {lower upper result : Rules} (h : Extends lower upper result)
include h

/-- The order of the visit makes no difference. -/
theorem same_extend : result.Same (lower.extend upper) where
  mem_keys previous := by rw [h.mem_keys_iff, (extends_extend lower upper).mem_keys_iff]
  get? previous current := by rw [h.get?_eq, (extends_extend lower upper).get?_eq]

/-- To lay the same rules over the result again changes nothing. -/
theorem same_of_extends_again {again : Rules} (hagain : Extends result upper again) :
    again.Same result where
  mem_keys previous := by
    rw [hagain.mem_keys_iff, h.mem_keys_iff]
    tauto
  get? previous current := by
    rw [hagain.get?_eq, h.get?_eq, ← Option.or_assoc, Option.or_self]

/-- Three layers may be laid from below or from above. -/
theorem same_of_extends_extends {top whole both whole' : Rules} (hwhole : Extends result top whole)
    (hboth : Extends upper top both) (hwhole' : Extends lower both whole') :
    whole.Same whole' where
  mem_keys previous := by
    rw [hwhole.mem_keys_iff, h.mem_keys_iff, hwhole'.mem_keys_iff, hboth.mem_keys_iff]
    tauto
  get? previous current := by
    rw [hwhole.get?_eq, h.get?_eq, hwhole'.get?_eq, hboth.get?_eq, Option.or_assoc]

/-- To put rules in one after the other is to lay over the table that holds the last of them. -/
theorem same_insertAll {list : List Rule} (hlist : upper.HoldsLast list) :
    (lower.insertAll list).Same result where
  mem_keys previous := by rw [mem_keys_insertAll, h.mem_keys_iff, hlist.mem_keys]
  get? previous current := by rw [get?_insertAll, h.get?_eq, hlist.get?_eq]

/-- The upper rules are visited in any order, that of the table among them, and laid over the lower
ones; the order makes no difference. Then the type for a pair is that of the upper rule, else that of
the lower rule, else the kind itself; no lower rule is lost where the upper table has none for the
pair, though it may have others after the same type. Nor does it make a difference to lay the same
rules over the result again, or further rules over the upper ones first. To put rules in one after the
other is to lay over the table in which the last of them for each pair counts, and there is such a
table. -/
theorem upper_before_lower :
    Extends lower upper (lower.extend upper) ∧ result.Same (lower.extend upper) ∧
    (∀ previous current, result.resolve previous current =
      (upper.get? previous current).getD ((lower.get? previous current).getD current)) ∧
    (∀ previous current, upper.get? previous current = none →
      result.get? previous current = lower.get? previous current) ∧
    (∀ again, Extends result upper again → again.Same result) ∧
    (∀ top whole both whole', Extends result top whole → Extends upper top both →
      Extends lower both whole' → whole.Same whole') ∧
    (∀ list, upper.HoldsLast list → (lower.insertAll list).Same result) ∧
    ∀ list, ∃ table : Rules, table.HoldsLast list := by
  refine ⟨extends_extend lower upper, h.same_extend, fun previous current => ?_,
    fun previous current hnone => ?_, fun _ hagain => h.same_of_extends_again hagain,
    fun _ _ _ _ hwhole hboth hwhole' => h.same_of_extends_extends hwhole hboth hwhole',
    fun _ hlist => h.same_insertAll hlist, fun list => ⟨_, holdsLast_insertAll list⟩⟩
  · rw [resolve, h.get?_eq]
    cases upper.get? previous current <;> rfl
  · rw [h.get?_eq, hnone, Option.none_or]

end Extends

/-- Three rules after two types, the last type visited first: the school of students is now a
campus, that of a group still a school. -/
theorem Extends.upper_before_lower_campus :
    let campus := Table.ofList [("schools", "campus"), ("groups", "group")]
    let single := Table.ofList [("groups", "group")]
    let upper : Rules := ⟨.ofList [("teachers", single), ("students", campus)]⟩
    let order := [("students", .ofList [("groups", "group"), ("schools", "campus")]),
      ("teachers", single)]
    let result := order.foldl (fun rules entry => rules.lay entry.1 entry.2) school
    Extends school upper result ∧ result.resolve "students" "schools" = "campus" ∧
      result.get? "group" "schools" = school.get? "group" "schools" ∧
      result.Same (school.extend upper) := by
  intro campus single upper order result
  have h : Extends school upper result := by
    refine ⟨order, ⟨upper.byPrevious.entries.reverse, List.reverse_perm _, ?_⟩, rfl⟩
    exact .cons ⟨rfl, by decide⟩ (.cons ⟨rfl, .refl _⟩ .nil)
  obtain ⟨-, hsame, hresolve, hkept, -⟩ := h.upper_before_lower
  exact ⟨h, hresolve "students" "schools", hkept "group" "schools" rfl, hsame⟩

end Rules

end HopQuery
