import HopQuery.Proofs.Chain.Edit
import HopQuery.Proofs.Selection.Levels

/-!
# Consistent chains

The hops of a chain and the two tables beside them are changed one by one, and only the tables are
asked when a field or a filter is set. They stay in step all the same.

* `Chain.Consistent`: no two hops share an identifier, and both tables speak of exactly the hops;
* `Consistent.edit`: every change that is made keeps a chain consistent;
* `consistent_edits`: every chain that changes lead to is consistent, so it has a query under all
  rules unless it has no hop.
-/

namespace HopQuery.Chain

/-- The hops have different identifiers, and each of the tables has the identifiers as its keys. -/
structure Consistent (chain : Chain) : Prop where
  nodup_ids : chain.ids.Nodup
  mem_keys_fields : ∀ id, id ∈ chain.fields.keys ↔ id ∈ chain.ids
  mem_keys_filters : ∀ id, id ∈ chain.filters.keys ↔ id ∈ chain.ids

namespace Consistent

theorem empty : Chain.empty.Consistent where
  nodup_ids := List.nodup_nil
  mem_keys_fields _ := Iff.rfl
  mem_keys_filters _ := Iff.rfl

variable {chain next : Chain}

theorem append (h : chain.Consistent) {catalog : Catalog} {kind : String} {id : HopId}
    (hnext : chain.append catalog kind id = .ok next) : next.Consistent := by
  obtain ⟨hid, entity, -, rfl⟩ := (append_eq_ok_iff ..).1 hnext
  have hids : (chain.hops ++ [(⟨id, kind⟩ : Hop)]).map Hop.id = chain.ids ++ [id] := by simp [ids]
  refine ⟨?_, ?_, ?_⟩
  · rw [ids, hids, List.nodup_append]
    refine ⟨h.nodup_ids, by simp, ?_⟩
    intro a ha b hb
    rw [List.mem_singleton.1 hb]
    exact fun hab => hid (hab ▸ ha)
  · intro other
    rw [ids, hids, Table.mem_keys_insert, h.mem_keys_fields, List.mem_append, List.mem_singleton,
      or_comm]
  · intro other
    rw [ids, hids, Table.mem_keys_insert, h.mem_keys_filters, List.mem_append, List.mem_singleton,
      or_comm]

theorem remove (h : chain.Consistent) {id : HopId} (hnext : chain.remove id = .ok next) :
    next.Consistent := by
  obtain ⟨-, rfl⟩ := (remove_eq_ok_iff ..).1 hnext
  have hids : (chain.hops.filter (·.id ≠ id)).map Hop.id = chain.ids.filter (· ≠ id) := by
    rw [ids, List.filter_map]
    rfl
  refine ⟨?_, ?_, ?_⟩
  · rw [ids, hids]
    exact h.nodup_ids.filter _
  · intro other
    rw [ids, hids, Table.mem_keys_erase, h.mem_keys_fields, List.mem_filter, decide_eq_true_eq,
      and_comm]
  · intro other
    rw [ids, hids, Table.mem_keys_erase, h.mem_keys_filters, List.mem_filter, decide_eq_true_eq,
      and_comm]

theorem toggleField (h : chain.Consistent) {id : HopId} {field : String}
    (hnext : chain.toggleField id field = .ok next) : next.Consistent := by
  obtain ⟨selection, toggled, hselection, -, rfl⟩ := (toggleField_eq_ok_iff ..).1 hnext
  -- only an entry that is there is replaced, so no key is added
  have hid : id ∈ chain.fields.keys := (Table.mem_keys_iff _ _).2 ⟨selection, hselection⟩
  refine ⟨h.nodup_ids, ?_, h.mem_keys_filters⟩
  intro other
  rw [Table.mem_keys_insert, or_iff_right_of_imp (fun heq => heq ▸ hid)]
  exact h.mem_keys_fields other

theorem setFilter (h : chain.Consistent) {id : HopId} {filter value : String}
    (hnext : chain.setFilter id filter value = .ok next) : next.Consistent := by
  obtain ⟨values, updated, hvalues, -, rfl⟩ := (setFilter_eq_ok_iff ..).1 hnext
  have hid : id ∈ chain.filters.keys := (Table.mem_keys_iff _ _).2 ⟨values, hvalues⟩
  refine ⟨h.nodup_ids, h.mem_keys_fields, ?_⟩
  intro other
  rw [Table.mem_keys_insert, or_iff_right_of_imp (fun heq => heq ▸ hid)]
  exact h.mem_keys_filters other

/-- A change that is made keeps a chain consistent. -/
theorem edit (h : chain.Consistent) {e : Edit} (hnext : chain.edit? e = .ok next) :
    next.Consistent := by
  cases e with
  | append catalog kind id => exact h.append hnext
  | remove id => exact h.remove hnext
  | toggleField id field => exact h.toggleField hnext
  | setFilter id filter value => exact h.setFilter hnext

/-- All changes that are made, between any that are refused, keep a chain consistent. -/
theorem edits (h : chain.Consistent) (es : List Edit) : (chain.edits es).Consistent :=
  edits_induction h (fun _ _ _ hchain hnext => hchain.edit hnext) es

/-- A consistent chain has no query under some rules only if it has no hop. -/
theorem compileWithPath_eq_error_iff (h : chain.Consistent) (rules : Rules) (error : QueryError) :
    Query.compileWithPath chain rules = .error error ↔ error = .emptyChain ∧ chain.hops = [] := by
  by_cases hhops : chain.hops = []
  · rw [Query.compileWithPath_of_hops_eq_nil hhops]
    simp [hhops, eq_comm]
  · have hkeys : ∀ hop ∈ chain.hops, hop.id ∈ chain.fields.keys ∧ hop.id ∈ chain.filters.keys := by
      intro hop hmem
      have hid : hop.id ∈ chain.ids := List.mem_map_of_mem hmem
      exact ⟨(h.mem_keys_fields _).2 hid, (h.mem_keys_filters _).2 hid⟩
    -- there are as many levels as hops, hence at least one, which is enough for a selection
    obtain ⟨levels, hlevels, hlength⟩ := Level.exists_ofHops hkeys (chain.path rules).segments
    have hne : levels ≠ [] := by
      rintro rfl
      rw [path, Path.length_resolve, Nat.min_self] at hlength
      exact hhops (List.eq_nil_of_length_eq_zero hlength.symm)
    obtain ⟨s, hs⟩ := Option.ne_none_iff_exists'.1
      (fun hnone => hne ((Selection.ofLevels?_eq_none_iff levels).1 hnone))
    have hselection := (Selection.ofChain_eq_ok_iff chain (chain.path rules) s).2 ⟨_, hlevels, hs⟩
    rw [(Query.compileWithPath_eq_ok_iff chain rules _ _).2 ⟨hhops, rfl, s, hselection, rfl⟩]
    simp [hhops]

end Consistent

/-- Whatever changes are tried on the chain without hops, from whatever catalogs and under whatever
identifiers, the hops keep different identifiers and each of the tables speaks of exactly the hops.
So under no rules are choices missing for the query, and there is none only for want of a hop. -/
theorem consistent_edits (es : List Edit) :
    (Chain.empty.edits es).Consistent ∧ ∀ (rules : Rules) (error : QueryError),
      Query.compileWithPath (Chain.empty.edits es) rules = .error error ↔
        error = .emptyChain ∧ (Chain.empty.edits es).hops = [] := by
  have h := Consistent.empty.edits es
  exact ⟨h, h.compileWithPath_eq_error_iff⟩

end HopQuery.Chain
