import HopQuery.Proofs.Chain.Consistency
import HopQuery.Proofs.Chain.Stage

/-!
# Chains of one catalog

As long as all hops of a chain come from one catalog, the choices beside a hop bear the names that
the catalog lists for its kind, in that order. So whether a change is refused, and why, can be told
from the hops and the catalog, although the chain itself asks its two tables.

* `FieldSelection.names`, `FilterValues.names`: the names that choices bear, whatever they are;
* `Stage.Listed`, `Chain.Listed`: choices of the names that the catalog lists;
* `Listed.edit`: every change from the catalog that is made keeps a chain so;
* `append_eq_error_iff`, `remove_eq_error_iff`, `Listed.toggleField_eq_error_iff`,
  `Listed.setFilter_eq_error_iff`: when a change is refused, and why.
-/

namespace HopQuery

/-! ### Names of choices -/

namespace FieldSelection

/-- The names of the fields, included or not. -/
def names (selection : FieldSelection) : List String :=
  selection.entries.map Prod.fst

theorem names_allIncluded (fields : List String) : (allIncluded fields).names = fields := by
  rw [names, allIncluded, List.map_map]
  exact List.map_id fields

theorem names_flip (selection : FieldSelection) (field : String) :
    (selection.flip field).names = selection.names := by
  rw [names, flip_entries, List.map_map]
  rfl

theorem included_subset_names (selection : FieldSelection) :
    ∀ field ∈ selection.included, field ∈ selection.names := by
  intro field hfield
  obtain ⟨⟨name, included⟩, hentry, hname⟩ := List.mem_filterMap.1 hfield
  obtain ⟨-, heq⟩ := Option.ite_none_right_eq_some.1 hname
  cases heq
  exact List.mem_map_of_mem (f := Prod.fst) hentry

theorem toggle?_eq_none_iff (selection : FieldSelection) (field : String) :
    selection.toggle? field = none ↔ field ∉ selection.names := by
  rw [toggle?, ite_eq_right_iff]
  simp [contains, names]

end FieldSelection

namespace FilterValues

/-- The names of the filters, on or off. -/
def names (values : FilterValues) : List String :=
  values.entries.map Prod.fst

theorem names_blank (filters : List String) : (blank filters).names = filters := by
  rw [names, blank, List.map_map]
  exact List.map_id filters

theorem names_assign (values : FilterValues) (filter value : String) :
    (values.assign filter value).names = values.names := by
  rw [names, assign_entries, List.map_map]
  rfl

theorem active_subset_names (values : FilterValues) :
    ∀ argument ∈ values.active, argument.1 ∈ values.names :=
  fun _ hargument => List.mem_map_of_mem (List.mem_of_mem_filter hargument)

theorem set?_eq_none_iff (values : FilterValues) (filter value : String) :
    values.set? filter value = none ↔ filter ∉ values.names := by
  rw [set?, ite_eq_right_iff]
  simp [contains, names]

end FilterValues

/-! ### Looking up kinds -/

namespace Catalog

theorem entity_eq_ok_iff (catalog : Catalog) (kind : String) (entity : Entity) :
    catalog.entity kind = .ok entity ↔ catalog.entities.get? kind = some entity := by
  unfold Catalog.entity
  cases catalog.entities.get? kind <;> simp

theorem entity_eq_error_iff (catalog : Catalog) (kind : String) (error : CatalogError) :
    catalog.entity kind = .error error ↔ kind ∉ catalog.kinds ∧ error = .unknownKind kind := by
  rw [kinds, ← Table.get?_eq_none_iff]
  unfold Catalog.entity
  cases catalog.entities.get? kind <;> simp [eq_comm]

theorem exists_entity_iff (catalog : Catalog) (kind : String) :
    (∃ entity, catalog.entity kind = .ok entity) ↔ kind ∈ catalog.kinds := by
  simp only [entity_eq_ok_iff]
  exact (Table.mem_keys_iff _ _).symm

theorem fields_eq_ok_iff (catalog : Catalog) (kind : String) (fields : List String) :
    catalog.fields kind = .ok fields ↔
      ∃ entity, catalog.entity kind = .ok entity ∧ fields = entity.fields :=
  map_eq_ok_iff ..

theorem filters_eq_ok_iff (catalog : Catalog) (kind : String) (filters : List String) :
    catalog.filters kind = .ok filters ↔
      ∃ entity, catalog.entity kind = .ok entity ∧ filters = entity.filters :=
  map_eq_ok_iff ..

end Catalog

/-! ### Stages and chains of a catalog -/

/-- The choices of the stage have the names that the catalog lists for the kind of the hop. -/
def Stage.Listed (catalog : Catalog) (s : Stage) : Prop :=
  catalog.fields s.hop.kind = .ok s.selection.names ∧
    catalog.filters s.hop.kind = .ok s.values.names

/-- Hops come from the catalog if they come at all. -/
def Edit.From (catalog : Catalog) : Edit → Prop
  | append other _ _ => other = catalog
  | remove _ | toggleField _ _ | setFilter _ _ _ => True

theorem Stage.listed_begin {catalog : Catalog} {kind : String} {entity : Entity}
    (h : catalog.entity kind = .ok entity) (id : HopId) :
    (Stage.begin kind id entity).Listed catalog := by
  constructor
  · rw [begin, FieldSelection.names_allIncluded]
    exact (catalog.fields_eq_ok_iff ..).2 ⟨entity, h, rfl⟩
  · rw [begin, FilterValues.names_blank]
    exact (catalog.filters_eq_ok_iff ..).2 ⟨entity, h, rfl⟩

theorem Stage.listed_of_newStage? {catalog : Catalog} {s : Stage} {e : Edit} (he : e.From catalog)
    (h : e.newStage? = some s) : s.Listed catalog := by
  cases e with
  | append other kind id =>
    obtain rfl : other = catalog := he
    cases hentity : other.entity kind with
    | error _ =>
      rw [Edit.newStage?, hentity] at h
      cases h
    | ok entity =>
      rw [Edit.newStage?, hentity] at h
      cases h
      exact Stage.listed_begin hentity id
  | _ => cases h

theorem Stage.Listed.onStage {catalog : Catalog} {s t : Stage} (h : s.Listed catalog) {e : Edit}
    (ht : e.onStage s = some t) : t.Listed catalog := by
  unfold Edit.onStage at ht
  split at ht
  · cases e with
    | append _ _ _ => exact Option.some.inj ht ▸ h
    | remove _ => cases ht
    | toggleField _ field =>
      obtain rfl := Option.some.inj ht
      exact ⟨by rw [flip, FieldSelection.names_flip]; exact h.1, h.2⟩
    | setFilter _ filter value =>
      obtain rfl := Option.some.inj ht
      exact ⟨h.1, by rw [assign, FilterValues.names_assign]; exact h.2⟩
  · exact Option.some.inj ht ▸ h

namespace Chain

/-- The chain consists of stages whose choices have the names that the catalog lists. -/
def Listed (catalog : Catalog) (chain : Chain) : Prop :=
  ∃ stages, chain.Consists stages ∧ ∀ s ∈ stages, s.Listed catalog

theorem Consists.consistent {chain : Chain} {stages : List Stage} (h : chain.Consists stages) :
    chain.Consistent where
  nodup_ids := h.ids_eq ▸ h.nodup_ids
  mem_keys_fields id := by rw [Table.keys, h.map_fst_fields, h.ids_eq]
  mem_keys_filters id := by rw [Table.keys, h.map_fst_filters, h.ids_eq]

namespace Listed

variable {catalog : Catalog} {chain next : Chain}

theorem empty (catalog : Catalog) : Chain.empty.Listed catalog :=
  ⟨[], .empty, by simp⟩

theorem consistent (h : chain.Listed catalog) : chain.Consistent := by
  obtain ⟨stages, hstages, -⟩ := h
  exact hstages.consistent

/-- A change that is made keeps the names, if hops come from the catalog only. -/
theorem edit (h : chain.Listed catalog) {e : Edit} (he : e.From catalog)
    (hnext : chain.edit? e = .ok next) : next.Listed catalog := by
  obtain ⟨stages, hstages, hlisted⟩ := h
  refine ⟨e.onStages stages, hstages.of_edit? hnext, fun t ht => ?_⟩
  rcases List.mem_append.1 ht with hold | hnew
  · obtain ⟨s, hs, hst⟩ := List.mem_filterMap.1 hold
    exact (hlisted s hs).onStage hst
  · split at hnew
    · cases hnew
    · exact Stage.listed_of_newStage? he (Option.mem_toList.1 hnew)

end Listed

/-! ### When a change is refused -/

theorem append_eq_error_iff (chain : Chain) (catalog : Catalog) (kind : String) (id : HopId)
    (error : ChainError) : chain.append catalog kind id = .error error ↔
      id ∈ chain.ids ∧ error = .duplicateHop id ∨
      id ∉ chain.ids ∧ kind ∉ catalog.kinds ∧
        error = .catalog (.unknownKindWhile kind "While appending a hop") := by
  unfold append
  rw [← isSome_hop?_iff, ← catalog.exists_entity_iff]
  split
  · next h => simp [h, eq_comm]
  · next h =>
    cases hentity : catalog.entity kind with
    | error _ => simp [h, eq_comm]
    | ok entity => simp [h]

theorem remove_eq_error_iff (chain : Chain) (id : HopId) (error : ChainError) :
    chain.remove id = .error error ↔ id ∉ chain.ids ∧ error = .unknownHop id := by
  unfold remove
  rw [← isSome_hop?_iff]
  split
  · next h => simp [h]
  · next h => simp [h, eq_comm]

theorem toggleField_eq_error_iff (chain : Chain) (id : HopId) (field : String)
    (error : ChainError) : chain.toggleField id field = .error error ↔
      chain.fields.get? id = none ∧ error = .unknownHop id ∨
      (∃ selection, chain.fields.get? id = some selection ∧ field ∉ selection.names) ∧
        error = .unknownField id field := by
  unfold toggleField
  split
  · next h => simp [h, eq_comm]
  · next selection h =>
    split
    · next htoggle => simp [h, (selection.toggle?_eq_none_iff field).1 htoggle, eq_comm]
    · next toggled htoggle =>
      have hfield : field ∈ selection.names := by
        by_contra hnot
        rw [(selection.toggle?_eq_none_iff field).2 hnot] at htoggle
        cases htoggle
      simp [h, hfield]

theorem setFilter_eq_error_iff (chain : Chain) (id : HopId) (filter value : String)
    (error : ChainError) : chain.setFilter id filter value = .error error ↔
      chain.filters.get? id = none ∧ error = .unknownHop id ∨
      (∃ values, chain.filters.get? id = some values ∧ filter ∉ values.names) ∧
        error = .unknownFilter id filter := by
  unfold setFilter
  split
  · next h => simp [h, eq_comm]
  · next values h =>
    split
    · next hset => simp [h, (values.set?_eq_none_iff filter value).1 hset, eq_comm]
    · next updated hset =>
      have hfilter : filter ∈ values.names := by
        by_contra hnot
        rw [(values.set?_eq_none_iff filter value).2 hnot] at hset
        cases hset
      simp [h, hfilter]

/-- The hop is there, but the name is not among those that are listed for its kind. -/
def Lacks (chain : Chain) (listed : String → Except CatalogError (List String)) (id : HopId)
    (name : String) : Prop :=
  ∃ hop ∈ chain.hops, hop.id = id ∧ ∃ names, listed hop.kind = .ok names ∧ name ∉ names

/-- Where the choices of each hop have the names listed for its kind, a name is missing among the
choices if it is missing in the list. -/
theorem exists_not_mem_names_iff {α : Type} {chain : Chain} {table : Table HopId α}
    {names : α → List String} {listed : String → Except CatalogError (List String)}
    (hkeys : ∀ id, id ∈ table.keys ↔ id ∈ chain.ids)
    (hchoices : ∀ hop ∈ chain.hops, ∃ choices, table.get? hop.id = some choices ∧
      listed hop.kind = .ok (names choices)) (id : HopId) (name : String) :
    (∃ choices, table.get? id = some choices ∧ name ∉ names choices) ↔
      chain.Lacks listed id name := by
  constructor
  · rintro ⟨choices, hget, hname⟩
    have hid : id ∈ chain.ids := (hkeys id).1 ((Table.mem_keys_iff _ _).2 ⟨choices, hget⟩)
    obtain ⟨hop, hhop, rfl⟩ := List.mem_map.1 hid
    obtain ⟨choices', hget', hlisted⟩ := hchoices hop hhop
    obtain rfl := Option.some.inj (hget.symm.trans hget')
    exact ⟨hop, hhop, rfl, _, hlisted, hname⟩
  · rintro ⟨hop, hhop, rfl, names', hlisted', hname⟩
    obtain ⟨choices, hget, hlisted⟩ := hchoices hop hhop
    obtain rfl := Except.ok.inj (hlisted'.symm.trans hlisted)
    exact ⟨choices, hget, hname⟩

namespace Listed

variable {catalog : Catalog} {chain : Chain} (h : chain.Listed catalog)
include h

/-- The choices of a hop have the names that the catalog lists for its kind. -/
theorem exists_choices {hop : Hop} (hhop : hop ∈ chain.hops) :
    (∃ selection, chain.fields.get? hop.id = some selection ∧
      catalog.fields hop.kind = .ok selection.names) ∧
    ∃ values, chain.filters.get? hop.id = some values ∧
      catalog.filters hop.kind = .ok values.names := by
  obtain ⟨stages, hstages, hlisted⟩ := h
  rw [hstages.hops_eq] at hhop
  obtain ⟨s, hs, rfl⟩ := List.mem_map.1 hhop
  obtain ⟨hfields, hfilters⟩ := hlisted s hs
  exact ⟨⟨_, hstages.get?_fields hs, hfields⟩, ⟨_, hstages.get?_filters hs, hfilters⟩⟩

/-- A field is flipped unless there is no such hop, or the catalog lists no such field for the kind
of the hop. -/
theorem toggleField_eq_error_iff (id : HopId) (field : String) (error : ChainError) :
    chain.toggleField id field = .error error ↔
      id ∉ chain.ids ∧ error = .unknownHop id ∨
      chain.Lacks catalog.fields id field ∧ error = .unknownField id field := by
  rw [Chain.toggleField_eq_error_iff, Table.get?_eq_none_iff, h.consistent.mem_keys_fields,
    exists_not_mem_names_iff h.consistent.mem_keys_fields fun _ hhop => (h.exists_choices hhop).1]

/-- A filter is set unless there is no such hop, or the catalog lists no such filter for the kind
of the hop. -/
theorem setFilter_eq_error_iff (id : HopId) (filter value : String) (error : ChainError) :
    chain.setFilter id filter value = .error error ↔
      id ∉ chain.ids ∧ error = .unknownHop id ∨
      chain.Lacks catalog.filters id filter ∧ error = .unknownFilter id filter := by
  rw [Chain.setFilter_eq_error_iff, Table.get?_eq_none_iff, h.consistent.mem_keys_filters,
    exists_not_mem_names_iff h.consistent.mem_keys_filters fun _ hhop => (h.exists_choices hhop).2]

end Listed

end Chain

end HopQuery
