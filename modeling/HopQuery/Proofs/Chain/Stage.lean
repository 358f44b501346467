import HopQuery.Proofs.Chain.Edit
import Mathlib.Data.List.Basic

/-!
# Chains stage by stage

A chain keeps its hops and the choices of each hop apart. Where the two tables have the hops'
identifiers as keys, in the order of the hops, the chain is a row of stages: a hop together with
its choices. Every change of a chain is a change of such a row, in which a stage sees only the
changes that address its hop.

* `Stage`, `Chain.Consists`: a row of stages, and the chain that consists of it;
* `Consists.unique`: a row makes one chain only;
* `Edit.onStage`, `Edit.onStages`: what a change makes of one stage and of a row;
* `Consists.edit`, `Consists.edits`: a change of the chain is the change of the row, so every chain
  that changes lead to consists of a row of stages.
-/

namespace HopQuery

/-! ### Choices -/

namespace FieldSelection

/-- The selection with the field flipped at all its places. -/
def flip (selection : FieldSelection) (name : String) : FieldSelection :=
  (selection.toggle? name).getD selection

theorem flip_of_toggle? {selection toggled : FieldSelection} {name : String}
    (h : selection.toggle? name = some toggled) : selection.flip name = toggled := by
  rw [flip, h, Option.getD_some]

theorem flip_entries (selection : FieldSelection) (name : String) :
    (selection.flip name).entries = selection.entries.map fun (field, included) =>
      (field, if field = name then !included else included) := by
  unfold flip toggle?
  split
  · rfl
  · next h =>
    -- a name that is not there is flipped nowhere
    have hne : ∀ entry ∈ selection.entries, entry.1 ≠ name := fun entry hentry heq =>
      h (List.any_eq_true.2 ⟨entry, hentry, by simp [heq]⟩)
    rw [Option.getD_none]
    conv => lhs; rw [← List.map_id selection.entries]
    refine List.map_congr_left fun entry hentry => ?_
    simp [hne entry hentry]

end FieldSelection

namespace FilterValues

/-- The values with the filter set at all its places. -/
def assign (values : FilterValues) (name value : String) : FilterValues :=
  (values.set? name value).getD values

theorem assign_of_set? {values updated : FilterValues} {name value : String}
    (h : values.set? name value = some updated) : values.assign name value = updated := by
  rw [assign, h, Option.getD_some]

theorem assign_entries (values : FilterValues) (name value : String) :
    (values.assign name value).entries = values.entries.map fun (filter, old) =>
      (filter, if filter = name then value else old) := by
  unfold assign set?
  split
  · rfl
  · next h =>
    have hne : ∀ entry ∈ values.entries, entry.1 ≠ name := fun entry hentry heq =>
      h (List.any_eq_true.2 ⟨entry, hentry, by simp [heq]⟩)
    rw [Option.getD_none]
    conv => lhs; rw [← List.map_id values.entries]
    refine List.map_congr_left fun entry hentry => ?_
    simp [hne entry hentry]

end FilterValues

/-! ### Rows of stages -/

/-- A hop with its choices. -/
structure Stage where
  hop : Hop
  selection : FieldSelection
  values : FilterValues

namespace Stage

/-- The identifier of the hop. -/
def id (s : Stage) : HopId :=
  s.hop.id

/-- The stage of a new hop of the entity: every field included, every filter off. -/
def begin (kind : String) (id : HopId) (entity : Entity) : Stage :=
  ⟨⟨id, kind⟩, .allIncluded entity.fields, .blank entity.filters⟩

/-- The stage with a field flipped. -/
def flip (s : Stage) (field : String) : Stage :=
  { s with selection := s.selection.flip field }

/-- The stage with a filter set. -/
def assign (s : Stage) (filter value : String) : Stage :=
  { s with values := s.values.assign filter value }

@[simp] theorem hop_flip (s : Stage) (field : String) : (s.flip field).hop = s.hop := rfl
@[simp] theorem id_flip (s : Stage) (field : String) : (s.flip field).id = s.id := rfl
@[simp] theorem values_flip (s : Stage) (field : String) : (s.flip field).values = s.values := rfl

@[simp] theorem hop_assign (s : Stage) (filter value : String) :
    (s.assign filter value).hop = s.hop := rfl

@[simp] theorem id_assign (s : Stage) (filter value : String) :
    (s.assign filter value).id = s.id := rfl

@[simp] theorem selection_assign (s : Stage) (filter value : String) :
    (s.assign filter value).selection = s.selection := rfl

end Stage

/-- The chain consists of the stages: these are its hops, and the tables hold their choices in the
same order. -/
structure Chain.Consists (chain : Chain) (stages : List Stage) : Prop where
  hops_eq : chain.hops = stages.map Stage.hop
  fields_eq : chain.fields.entries = stages.map fun s => (s.id, s.selection)
  filters_eq : chain.filters.entries = stages.map fun s => (s.id, s.values)

namespace Edit

/-- The identifier of the hop that the change addresses. -/
def hop : Edit → HopId
  | append _ _ id => id
  | remove id => id
  | toggleField id _ => id
  | setFilter id _ _ => id

/-- What the change makes of a stage that is there, if it leaves it there. -/
def onStage (e : Edit) (s : Stage) : Option Stage :=
  if s.id = e.hop then
    match e with
    | append _ _ _ => some s
    | remove _ => none
    | toggleField _ field => some (s.flip field)
    | setFilter _ filter value => some (s.assign filter value)
  else some s

/-- The stage that the change adds to a chain without its hop, if it adds one. -/
def newStage? : Edit → Option Stage
  | append catalog kind id => (catalog.entity kind).toOption.map (Stage.begin kind id)
  | remove _ | toggleField _ _ | setFilter _ _ _ => none

/-- What the change makes of a row of stages. -/
def onStages (e : Edit) (stages : List Stage) : List Stage :=
  stages.filterMap e.onStage ++
    if e.hop ∈ stages.map Stage.id then [] else e.newStage?.toList

theorem onStage_of_ne {e : Edit} {s : Stage} (h : s.id ≠ e.hop) : e.onStage s = some s :=
  if_neg h

/-- A change keeps the hop of every stage that it keeps. -/
theorem hop_of_onStage {e : Edit} {s t : Stage} (h : e.onStage s = some t) : t.hop = s.hop := by
  unfold onStage at h
  split at h
  · split at h <;> cases h <;> rfl
  · cases h
    rfl

theorem id_of_onStage {e : Edit} {s t : Stage} (h : e.onStage s = some t) : t.id = s.id :=
  congrArg Hop.id (hop_of_onStage h)

theorem id_of_newStage? {e : Edit} {s : Stage} (h : e.newStage? = some s) : s.id = e.hop := by
  cases e with
  | append catalog kind id =>
    obtain ⟨entity, -, rfl⟩ := Option.map_eq_some_iff.1 h
    rfl
  | _ => cases h

/-! ### Each of the four changes of a row -/

theorem onStages_of_newStage?_eq_none {e : Edit} (h : e.newStage? = none) (stages : List Stage) :
    e.onStages stages = stages.filterMap e.onStage := by
  rw [onStages, h, Option.toList_none, ite_self, List.append_nil]

theorem onStage_append (catalog : Catalog) (kind : String) (id : HopId) (s : Stage) :
    (append catalog kind id).onStage s = some s :=
  ite_self _

theorem onStages_append_of_ok {catalog : Catalog} {kind : String} {id : HopId} {entity : Entity}
    (hentity : catalog.entity kind = .ok entity) {stages : List Stage}
    (h : id ∉ stages.map Stage.id) :
    (append catalog kind id).onStages stages = stages ++ [.begin kind id entity] := by
  have hkept : stages.filterMap (append catalog kind id).onStage = stages := by
    rw [List.filterMap_congr fun s _ => onStage_append .., List.filterMap_some]
  rw [onStages, hkept, hop, if_neg h, newStage?, hentity]
  rfl

theorem onStages_remove (id : HopId) (stages : List Stage) :
    (remove id).onStages stages = stages.filter (·.id ≠ id) := by
  rw [onStages_of_newStage?_eq_none rfl, ← List.filterMap_eq_filter]
  refine List.filterMap_congr fun s _ => ?_
  by_cases h : s.id = id <;> simp [onStage, hop, h, Option.guard]

/-- A change at the stage of one hop does not show in what it keeps of each stage. -/
theorem map_ite_stage {α : Type} {view : Stage → α} {change : Stage → Stage}
    (hview : ∀ s, view (change s) = view s) (id : HopId) (stages : List Stage) :
    (stages.map fun s => if s.id = id then change s else s).map view = stages.map view := by
  rw [List.map_map]
  refine List.map_congr_left fun s _ => ?_
  by_cases hs : s.id = id <;> simp [hs, hview]

theorem onStages_toggleField (id : HopId) (field : String) (stages : List Stage) :
    (toggleField id field).onStages stages = stages.map fun s =>
      if s.id = id then s.flip field else s := by
  rw [onStages_of_newStage?_eq_none rfl, ← List.filterMap_eq_map]
  refine List.filterMap_congr fun s _ => ?_
  by_cases h : s.id = id <;> simp [onStage, hop, h]

theorem onStages_setFilter (id : HopId) (filter value : String) (stages : List Stage) :
    (setFilter id filter value).onStages stages = stages.map fun s =>
      if s.id = id then s.assign filter value else s := by
  rw [onStages_of_newStage?_eq_none rfl, ← List.filterMap_eq_map]
  refine List.filterMap_congr fun s _ => ?_
  by_cases h : s.id = id <;> simp [onStage, hop, h]

/-- A change that keeps every stage as it is and adds none keeps the row. -/
theorem onStages_eq_self {e : Edit} {stages : List Stage} (h : ∀ s ∈ stages, e.onStage s = some s)
    (hnew : e.hop ∈ stages.map Stage.id ∨ e.newStage? = none) : e.onStages stages = stages := by
  have hkept : stages.filterMap e.onStage = stages := by
    rw [List.filterMap_congr h, List.filterMap_some]
  rcases hnew with hmem | hnone
  · rw [onStages, hkept, if_pos hmem, List.append_nil]
  · rw [onStages, hkept, hnone, Option.toList_none, ite_self, List.append_nil]

end Edit

namespace Chain.Consists

variable {chain next : Chain} {stages : List Stage}

theorem empty : Chain.empty.Consists [] :=
  ⟨rfl, rfl, rfl⟩

/-- A row of stages makes one chain only. -/
theorem unique {other : Chain} (h : chain.Consists stages) (hother : other.Consists stages) :
    chain = other := by
  have hhops := h.hops_eq.trans hother.hops_eq.symm
  have hfields := Table.ext (h.fields_eq.trans hother.fields_eq.symm)
  have hfilters := Table.ext (h.filters_eq.trans hother.filters_eq.symm)
  cases chain
  cases other
  simp_all

section View

variable (h : chain.Consists stages)
include h

theorem ids_eq : chain.ids = stages.map Stage.id := by
  rw [ids, h.hops_eq, List.map_map]
  rfl

theorem nodup_ids : (stages.map Stage.id).Nodup := by
  have hnodup := chain.fields.nodup_keys
  rwa [h.fields_eq, List.map_map] at hnodup

theorem map_fst_fields : chain.fields.entries.map Prod.fst = stages.map Stage.id := by
  rw [h.fields_eq, List.map_map]
  rfl

theorem map_fst_filters : chain.filters.entries.map Prod.fst = stages.map Stage.id := by
  rw [h.filters_eq, List.map_map]
  rfl

theorem get?_fields {s : Stage} (hs : s ∈ stages) :
    chain.fields.get? s.id = some s.selection := by
  rw [Table.get?_eq_some_iff, h.fields_eq]
  exact List.mem_map_of_mem (f := fun s : Stage => (s.id, s.selection)) hs

theorem get?_filters {s : Stage} (hs : s ∈ stages) : chain.filters.get? s.id = some s.values := by
  rw [Table.get?_eq_some_iff, h.filters_eq]
  exact List.mem_map_of_mem (f := fun s : Stage => (s.id, s.values)) hs

end View

/-! ### A change of the chain is the change of the row -/

theorem append (h : chain.Consists stages) {catalog : Catalog} {kind : String} {id : HopId}
    (hnext : chain.append catalog kind id = .ok next) :
    next.Consists ((Edit.append catalog kind id).onStages stages) := by
  obtain ⟨hid, entity, hentity, rfl⟩ := (append_eq_ok_iff ..).1 hnext
  rw [h.ids_eq] at hid
  rw [Edit.onStages_append_of_ok hentity hid]
  refine ⟨?_, ?_, ?_⟩
  · simp [h.hops_eq, Stage.begin]
  · show Table.put _ _ _ = _
    rw [Table.put_of_not_mem (h.map_fst_fields ▸ hid), h.fields_eq, List.map_append]
    rfl
  · show Table.put _ _ _ = _
    rw [Table.put_of_not_mem (h.map_fst_filters ▸ hid), h.filters_eq, List.map_append]
    rfl

theorem remove (h : chain.Consists stages) {id : HopId} (hnext : chain.remove id = .ok next) :
    next.Consists ((Edit.remove id).onStages stages) := by
  obtain ⟨-, rfl⟩ := (remove_eq_ok_iff ..).1 hnext
  rw [Edit.onStages_remove]
  refine ⟨?_, ?_, ?_⟩
  · show chain.hops.filter _ = _
    rw [h.hops_eq, List.filter_map]
    rfl
  · show chain.fields.entries.filter _ = _
    rw [h.fields_eq, List.filter_map]
    rfl
  · show chain.filters.entries.filter _ = _
    rw [h.filters_eq, List.filter_map]
    rfl

theorem toggleField (h : chain.Consists stages) {id : HopId} {field : String}
    (hnext : chain.toggleField id field = .ok next) :
    next.Consists ((Edit.toggleField id field).onStages stages) := by
  obtain ⟨selection, toggled, hselection, htoggled, rfl⟩ := (toggleField_eq_ok_iff ..).1 hnext
  have hid : id ∈ chain.fields.entries.map Prod.fst :=
    (Table.mem_keys_iff _ _).2 ⟨selection, hselection⟩
  rw [Edit.onStages_toggleField]
  refine ⟨?_, ?_, ?_⟩
  · rw [h.hops_eq, Edit.map_ite_stage fun s => s.hop_flip field]
  · show Table.put _ _ _ = _
    rw [Table.put_of_mem chain.fields.nodup_keys hid, h.fields_eq, List.map_map, List.map_map]
    refine List.map_congr_left fun s hmem => ?_
    by_cases hs : s.id = id
    · -- the stage of the hop is the one whose selection was found
      have hfound := h.get?_fields hmem
      rw [hs, hselection] at hfound
      obtain rfl := Option.some.inj hfound
      simp [Stage.flip, Stage.id, FieldSelection.flip_of_toggle? htoggled, ← hs]
    · simp [hs]
  · rw [h.filters_eq, Edit.map_ite_stage fun s => by rw [s.id_flip, s.values_flip]]

theorem setFilter (h : chain.Consists stages) {id : HopId} {filter value : String}
    (hnext : chain.setFilter id filter value = .ok next) :
    next.Consists ((Edit.setFilter id filter value).onStages stages) := by
  obtain ⟨values, updated, hvalues, hupdated, rfl⟩ := (setFilter_eq_ok_iff ..).1 hnext
  have hid : id ∈ chain.filters.entries.map Prod.fst :=
    (Table.mem_keys_iff _ _).2 ⟨values, hvalues⟩
  rw [Edit.onStages_setFilter]
  refine ⟨?_, ?_, ?_⟩
  · rw [h.hops_eq, Edit.map_ite_stage fun s => s.hop_assign filter value]
  · rw [h.fields_eq,
      Edit.map_ite_stage fun s => by rw [s.id_assign filter value, s.selection_assign filter value]]
  · show Table.put _ _ _ = _
    rw [Table.put_of_mem chain.filters.nodup_keys hid, h.filters_eq, List.map_map, List.map_map]
    refine List.map_congr_left fun s hmem => ?_
    by_cases hs : s.id = id
    · have hfound := h.get?_filters hmem
      rw [hs, hvalues] at hfound
      obtain rfl := Option.some.inj hfound
      simp [Stage.assign, Stage.id, FilterValues.assign_of_set? hupdated, ← hs]
    · simp [hs]

/-- A change that is refused is one that does nothing to the row. -/
theorem onStages_of_refused (h : chain.Consists stages) {e : Edit} {error : ChainError}
    (hedit : chain.edit? e = .error error) : e.onStages stages = stages := by
  have hrefused : ∀ next, chain.edit? e ≠ .ok next := fun next hok => by
    rw [hok] at hedit
    cases hedit
  cases e with
  | append catalog kind id =>
    refine Edit.onStages_eq_self (fun s _ => Edit.onStage_append ..) ?_
    by_cases hid : id ∈ stages.map Stage.id
    · exact .inl hid
    · right
      cases hentity : catalog.entity kind with
      | error _ => rw [Edit.newStage?, hentity]; rfl
      | ok entity =>
        exact absurd ((append_eq_ok_iff ..).2 ⟨h.ids_eq ▸ hid, entity, hentity, rfl⟩) (hrefused _)
  | remove id =>
    refine Edit.onStages_eq_self (fun s hs => Edit.onStage_of_ne fun hid => ?_) (.inr rfl)
    have hmem : s.id ∈ chain.ids := h.ids_eq ▸ List.mem_map_of_mem hs
    rw [hid] at hmem
    exact hrefused _ ((remove_eq_ok_iff ..).2 ⟨hmem, rfl⟩)
  | toggleField id field =>
    refine Edit.onStages_eq_self (fun s hs => ?_) (.inr rfl)
    by_cases hid : s.id = id
    · have hflip : s.selection.flip field = s.selection := by
        cases htoggle : s.selection.toggle? field with
        | none => rw [FieldSelection.flip, htoggle, Option.getD_none]
        | some toggled =>
          have hselection := hid ▸ h.get?_fields hs
          exact absurd ((toggleField_eq_ok_iff ..).2 ⟨_, toggled, hselection, htoggle, rfl⟩)
            (hrefused _)
      simp [Edit.onStage, Edit.hop, hid, Stage.flip, hflip]
    · exact Edit.onStage_of_ne hid
  | setFilter id filter value =>
    refine Edit.onStages_eq_self (fun s hs => ?_) (.inr rfl)
    by_cases hid : s.id = id
    · have hassign : s.values.assign filter value = s.values := by
        cases hset : s.values.set? filter value with
        | none => rw [FilterValues.assign, hset, Option.getD_none]
        | some updated =>
          have hvalues := hid ▸ h.get?_filters hs
          exact absurd ((setFilter_eq_ok_iff ..).2 ⟨_, updated, hvalues, hset, rfl⟩) (hrefused _)
      simp [Edit.onStage, Edit.hop, hid, Stage.assign, hassign]
    · exact Edit.onStage_of_ne hid

/-- A change that is made is the change of the row. -/
theorem of_edit? (h : chain.Consists stages) {e : Edit} (hnext : chain.edit? e = .ok next) :
    next.Consists (e.onStages stages) := by
  cases e with
  | append catalog kind id => exact h.append hnext
  | remove id => exact h.remove hnext
  | toggleField id field => exact h.toggleField hnext
  | setFilter id filter value => exact h.setFilter hnext

/-- Made or refused, a change of the chain is the change of the row. -/
theorem edit (h : chain.Consists stages) (e : Edit) :
    (chain.edit e).Consists (e.onStages stages) := by
  unfold Chain.edit
  split
  · next next hnext => exact h.of_edit? hnext
  · next error hedit =>
    rw [h.onStages_of_refused hedit]
    exact h

/-- A run of changes is the run of them on the row. -/
theorem edits (h : chain.Consists stages) (es : List Edit) :
    (chain.edits es).Consists (es.foldl (fun row e => e.onStages row) stages) := by
  induction es generalizing chain stages with
  | nil => exact h
  | cons e es ih => exact ih (h.edit e)

end Chain.Consists

end HopQuery
