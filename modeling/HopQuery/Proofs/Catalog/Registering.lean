import HopQuery.Proofs.Chain.Listed
import HopQuery.Proofs.LastWrite
import Mathlib.Data.List.Induction

/-!
# Registering entities

What is in a catalog after any entities have been registered one after the other, kinds repeated in
any order.

* `Catalog.Parts`: the order of the kinds and the entries kept apart, as a list and a map;
* `parts_ofList`: kept so, they stay those of the catalog;
* `IsLast`, `entity_ofList_eq_ok_iff`: the entity that is registered last for a kind;
* `mem_kinds_ofList`, `pairwise_kinds_ofList`: the kinds in the order in which they came first;
* `exists_append_of_mem_addableKinds`: what the menu of a chain offers can be appended;
* `kinds_and_entries_ofList`: all of this together.
-/

namespace HopQuery

namespace Catalog

/-! ### Kinds and entries kept apart -/

/-- A list of kinds, and a map from kinds to entities that has no order of its own. -/
structure Parts where
  order : List String
  entry? : String → Option Entity

/-- The entity takes the place of an earlier one of its kind. A kind under which there is no entity
goes to the end of the list. -/
def Parts.insert (parts : Parts) (entity : Entity) : Parts where
  order := if (parts.entry? entity.kind).isSome then parts.order else parts.order ++ [entity.kind]
  entry? kind := if entity.kind = kind then some entity else parts.entry? kind

/-- The kinds of a catalog, and what is found under each. -/
def parts (catalog : Catalog) : Parts :=
  ⟨catalog.kinds, catalog.entities.get?⟩

theorem contains_eq_true_iff (catalog : Catalog) (kind : String) :
    catalog.contains kind = true ↔ kind ∈ catalog.kinds := by
  rw [kinds, Table.mem_keys_iff, ← Option.isSome_iff_exists]
  rfl

theorem parts_insert (catalog : Catalog) (entity : Entity) :
    (catalog.insert entity).parts = catalog.parts.insert entity := by
  have hmem : (catalog.entities.get? entity.kind).isSome ↔ entity.kind ∈ catalog.kinds :=
    catalog.contains_eq_true_iff entity.kind
  rw [parts, kinds_insert, Parts.insert, Parts.mk.injEq]
  constructor
  · simp only [parts, hmem]
  · funext kind
    exact get?_insert ..

/-- The list and the map stay in step with the catalog through every run. -/
theorem parts_ofList (entities : List Entity) :
    (ofList entities).parts = entities.foldl Parts.insert ⟨[], fun _ => none⟩ :=
  (List.foldl_hom parts fun catalog entity => (parts_insert catalog entity).symm).symm

/-! ### Entries -/

/-- The entity is of the kind, and behind it none of the kind is registered. -/
def IsLast (entities : List Entity) (kind : String) (entity : Entity) : Prop :=
  ∃ before after, entities = before ++ entity :: after ∧ entity.kind = kind ∧
    ∀ later ∈ after, later.kind ≠ kind

/-- What is found under a kind is the last entity of the kind. -/
theorem entity_ofList_eq_ok_iff (entities : List Entity) (kind : String) (entity : Entity) :
    (ofList entities).entity kind = .ok entity ↔ IsLast entities kind entity := by
  have hrun : (ofList entities).entities.get? kind =
      (entities.filter (·.kind = kind)).getLast? := by
    refine (view_foldl (fun catalog : Catalog => catalog.entities.get? kind)
      (fun catalog entity => catalog.get?_insert entity kind) entities empty).trans ?_
    rw [Option.map_id']
    exact Option.or_none
  rw [entity_eq_ok_iff, hrun, getLast?_filter_eq_some_iff]
  rfl

/-! ### Kinds -/

theorem mem_kinds_ofList (entities : List Entity) (kind : String) :
    kind ∈ (ofList entities).kinds ↔ kind ∈ entities.map Entity.kind := by
  induction entities using List.reverseRecOn with
  | nil => rfl
  | append_singleton entities entity ih =>
    rw [ofList_concat, kinds, Catalog.insert, Table.mem_keys_insert, List.map_append,
      List.mem_append, ← ih, or_comm]
    simp [kinds]

/-- Of two kinds in the catalog the one that came first stands first. -/
theorem pairwise_kinds_ofList (entities : List Entity) :
    (ofList entities).kinds.Pairwise fun earlier later =>
      (entities.map Entity.kind).idxOf earlier < (entities.map Entity.kind).idxOf later := by
  induction entities using List.reverseRecOn with
  | nil => exact .nil
  | append_singleton entities entity ih =>
    -- where a kind came first is not changed by what is registered later
    have hidx : ∀ kind ∈ (ofList entities).kinds,
        ((entities ++ [entity]).map Entity.kind).idxOf kind =
          (entities.map Entity.kind).idxOf kind := by
      intro kind hkind
      rw [List.map_append, List.idxOf_append_of_mem ((mem_kinds_ofList ..).1 hkind)]
    have hold : (ofList entities).kinds.Pairwise fun earlier later =>
        ((entities ++ [entity]).map Entity.kind).idxOf earlier <
          ((entities ++ [entity]).map Entity.kind).idxOf later := by
      refine ih.imp_of_mem fun hearlier hlater hlt => ?_
      rwa [hidx _ hearlier, hidx _ hlater]
    rw [ofList_concat, kinds_insert]
    split
    · exact hold
    · next hnew =>
      refine List.pairwise_append.2 ⟨hold, List.pairwise_singleton _ _, ?_⟩
      intro kind hkind other hother
      obtain rfl := List.mem_singleton.1 hother
      rw [mem_kinds_ofList] at hnew
      have hlt := List.idxOf_lt_length_of_mem ((mem_kinds_ofList ..).1 hkind)
      rw [hidx kind hkind, List.map_append, List.idxOf_append_of_notMem hnew]
      omega

end Catalog

/-! ### The menu of a chain -/

namespace Chain

theorem mem_addableKinds_iff (chain : Chain) (catalog : Catalog) (kind : String) :
    kind ∈ chain.addableKinds catalog ↔
      kind ∈ catalog.kinds ∧ chain.hops.getLast?.map Hop.kind ≠ some kind := by
  rw [addableKinds, List.mem_filter, decide_eq_true_eq]

/-- What the menu offers has an entity, so that it can be appended under an identifier that is not
used yet. -/
theorem exists_append_of_mem_addableKinds {chain : Chain} {catalog : Catalog} {kind : String}
    (h : kind ∈ chain.addableKinds catalog) {id : HopId} (hid : chain.hop? id = none) :
    ∃ entity, catalog.entity kind = .ok entity ∧ chain.append catalog kind id = .ok
      { hops := chain.hops ++ [⟨id, kind⟩]
        fields := chain.fields.insert id (.allIncluded entity.fields)
        filters := chain.filters.insert id (.blank entity.filters) } := by
  obtain ⟨entity, hentity⟩ := (catalog.exists_entity_iff kind).2 ((mem_addableKinds_iff ..).1 h).1
  refine ⟨entity, hentity, (append_eq_ok_iff ..).2 ⟨?_, entity, hentity, rfl⟩⟩
  exact (hop?_eq_none_iff ..).1 hid

end Chain

/-- Entities are registered one after the other, their kinds repeated in any order. Then the kinds
and the entries of the catalog are those of a list and a map kept apart. Each kind is listed once,
and of two kinds the one that came first stands first. Under a kind stands the last of its entities,
with its fields, its filters and its flag; a kind that never came is unknown, and no collection. What
the menu of a chain offers can be appended to the chain under every identifier that no hop has. -/
theorem Catalog.kinds_and_entries_ofList (entities : List Entity) :
    (ofList entities).parts = entities.foldl Parts.insert ⟨[], fun _ => none⟩ ∧
    (∀ kind, (ofList entities).kinds.count kind =
      if kind ∈ entities.map Entity.kind then 1 else 0) ∧
    ((ofList entities).kinds.Pairwise fun earlier later =>
      (entities.map Entity.kind).idxOf earlier < (entities.map Entity.kind).idxOf later) ∧
    (∀ kind entity, (ofList entities).entity kind = .ok entity ↔ IsLast entities kind entity) ∧
    (∀ kind error, (ofList entities).entity kind = .error error ↔
      kind ∉ entities.map Entity.kind ∧ error = .unknownKind kind) ∧
    (∀ kind entity, IsLast entities kind entity →
      (ofList entities).fields kind = .ok entity.fields ∧
      (ofList entities).filters kind = .ok entity.filters ∧
      (ofList entities).isCollection kind = entity.collection) ∧
    (∀ kind, kind ∉ entities.map Entity.kind →
      (ofList entities).fields kind = .error (.unknownKind kind) ∧
      (ofList entities).filters kind = .error (.unknownKind kind) ∧
      (ofList entities).isCollection kind = false) ∧
    (∀ kind, (ofList entities).contains kind = true ↔ kind ∈ entities.map Entity.kind) ∧
    ∀ (chain : Chain) (kind : String) (id : HopId), kind ∈ chain.addableKinds (ofList entities) →
      chain.hop? id = none → ∃ entity, IsLast entities kind entity ∧
        chain.append (ofList entities) kind id = .ok
          { hops := chain.hops ++ [⟨id, kind⟩]
            fields := chain.fields.insert id (.allIncluded entity.fields)
            filters := chain.filters.insert id (.blank entity.filters) } := by
  have herror : ∀ kind error, (ofList entities).entity kind = .error error ↔
      kind ∉ entities.map Entity.kind ∧ error = .unknownKind kind := by
    intro kind error
    rw [entity_eq_error_iff, mem_kinds_ofList]
  refine ⟨parts_ofList entities, fun kind => ?_, pairwise_kinds_ofList entities,
    entity_ofList_eq_ok_iff entities, herror, fun kind entity hlast => ?_, fun kind hkind => ?_,
    fun kind => ?_, fun chain kind id hkind hid => ?_⟩
  · have hnodup : (ofList entities).kinds.Nodup := (ofList entities).entities.nodup_keys
    rw [hnodup.count]
    simp only [mem_kinds_ofList]
  · have hentity := (entity_ofList_eq_ok_iff ..).2 hlast
    refine ⟨(fields_eq_ok_iff ..).2 ⟨entity, hentity, rfl⟩,
      (filters_eq_ok_iff ..).2 ⟨entity, hentity, rfl⟩, ?_⟩
    rw [isCollection, (entity_eq_ok_iff ..).1 hentity]
  · have hentity := (herror kind _).2 ⟨hkind, rfl⟩
    refine ⟨(map_eq_error_iff ..).2 hentity, (map_eq_error_iff ..).2 hentity, ?_⟩
    rw [← mem_kinds_ofList] at hkind
    rw [isCollection, (Table.get?_eq_none_iff ..).2 hkind]
  · rw [contains_eq_true_iff, mem_kinds_ofList]
  · obtain ⟨entity, hentity, happend⟩ := Chain.exists_append_of_mem_addableKinds hkind hid
    exact ⟨entity, (entity_ofList_eq_ok_iff ..).1 hentity, happend⟩

/-- A kind that is registered again is offered with the fields of its second entity. -/
theorem Catalog.kinds_and_entries_ofList_again :
    let entities : List Entity := [⟨"schools", ["id"], ["id"], true⟩, ⟨"groups", [], [], true⟩,
      ⟨"schools", ["name"], [], false⟩]
    "schools" ∈ Chain.empty.addableKinds (ofList entities) ∧ Chain.empty.hop? ⟨1⟩ = none ∧
      ∃ entity, IsLast entities "schools" entity ∧
        Chain.empty.append (ofList entities) "schools" ⟨1⟩ = .ok
          { hops := [⟨⟨1⟩, "schools"⟩]
            fields := Table.empty.insert ⟨1⟩ (.allIncluded entity.fields)
            filters := Table.empty.insert ⟨1⟩ (.blank entity.filters) } := by
  intro entities
  have hoffered : "schools" ∈ Chain.empty.addableKinds (ofList entities) := by decide
  obtain ⟨-, -, -, -, -, -, -, -, happend⟩ := kinds_and_entries_ofList entities
  exact ⟨hoffered, rfl, happend Chain.empty "schools" ⟨1⟩ hoffered rfl⟩

end HopQuery
