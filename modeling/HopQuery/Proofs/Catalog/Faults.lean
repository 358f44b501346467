import HopQuery.Proofs.Catalog.Listing
import HopQuery.Proofs.Text.Name
import Mathlib.Data.List.Infix

/-!
# The first fault of a listing

The names of a listing in the order in which they are checked, each with what it must not repeat. The
error of a check is that of the first name that is at fault, and a listing without fault loses nothing
when it is made into a catalog.

* `Listing.Mention`, `Listing.mentions`: the names of a listing, entry by entry, the kind first, then
  the fields and then the filters from left to right;
* `Mention.fault?`, `firstFault`: what is wrong with one name, and with the first of several;
* `check_eq_firstFault`: what a check reports;
* `Catalog.entries_ofList`: what the catalog of different kinds holds;
* `check_and_toCatalog`: which listings pass, what the others are told, and what becomes of the first.
-/

namespace HopQuery

/-! ### Names in order -/

namespace Listing

/-- A name as it is listed. -/
structure Mention where
  name : String
  /-- What the name stands for. -/
  role : String
  /-- The names before it that it must not repeat. -/
  earlier : List String
  /-- The error if it does. -/
  duplicate : CatalogError

/-- What is wrong with the name: first its grammar counts, then whether it is repeated. -/
def Mention.fault? (mention : Mention) : Option CatalogError :=
  if Text.isName mention.name = false then some (.invalidName mention.name mention.role)
  else if mention.name ∈ mention.earlier then some mention.duplicate
  else none

/-- The names of a list from left to right. -/
def row (role : String) (duplicate : String → CatalogError) (names : List String) : List Mention :=
  (names.inits.zip names).map fun (before, name) => ⟨name, role, before, duplicate name⟩

/-- The names of an entry, given the kinds before it. -/
def Entry.mentions (kinds : List String) (entry : Entry) : List Mention :=
  ⟨entry.kind, "entity kind", kinds, .duplicateKind entry.kind⟩ ::
    (row "field" (.duplicateField entry.kind) entry.fields ++
      row "filter" (.duplicateFilter entry.kind) (entry.filters.getD []))

/-- The names of a listing. -/
def mentions (listing : Listing) : List Mention :=
  (listing.entities.inits.zip listing.entities).flatMap fun (before, entry) =>
    entry.mentions (before.map Entry.kind)

/-! ### The first fault -/

/-- The first fault of the names. -/
def firstFault (mentions : List Mention) : Except CatalogError Unit :=
  match mentions.findSome? Mention.fault? with
  | none => .ok ()
  | some error => .error error

theorem firstFault_append (before after : List Mention) :
    firstFault (before ++ after) = firstFault before >>= fun _ => firstFault after := by
  rw [firstFault, firstFault, List.findSome?_append]
  cases before.findSome? Mention.fault? <;> rfl

theorem firstFault_cons (mention : Mention) (rest : List Mention) :
    firstFault (mention :: rest) = (do
      checkName mention.name mention.role
      if mention.name ∈ mention.earlier then throw mention.duplicate
      firstFault rest) := by
  rw [firstFault, List.findSome?_cons, Mention.fault?, checkName]
  by_cases hname : Text.isName mention.name = true
  · by_cases hearlier : mention.name ∈ mention.earlier <;>
      simp [hname, hearlier, bind, Except.bind, throw, throwThe, MonadExceptOf.throw, firstFault]
  · simp [hname, bind, Except.bind]

/-- The names that were seen are looked up in any order. -/
theorem checkNames_eq_firstFault (role : String) (duplicate : String → CatalogError)
    {seen earlier : List String} (h : ∀ name, name ∈ seen ↔ name ∈ earlier) (names : List String) :
    checkNames role duplicate seen names = firstFault ((names.inits.zip names).map
      fun (before, name) => ⟨name, role, earlier ++ before, duplicate name⟩) := by
  induction names generalizing seen earlier with
  | nil => rfl
  | cons name rest ih =>
    have hnext : ∀ other, other ∈ name :: seen ↔ other ∈ earlier ++ [name] := by
      intro other
      rw [List.mem_cons, List.mem_append, List.mem_singleton, h, or_comm]
    rw [checkNames, List.inits_cons, List.zip_cons_cons, List.zip_map_left, List.map_cons,
      firstFault_cons, ih hnext, List.map_map]
    simp [h, Function.comp_def]

theorem Entry.check_eq_firstFault {seen kinds : List String} (h : ∀ kind, kind ∈ seen ↔ kind ∈ kinds)
    (entry : Entry) : entry.check seen = firstFault (entry.mentions kinds) := by
  have hnames : ∀ role duplicate names,
      checkNames role duplicate [] names = firstFault (row role duplicate names) :=
    fun _ _ _ => checkNames_eq_firstFault _ _ (fun _ => Iff.rfl) _
  rw [check, mentions, firstFault_cons, firstFault_append, hnames, hnames]
  simp [h]

theorem checkEntries_eq_firstFault {seen kinds : List String}
    (h : ∀ kind, kind ∈ seen ↔ kind ∈ kinds) (entries : List Entry) :
    checkEntries seen entries = firstFault ((entries.inits.zip entries).flatMap
      fun (before, entry) => entry.mentions (kinds ++ before.map Entry.kind)) := by
  induction entries generalizing seen kinds with
  | nil => rfl
  | cons entry rest ih =>
    have hnext : ∀ other, other ∈ entry.kind :: seen ↔ other ∈ kinds ++ [entry.kind] := by
      intro other
      rw [List.mem_cons, List.mem_append, List.mem_singleton, h, or_comm]
    rw [checkEntries, List.inits_cons, List.zip_cons_cons, List.zip_map_left, List.flatMap_cons,
      firstFault_append, Entry.check_eq_firstFault h, ih hnext, List.flatMap_map]
    simp

/-- A check reports the first fault. -/
theorem check_eq_firstFault (listing : Listing) : listing.check = firstFault listing.mentions := by
  have hkinds : ∀ kind : String, kind ∈ [] ↔ kind ∈ [] := fun _ => Iff.rfl
  exact checkEntries_eq_firstFault hkinds listing.entities

theorem firstFault_eq_error_iff (mentions : List Mention) (error : CatalogError) :
    firstFault mentions = .error error ↔ ∃ before mention after,
      mentions = before ++ mention :: after ∧ mention.fault? = some error ∧
      ∀ earlier ∈ before, earlier.fault? = none := by
  rw [← List.findSome?_eq_some_iff, firstFault]
  cases mentions.findSome? Mention.fault? <;> simp

theorem check_eq_ok_iff (listing : Listing) : listing.check = .ok () ↔
    (∀ entry ∈ listing.entities, entry.Sound) ∧ (listing.entities.map Entry.kind).Nodup := by
  rw [check, checkEntries_eq_ok_iff]
  simp

end Listing

/-! ### Nothing is lost -/

namespace Catalog

theorem entries_insert_of_not_mem {catalog : Catalog} {entity : Entity}
    (h : entity.kind ∉ catalog.kinds) : (catalog.insert entity).entities.entries =
      catalog.entities.entries ++ [(entity.kind, entity)] :=
  Table.put_of_not_mem h entity

/-- Entities of different kinds are all in the catalog that is made of them, in their order. -/
theorem entries_ofList {entities : List Entity} (h : (entities.map Entity.kind).Nodup) :
    (ofList entities).entities.entries = entities.map fun entity => (entity.kind, entity) := by
  induction entities using List.reverseRecOn with
  | nil => rfl
  | append_singleton entities entity ih =>
    rw [List.map_append, List.nodup_append] at h
    obtain ⟨hnodup, -, hnew⟩ := h
    have hkinds : (ofList entities).kinds = entities.map Entity.kind := by
      rw [kinds, Table.keys, ih hnodup, List.map_map]
      rfl
    have hkind : entity.kind ∉ (ofList entities).kinds := by
      rw [hkinds]
      exact fun hmem => hnew _ hmem _ (by simp) rfl
    rw [ofList_concat, entries_insert_of_not_mem hkind, ih hnodup, List.map_append]
    rfl

end Catalog

namespace Listing

theorem toCatalog_eq_ok_iff (listing : Listing) (catalog : Catalog) :
    listing.toCatalog = .ok catalog ↔
      listing.check = .ok () ∧ catalog = .ofList (listing.entities.map Entry.entity) := by
  rw [toCatalog, seq_eq_ok_iff]
  exact and_congr_right fun _ => ⟨fun h => (Except.ok.inj h).symm, fun h => congrArg _ h.symm⟩

/-- A listing is checked from its first name to its last, and the error is that of the first name at
fault. There is none exactly if all kinds, fields and filters follow the grammar of names, the kinds
are different, and so are the fields and the filters of each entry. Then, and only then, there is a
catalog of the listing: it has the kinds of the listing in their order, and for each of them what is
listed with it, with the fields for filters where none are listed. -/
theorem check_and_toCatalog (listing : Listing) :
    (∀ name, Text.isName name = true ↔ ∃ c rest, name.toList = c :: rest ∧
      (c = '_' ∨ Text.IsLetter c) ∧ ∀ d ∈ rest, d = '_' ∨ Text.IsLetter d ∨ Text.IsDigit d) ∧
    (listing.check = .ok () ↔
      (∀ entry ∈ listing.entities, entry.Sound) ∧ (listing.entities.map Entry.kind).Nodup) ∧
    (∀ error, listing.check = .error error ↔ ∃ before mention after,
      listing.mentions = before ++ mention :: after ∧ mention.fault? = some error ∧
      ∀ earlier ∈ before, earlier.fault? = none) ∧
    (∀ error, listing.toCatalog = .error error ↔ listing.check = .error error) ∧
    (listing.check = .ok () → ∃ catalog, listing.toCatalog = .ok catalog ∧
      catalog.kinds = listing.entities.map Entry.kind ∧
      catalog.toList = listing.entities.map Entry.entity ∧
      ∀ entry ∈ listing.entities, catalog.entity entry.kind = .ok
        { kind := entry.kind
          fields := entry.fields
          filters := entry.filters.getD entry.fields
          collection := entry.collection }) := by
  refine ⟨Text.isName_iff_grammar, listing.check_eq_ok_iff, fun error => ?_, fun error => ?_,
    fun hcheck => ?_⟩
  · rw [check_eq_firstFault, firstFault_eq_error_iff]
  · exact bind_pure_eq_error_iff (f := fun _ => Catalog.ofList (listing.entities.map Entry.entity)) ..
  have hkinds : (listing.entities.map Entry.entity).map Entity.kind =
      listing.entities.map Entry.kind := by
    rw [List.map_map]
    rfl
  have hentries := Catalog.entries_ofList (hkinds ▸ ((listing.check_eq_ok_iff).1 hcheck).2)
  refine ⟨_, (toCatalog_eq_ok_iff ..).2 ⟨hcheck, rfl⟩, ?_, ?_, fun entry hentry => ?_⟩
  · rw [Catalog.kinds, Table.keys, hentries, List.map_map, ← hkinds]
    rfl
  · rw [Catalog.toList, hentries, List.map_map]
    exact List.map_id _
  · have hfound : (Catalog.ofList (listing.entities.map Entry.entity)).entities.get? entry.kind =
        some entry.entity := by
      rw [Table.get?_eq_some_iff, hentries]
      exact List.mem_map_of_mem (f := fun entity : Entity => (entity.kind, entity))
        (List.mem_map_of_mem hentry)
    rw [Catalog.entity, hfound]
    rfl

/-- The line break at the end of a field counts before the kind that comes again behind it. -/
example : (⟨[⟨"schools", ["id\n"], none, false⟩, ⟨"schools", [], none, false⟩]⟩ : Listing).check =
    .error (.invalidName "id\n" "field") := by
  decide +kernel

end Listing

end HopQuery
