import HopQuery.Catalog.Listing
import HopQuery.Proofs.Outcome
import Mathlib.Data.List.Nodup

/-!
# Checked listings

What a listing without fault is, and what is found in the catalog that is made of it.

* `Listing.Entry.Sound`: an entry without fault of its own;
* `checkNames_eq_ok_iff`, `Entry.check_eq_ok_iff`, `checkEntries_eq_ok_iff`: when the check finds no
  fault;
* `Entity.Named`, `Catalog.Named`: kinds, fields and filters are names;
* `Catalog.Named.school`, `Catalog.named_of_toCatalog`: so it is in the school catalog and in every
  catalog of a listing.
-/

namespace HopQuery

namespace Listing

theorem checkName_eq_ok_iff (name role : String) :
    checkName name role = .ok () ↔ Text.isName name = true := by
  unfold checkName
  split
  · next h => simp [h]
  · next h => simp [h]

theorem checkNames_eq_ok_iff (role : String) (duplicate : String → CatalogError)
    (seen names : List String) : checkNames role duplicate seen names = .ok () ↔
      (∀ name ∈ names, Text.isName name = true) ∧ names.Nodup ∧ ∀ name ∈ names, name ∉ seen := by
  induction names generalizing seen with
  | nil => simp [checkNames]
  | cons name rest ih =>
    rw [checkNames, seq_eq_ok_iff, checkName_eq_ok_iff, ite_throw_eq_ok_iff, ih]
    rw [List.forall_mem_cons, List.forall_mem_cons, List.nodup_cons]
    simp only [List.mem_cons, not_or]
    constructor
    · rintro ⟨hname, hseen, hnames, hnodup, hrest⟩
      exact ⟨⟨hname, hnames⟩, ⟨fun h => (hrest name h).1 rfl, hnodup⟩, hseen,
        fun other h => (hrest other h).2⟩
    · rintro ⟨⟨hname, hnames⟩, ⟨hnot, hnodup⟩, hseen, hrest⟩
      refine ⟨hname, hseen, hnames, hnodup, fun other h => ⟨?_, hrest other h⟩⟩
      rintro rfl
      exact hnot h

/-- The kind, the fields and the filters of an entry follow the grammar, and among the fields none
occurs twice, nor among the filters. -/
structure Entry.Sound (entry : Entry) : Prop where
  kind : Text.isName entry.kind = true
  fields : ∀ field ∈ entry.fields, Text.isName field = true
  nodup_fields : entry.fields.Nodup
  filters : ∀ filter ∈ entry.filters.getD [], Text.isName filter = true
  nodup_filters : (entry.filters.getD []).Nodup

theorem Entry.check_eq_ok_iff (seen : List String) (entry : Entry) :
    entry.check seen = .ok () ↔ entry.Sound ∧ entry.kind ∉ seen := by
  rw [check, seq_eq_ok_iff, checkName_eq_ok_iff, ite_throw_eq_ok_iff, seq_eq_ok_iff,
    checkNames_eq_ok_iff, checkNames_eq_ok_iff]
  constructor
  · rintro ⟨hkind, hseen, ⟨hfields, hnodup, -⟩, hfilters, hnodup', -⟩
    exact ⟨⟨hkind, hfields, hnodup, hfilters, hnodup'⟩, hseen⟩
  · rintro ⟨⟨hkind, hfields, hnodup, hfilters, hnodup'⟩, hseen⟩
    exact ⟨hkind, hseen, ⟨hfields, hnodup, by simp⟩, hfilters, hnodup', by simp⟩

/-- The entries have no fault of their own, and their kinds occur once. -/
theorem checkEntries_eq_ok_iff (seen : List String) (entries : List Entry) :
    checkEntries seen entries = .ok () ↔ (∀ entry ∈ entries, entry.Sound) ∧
      (entries.map Entry.kind).Nodup ∧ ∀ entry ∈ entries, entry.kind ∉ seen := by
  induction entries generalizing seen with
  | nil => simp [checkEntries]
  | cons entry rest ih =>
    rw [checkEntries, seq_eq_ok_iff, Entry.check_eq_ok_iff, ih]
    rw [List.forall_mem_cons, List.forall_mem_cons, List.map_cons, List.nodup_cons]
    simp only [List.mem_cons, not_or]
    constructor
    · rintro ⟨⟨hsound, hseen⟩, hsounds, hnodup, hrest⟩
      refine ⟨⟨hsound, hsounds⟩, ⟨fun h => ?_, hnodup⟩, hseen, fun other h => (hrest other h).2⟩
      obtain ⟨other, hother, heq⟩ := List.mem_map.1 h
      exact (hrest other hother).1 heq
    · rintro ⟨⟨hsound, hsounds⟩, ⟨hnot, hnodup⟩, hseen, hrest⟩
      refine ⟨⟨hsound, hseen⟩, hsounds, hnodup, fun other h => ⟨fun heq => hnot ?_, hrest other h⟩⟩
      exact heq ▸ List.mem_map_of_mem h

end Listing

/-! ### Catalogs of names -/

/-- The kind, the fields and the filters are names. -/
structure Entity.Named (entity : Entity) : Prop where
  kind : Text.isName entity.kind = true
  fields : ∀ field ∈ entity.fields, Text.isName field = true
  filters : ∀ filter ∈ entity.filters, Text.isName filter = true

instance Entity.decidableNamed (entity : Entity) : Decidable entity.Named :=
  decidable_of_iff (Text.isName entity.kind = true ∧
      (∀ field ∈ entity.fields, Text.isName field = true) ∧
      ∀ filter ∈ entity.filters, Text.isName filter = true)
    ⟨fun ⟨h1, h2, h3⟩ => ⟨h1, h2, h3⟩, fun h => ⟨h.kind, h.fields, h.filters⟩⟩

/-- An entry without fault is made into an entity of names: without a list of filters the fields
take their place. -/
theorem Listing.Entry.Sound.named {entry : Listing.Entry} (h : entry.Sound) :
    entry.entity.Named where
  kind := h.kind
  fields := h.fields
  filters := by
    have hfilters := h.filters
    unfold Entry.entity
    cases hlisted : entry.filters with
    | none => exact h.fields
    | some filters => rwa [hlisted] at hfilters

namespace Catalog

/-- What is found under a kind is of that kind, and made of names. -/
def Named (catalog : Catalog) : Prop :=
  ∀ kind entity, catalog.entities.get? kind = some entity → entity.kind = kind ∧ entity.Named

namespace Named

theorem empty : Catalog.empty.Named := by
  intro kind entity h
  cases h

variable {catalog : Catalog}

theorem insert (h : catalog.Named) {entity : Entity} (hentity : entity.Named) :
    (catalog.insert entity).Named := by
  intro kind other hget
  rw [Catalog.get?_insert] at hget
  split at hget
  · next hkind =>
    cases hget
    exact ⟨hkind, hentity⟩
  · exact h kind other hget

theorem ofList {entities : List Entity} (h : ∀ entity ∈ entities, entity.Named) :
    (Catalog.ofList entities).Named :=
  List.foldlRecOn _ _ empty fun _ hcatalog entity hmem => hcatalog.insert (h entity hmem)

theorem school : Catalog.school.Named :=
  ofList (by decide +kernel)

end Named

/-- The catalog of a listing is made of names. -/
theorem named_of_toCatalog {listing : Listing} {catalog : Catalog}
    (h : listing.toCatalog = .ok catalog) : catalog.Named := by
  obtain ⟨hcheck, heq⟩ := (seq_eq_ok_iff ..).1 h
  cases heq
  obtain ⟨hsound, -, -⟩ := (Listing.checkEntries_eq_ok_iff [] listing.entities).1 hcheck
  refine Named.ofList fun entity hentity => ?_
  obtain ⟨entry, hentry, rfl⟩ := List.mem_map.1 hentity
  exact (hsound entry hentry).named

end Catalog

end HopQuery
