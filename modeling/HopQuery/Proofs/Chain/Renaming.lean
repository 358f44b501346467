import HopQuery.Proofs.Outcome
import HopQuery.Selection.Query
import Mathlib.Data.List.Nodup
import Mathlib.Logic.Equiv.Defs

/-!
# Chains under other identifiers

Identifiers tell hops apart and nothing else: whatever is done to a chain under other identifiers
has the same outcome, under the other identifiers.

* `Table.rename`, `Hop.rename`, `Chain.rename`, `Path.rename`, `ChainError.rename`,
  `QueryError.rename`: the same under other identifiers;
* `Chain.append_rename`, `remove_rename`, `toggleField_rename`, `setFilter_rename`: the changes;
* `Path.resolve_rename`, `Query.compile_rename`: the path and the query.
-/

namespace HopQuery

/-! ### Tables -/

namespace Table

variable {κ ν : Type}

theorem nodup_rename (σ : Equiv.Perm κ) (table : Table κ ν) :
    ((table.entries.map fun entry => (σ entry.1, entry.2)).map Prod.fst).Nodup := by
  rw [List.map_map]
  show (table.entries.map (σ ∘ Prod.fst)).Nodup
  rw [← List.map_map]
  exact table.nodup_keys.map σ.injective

/-- The table with other keys. -/
def rename (σ : Equiv.Perm κ) (table : Table κ ν) : Table κ ν :=
  ⟨table.entries.map fun entry => (σ entry.1, entry.2), table.nodup_rename σ⟩

variable [DecidableEq κ]

@[simp]
theorem get?_rename (σ : Equiv.Perm κ) (table : Table κ ν) (key : κ) :
    (table.rename σ).get? (σ key) = table.get? key := by
  show lookup (σ key) (table.entries.map _) = lookup key table.entries
  induction table.entries with
  | nil => rfl
  | cons entry rest ih => simp only [List.map_cons, lookup, ih, σ.apply_eq_iff_eq]

theorem insert_rename (σ : Equiv.Perm κ) (table : Table κ ν) (key : κ) (value : ν) :
    (table.rename σ).insert (σ key) value = (table.insert key value).rename σ := by
  refine Table.ext ?_
  show put (σ key) value (table.entries.map _) = (put key value table.entries).map _
  induction table.entries with
  | nil => rfl
  | cons entry rest ih =>
    simp only [List.map_cons, put, ih, σ.apply_eq_iff_eq]
    split <;> rfl

theorem erase_rename (σ : Equiv.Perm κ) (table : Table κ ν) (key : κ) :
    (table.rename σ).erase (σ key) = (table.erase key).rename σ := by
  refine Table.ext ?_
  simp [rename, erase, List.filter_map, Function.comp_def]

end Table

/-! ### Changes -/

variable (σ : Equiv.Perm HopId)

/-- The hop under another identifier. -/
def Hop.rename (hop : Hop) : Hop :=
  { hop with id := σ hop.id }

/-- The error with other identifiers. -/
def ChainError.rename : ChainError → ChainError
  | .unknownHop hop => .unknownHop (σ hop)
  | .duplicateHop hop => .duplicateHop (σ hop)
  | .unknownField hop field => .unknownField (σ hop) field
  | .unknownFilter hop filter => .unknownFilter (σ hop) filter
  | .tooLong max => .tooLong max
  | .catalog error => .catalog error

namespace Chain

/-- The chain with other identifiers. -/
def rename (chain : Chain) : Chain where
  hops := chain.hops.map (Hop.rename σ)
  fields := chain.fields.rename σ
  filters := chain.filters.rename σ

variable (chain : Chain) (id : HopId)

@[simp]
theorem hops_rename : (chain.rename σ).hops = chain.hops.map (Hop.rename σ) := rfl

@[simp]
theorem fields_rename : (chain.rename σ).fields = chain.fields.rename σ := rfl

@[simp]
theorem filters_rename : (chain.rename σ).filters = chain.filters.rename σ := rfl

theorem hop?_rename : (chain.rename σ).hop? (σ id) = (chain.hop? id).map (Hop.rename σ) := by
  have hsame : (fun hop : Hop => decide (hop.id = σ id)) ∘ Hop.rename σ =
      fun hop => decide (hop.id = id) := by
    funext hop
    simp [Hop.rename]
  rw [hop?, hops_rename, List.find?_map, hsame, hop?]

theorem append_rename (catalog : Catalog) (kind : String) :
    (chain.rename σ).append catalog kind (σ id) =
      mapBoth (ChainError.rename σ) (rename σ) (chain.append catalog kind id) := by
  unfold append
  rw [hop?_rename, Option.isSome_map]
  split
  · rfl
  · split
    · rfl
    · simp [mapBoth, rename, Hop.rename, Table.insert_rename]

theorem remove_rename : (chain.rename σ).remove (σ id) =
    mapBoth (ChainError.rename σ) (rename σ) (chain.remove id) := by
  unfold remove
  rw [hop?_rename, Option.isSome_map]
  split
  · simp [mapBoth, rename, Hop.rename, Table.erase_rename, List.filter_map, Function.comp_def]
  · rfl

theorem toggleField_rename (field : String) : (chain.rename σ).toggleField (σ id) field =
    mapBoth (ChainError.rename σ) (rename σ) (chain.toggleField id field) := by
  unfold toggleField
  rw [fields_rename, Table.get?_rename]
  split
  · rfl
  · split
    · rfl
    · simp [mapBoth, rename, Table.insert_rename]

theorem setFilter_rename (filter value : String) :
    (chain.rename σ).setFilter (σ id) filter value =
      mapBoth (ChainError.rename σ) (rename σ) (chain.setFilter id filter value) := by
  unfold setFilter
  rw [filters_rename, Table.get?_rename]
  split
  · rfl
  · split
    · rfl
    · simp [mapBoth, rename, Table.insert_rename]

end Chain

/-! ### Paths and queries -/

/-- The segment with another identifier. -/
def Segment.rename (segment : Segment) : Segment :=
  { segment with hop := σ segment.hop }

namespace Path

/-- The path with other identifiers. -/
def rename (path : Path) : Path :=
  ⟨path.segments.map (Segment.rename σ)⟩

@[simp]
theorem segments_rename (path : Path) :
    (path.rename σ).segments = path.segments.map (Segment.rename σ) := rfl

variable (rules : Rules)

theorem resolveAfter_rename (previous : String) (hops : List Hop) :
    resolveAfter rules previous (hops.map (Hop.rename σ)) =
      (resolveAfter rules previous hops).map (Segment.rename σ) := by
  induction hops generalizing previous with
  | nil => rfl
  | cons hop hops ih =>
    simp only [List.map_cons, resolveAfter, ih]
    rfl

theorem resolve_rename (hops : List Hop) :
    resolve rules (hops.map (Hop.rename σ)) = (resolve rules hops).rename σ := by
  cases hops with
  | nil => rfl
  | cons hop hops =>
    simp only [List.map_cons, resolve, rename]
    rw [← resolveAfter_rename]
    rfl

end Path

theorem Chain.path_rename (chain : Chain) (rules : Rules) :
    (chain.rename σ).path rules = (chain.path rules).rename σ :=
  Path.resolve_rename σ rules chain.hops

/-- The error with another identifier. -/
def QueryError.rename : QueryError → QueryError
  | .emptyChain => .emptyChain
  | .missingChoices hop => .missingChoices (σ hop)

namespace Level

variable (chain : Chain)

theorem ofHop_rename (hop : Hop) (typeName : String) :
    ofHop (chain.rename σ) (hop.rename σ) typeName =
      mapBoth (QueryError.rename σ) id (ofHop chain hop typeName) := by
  simp only [ofHop, Hop.rename, Chain.fields_rename, Chain.filters_rename, Table.get?_rename]
  split <;> rfl

theorem ofHops_rename (hops : List Hop) (segments : List Segment) :
    ofHops (chain.rename σ) (hops.map (Hop.rename σ)) (segments.map (Segment.rename σ)) =
      mapBoth (QueryError.rename σ) id (ofHops chain hops segments) := by
  induction hops generalizing segments with
  | nil => rfl
  | cons hop hops ih =>
    cases segments with
    | nil => rfl
    | cons segment segments =>
      simp only [List.map_cons, ofHops, ih]
      rw [show (segment.rename σ).typeName = segment.typeName from rfl, ofHop_rename]
      cases ofHop chain hop segment.typeName with
      | error error => rfl
      | ok level => cases ofHops chain hops segments <;> rfl

end Level

theorem Selection.ofChain_rename (chain : Chain) (path : Path) :
    ofChain (chain.rename σ) (path.rename σ) =
      mapBoth (QueryError.rename σ) id (ofChain chain path) := by
  unfold ofChain
  rw [Chain.hops_rename, Path.segments_rename, Level.ofHops_rename]
  cases Level.ofHops chain chain.hops path.segments with
  | error error => rfl
  | ok levels =>
    simp only [mapBoth, id, bind, Except.bind]
    cases ofLevels? levels <;> rfl

namespace Query

variable (chain : Chain) (rules : Rules)

/-- A query and its path, with other identifiers in the path: the text of a query has none. -/
def renameWithPath (result : Query × Path) : Query × Path :=
  (result.1, result.2.rename σ)

theorem compileWithPath_rename : compileWithPath (chain.rename σ) rules =
    mapBoth (QueryError.rename σ) (renameWithPath σ) (compileWithPath chain rules) := by
  unfold compileWithPath
  simp only [Chain.hops_rename, List.isEmpty_map, Chain.path_rename, Selection.ofChain_rename]
  cases chain.hops.isEmpty with
  | true => rfl
  | false => cases Selection.ofChain chain (chain.path rules) <;> rfl

theorem compile_rename : compile (chain.rename σ) rules =
    mapBoth (QueryError.rename σ) id (compile chain rules) := by
  unfold compile
  rw [compileWithPath_rename]
  cases compileWithPath chain rules <;> rfl

end Query

end HopQuery
