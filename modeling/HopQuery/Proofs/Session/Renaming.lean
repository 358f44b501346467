import HopQuery.Proofs.Chain.Renaming
import HopQuery.Proofs.Session.Operation

/-!
# Sessions under other identifiers

An operation on a session, with other identifiers in both, has the outcome with the other
identifiers, and what is shown is the same.

* `Operation.rename`, `Failure.rename`, `Session.rename`: the same under other identifiers;
* `Session.perform_rename`: every operation;
* `Session.path_rename`, `Session.render_rename`: the path and what is shown.
-/

namespace HopQuery

variable (σ : Equiv.Perm HopId)

/-- The operation on the hop with the other identifier. -/
def Operation.rename : Operation → Operation
  | .addHop kind id => .addHop kind (σ id)
  | .removeHop id => .removeHop (σ id)
  | .toggleField id field => .toggleField (σ id) field
  | .setFilter id filter value => .setFilter (σ id) filter value
  | .selectHop id => .selectHop (σ id)
  | .toggleMode => .toggleMode
  | .search => .search
  | .record fetch => .record fetch
  | .run answer => .run answer

/-- The failure with other identifiers. -/
def Failure.rename : Failure → Failure
  | .chain error => .chain (error.rename σ)
  | .query error => .query (error.rename σ)

namespace Session

/-- The session with other identifiers. -/
def rename (s : Session) : Session :=
  { s with chain := s.chain.rename σ, selected := s.selected.map σ }

section Fields

variable (s : Session)

@[simp] theorem catalog_rename : (s.rename σ).catalog = s.catalog := rfl
@[simp] theorem rules_rename : (s.rename σ).rules = s.rules := rfl
@[simp] theorem maxHops_rename : (s.rename σ).maxHops = s.maxHops := rfl
@[simp] theorem chain_rename : (s.rename σ).chain = s.chain.rename σ := rfl
@[simp] theorem selected_rename : (s.rename σ).selected = s.selected.map σ := rfl
@[simp] theorem mode_rename : (s.rename σ).mode = s.mode := rfl
@[simp] theorem compiled_rename : (s.rename σ).compiled = s.compiled := rfl
@[simp] theorem fetch_rename : (s.rename σ).fetch = s.fetch := rfl

end Fields

variable (s : Session)

/-! ### Operations -/

theorem addHop_rename (kind : String) (id : HopId) : (s.rename σ).addHop kind (σ id) =
    mapBoth (ChainError.rename σ) (rename σ) (s.addHop kind id) := by
  unfold addHop
  rw [chain_rename, Chain.hops_rename, List.length_map, maxHops_rename, catalog_rename,
    Chain.append_rename]
  split
  · rfl
  · cases s.chain.append s.catalog kind id <;> rfl

/-- An identifier is the selected one if it was before both were renamed. -/
theorem map_eq_some_apply_iff (id : HopId) (selected : Option HopId) :
    selected.map σ = some (σ id) ↔ selected = some id := by
  cases selected <;> simp

theorem removeHop_rename (id : HopId) : (s.rename σ).removeHop (σ id) =
    mapBoth (ChainError.rename σ) (rename σ) (s.removeHop id) := by
  unfold removeHop
  simp only [chain_rename, Chain.remove_rename, selected_rename, map_eq_some_apply_iff]
  cases s.chain.remove id with
  | error error => rfl
  | ok chain =>
    by_cases h : s.selected = some id <;>
      simp [mapBoth, bind, Except.bind, pure, Except.pure, rename, invalidate, h]

theorem toggleField_rename (id : HopId) (field : String) :
    (s.rename σ).toggleField (σ id) field =
      mapBoth (ChainError.rename σ) (rename σ) (s.toggleField id field) := by
  unfold toggleField
  rw [chain_rename, Chain.toggleField_rename]
  cases s.chain.toggleField id field <;> rfl

theorem setFilter_rename (id : HopId) (filter value : String) :
    (s.rename σ).setFilter (σ id) filter value =
      mapBoth (ChainError.rename σ) (rename σ) (s.setFilter id filter value) := by
  unfold setFilter
  rw [chain_rename, Chain.setFilter_rename]
  cases s.chain.setFilter id filter value <;> rfl

theorem selectHop_rename (id : HopId) : (s.rename σ).selectHop (σ id) =
    mapBoth (ChainError.rename σ) (rename σ) (s.selectHop id) := by
  unfold selectHop
  simp only [chain_rename, Chain.hop?_rename, Option.isSome_map, selected_rename,
    map_eq_some_apply_iff]
  split
  · by_cases h : s.selected = some id <;> simp [mapBoth, rename, h]
  · rfl

theorem search_rename : (s.rename σ).search =
    mapBoth (QueryError.rename σ) (Prod.map id (rename σ)) s.search := by
  unfold search
  rw [chain_rename, rules_rename, Query.compile_rename]
  cases Query.compile s.chain s.rules <;> rfl

theorem run_rename (answer : Query → Fetch) : (s.rename σ).run answer =
    mapBoth (QueryError.rename σ) (rename σ) (s.run answer) := by
  unfold run
  rw [search_rename]
  cases s.search <;> rfl

/-- An operation has the same outcome under other identifiers. -/
theorem perform_rename (op : Operation) : (s.rename σ).perform (op.rename σ) =
    mapBoth (Failure.rename σ) (rename σ) (s.perform op) := by
  have hchain : ∀ x : Except ChainError Session,
      (mapBoth (ChainError.rename σ) (rename σ) x).mapError .chain =
        mapBoth (Failure.rename σ) (rename σ) (x.mapError .chain) :=
    mapError_mapBoth fun _ => rfl
  have hquery : ∀ x : Except QueryError Session,
      (mapBoth (QueryError.rename σ) (rename σ) x).mapError .query =
        mapBoth (Failure.rename σ) (rename σ) (x.mapError .query) :=
    mapError_mapBoth fun _ => rfl
  cases op with
  | addHop kind id => rw [Operation.rename, perform, addHop_rename, hchain, perform]
  | removeHop id => rw [Operation.rename, perform, removeHop_rename, hchain, perform]
  | toggleField id field => rw [Operation.rename, perform, toggleField_rename, hchain, perform]
  | setFilter id filter value =>
    rw [Operation.rename, perform, setFilter_rename, hchain, perform]
  | selectHop id => rw [Operation.rename, perform, selectHop_rename, hchain, perform]
  | toggleMode => rfl
  | search =>
    rw [Operation.rename, perform, search_rename, perform, ← hquery]
    cases s.search <;> rfl
  | record fetch => rfl
  | run answer => rw [Operation.rename, perform, run_rename, hquery, perform]

/-! ### What is shown -/

theorem path_rename : (s.rename σ).path = s.path.rename σ :=
  s.chain.path_rename σ s.rules

end Session

theorem walk_rename (catalog : Catalog) (values : List Json) (segments : List Segment) :
    walk catalog values (segments.map (Segment.rename σ)) = walk catalog values segments :=
  List.foldl_map

/-- What is shown of data goes by the types of a path alone. -/
theorem Json.render_rename (data : Json) (path : Path) (mode : ShapeMode) (catalog : Catalog) :
    data.render (path.rename σ) mode catalog = data.render path mode catalog := by
  obtain ⟨segments⟩ := path
  cases segments with
  | nil => rfl
  | cons root rest =>
    cases mode with
    | flat =>
      have hleaves : (Path.rename σ ⟨root :: rest⟩).leaves catalog data =
          Path.leaves ⟨root :: rest⟩ catalog data :=
        congrArg dedupe (walk_rename σ catalog (rootElements (data.get? root.typeName)) rest)
      simp only [Json.render, hleaves]
      rfl
    | nested => rfl

theorem Fetch.render_rename (fetch : Fetch) (path : Path) (mode : ShapeMode) (catalog : Catalog) :
    fetch.render (path.rename σ) mode catalog = fetch.render path mode catalog := by
  cases fetch with
  | ready data => exact data.render_rename σ path mode catalog
  | _ => rfl

theorem Session.render_rename (s : Session) : (s.rename σ).render = s.render := by
  unfold render
  rw [compiled_rename, fetch_rename, path_rename, mode_rename, catalog_rename,
    Fetch.render_rename]

end HopQuery
