import HopQuery.Proofs.Chain.Stage
import HopQuery.Proofs.Selection.Levels

/-!
# The levels of a row of stages

Where a chain consists of stages, its query has one level per stage, made of the choices of that
stage and of the type at its place in the path.

* `FieldSelection.included_map`, `FilterValues.active_map`: what choices made for all names tell;
* `Level.ofStage`: the level of a stage;
* `Consists.levels_eq`: the levels of a selection, stage by stage.
-/

namespace HopQuery

theorem FieldSelection.included_map (fields : List String) (included : String → Bool) :
    FieldSelection.included ⟨fields.map fun field => (field, included field)⟩ =
      fields.filter included := by
  rw [FieldSelection.included, List.filterMap_map, ← List.filterMap_eq_filter]
  rfl

theorem FilterValues.active_map (filters : List String) (value : String → String) :
    FilterValues.active ⟨filters.map fun filter => (filter, value filter)⟩ =
      filters.filterMap fun filter => if value filter = "" then none else some (filter, value filter) := by
  rw [FilterValues.active, ← List.filterMap_eq_filter, List.filterMap_map]
  refine List.filterMap_congr fun filter _ => ?_
  by_cases h : value filter = "" <;> simp [h, Option.guard]

/-- The level of a stage, written as the type of the segment. -/
def Level.ofStage (s : Stage) (segment : Segment) : Level :=
  ⟨segment.typeName, s.values.active, s.selection.included⟩

/-- The levels of hops whose choices are found in the chain. -/
theorem Level.ofHops_map_hop {chain : Chain} {stages : List Stage}
    (h : ∀ s ∈ stages, chain.fields.get? s.id = some s.selection ∧
      chain.filters.get? s.id = some s.values) (segments : List Segment) :
    Level.ofHops chain (stages.map Stage.hop) segments =
      .ok (List.zipWith Level.ofStage stages segments) := by
  induction stages generalizing segments with
  | nil => rfl
  | cons s stages ih =>
    cases segments with
    | nil => rfl
    | cons segment segments =>
      obtain ⟨⟨hfields, hfilters⟩, hstages⟩ := List.forall_mem_cons.1 h
      have hlevel : Level.ofHop chain s.hop segment.typeName = .ok (Level.ofStage s segment) :=
        (Level.ofHop_eq_ok_iff ..).2 ⟨_, _, hfields, hfilters, rfl⟩
      exact (Level.ofHops_cons_eq_ok_iff ..).2 ⟨_, _, hlevel, ih hstages segments, rfl⟩

namespace Chain.Consists

variable {chain : Chain} {stages : List Stage}

/-- A selection along a path has the levels of the stages with the types of the path. -/
theorem levels_eq (h : chain.Consists stages) {path : Path} {selection : Selection}
    (hselection : Selection.ofChain chain path = .ok selection) :
    selection.levels = List.zipWith Level.ofStage stages path.segments := by
  obtain ⟨levels, hlevels, hlevels'⟩ := (Selection.ofChain_eq_ok_iff ..).1 hselection
  rw [h.hops_eq, Level.ofHops_map_hop fun s hs => ⟨h.get?_fields hs, h.get?_filters hs⟩] at hlevels
  cases hlevels
  exact Selection.levels_of_ofLevels? hlevels'

/-- Each stage has a level along the path of the chain, with the type at its place. -/
theorem exists_getElem?_levels (h : chain.Consists stages) {rules : Rules} {selection : Selection}
    (hselection : Selection.ofChain chain (chain.path rules) = .ok selection) {index : Nat}
    {s : Stage} (hs : stages[index]? = some s) :
    ∃ segment, (chain.path rules).segments[index]? = some segment ∧
      selection.levels[index]? = some (Level.ofStage s segment) := by
  have hlength : (chain.path rules).segments.length = stages.length := by
    rw [path, Path.length_resolve, h.hops_eq, List.length_map]
  have hindex : index < (chain.path rules).segments.length := by
    rw [hlength]
    exact (List.getElem?_eq_some_iff.1 hs).1
  refine ⟨(chain.path rules).segments[index], List.getElem?_eq_getElem hindex, ?_⟩
  rw [h.levels_eq hselection, List.getElem?_zipWith, hs, List.getElem?_eq_getElem hindex]

end Chain.Consists

end HopQuery
