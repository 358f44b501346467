import HopQuery.Shape.Flat
import Mathlib.Algebra.Ring.Nat
import Mathlib.Data.List.Lex
import Mathlib.Data.List.Flatten

/-!
# The walk, branch by branch

The flat view goes down level by level: for each segment it takes all values of one level to all
values of the next. That comes to the same as going down from each value on its own, all the way to
the leaves, so the leaves stand in the order of the document.

* `Json.descend`: the descent from one value;
* `walk_eq_flatMap_descend`: the walk is the descent from each element;
* `Json.Reaches`: a value leads to a leaf at a position, which tells the items that were taken;
* `spread`, `Json.locate`: the leaves with their positions, in order;
* `walk_in_document_order`: the walk is the descent, and finds exactly the leaves that are reached,
  by rising positions.
-/

namespace HopQuery

namespace Json

/-! ### Level by level and branch by branch -/

/-- The leaves to which a value leads along the segments. -/
def descend (catalog : Catalog) : List Segment → Json → List Json
  | [], value => [value]
  | segment :: rest, value =>
    match value.get? segment.typeName with
    | none => []
    | some .null => []
    | some (.array items) =>
      if catalog.isCollection segment.typeName then items.flatMap (descend catalog rest)
      else descend catalog rest (.array items)
    | some member => descend catalog rest member

/-- The descent takes one step and goes on from whatever it finds. -/
theorem descend_cons (catalog : Catalog) (segment : Segment) (rest : List Segment) (value : Json) :
    value.descend catalog (segment :: rest) =
      (value.project (catalog.isCollection segment.typeName) segment.typeName).flatMap
        (descend catalog rest) := by
  rw [descend, project]
  cases value.get? segment.typeName with
  | none => rfl
  | some member =>
    cases member with
    | array items => cases catalog.isCollection segment.typeName <;> simp
    | _ => simp

end Json

theorem walk_cons (catalog : Catalog) (elements : List Json) (segment : Segment)
    (rest : List Segment) : walk catalog elements (segment :: rest) =
      walk catalog (elements.flatMap
        (Json.project (catalog.isCollection segment.typeName) segment.typeName)) rest := rfl

theorem walk_eq_flatMap_descend (catalog : Catalog) (elements : List Json)
    (segments : List Segment) :
    walk catalog elements segments = elements.flatMap (Json.descend catalog segments) := by
  induction segments generalizing elements with
  | nil => simp [walk, Json.descend]
  | cons segment rest ih =>
    rw [walk_cons, ih, List.flatMap_assoc]
    exact List.flatMap_congr fun value _ => (value.descend_cons catalog segment rest).symm

/-! ### Leaves with their positions -/

/-- A leaf at its position: for each list on the way whose items were spread, the index of the item
that was taken. -/
abbrev Located := List Nat × Json

/-- The leaves of items, item by item, each with the index of its item put before its position. -/
def spread (locate : Json → List Located) (items : List Json) : List Located :=
  items.zipIdx.flatMap fun (item, index) =>
    (locate item).map fun (position, leaf) => (index :: position, leaf)

section Spread

variable {locate : Json → List Located} (items : List Json)

theorem map_snd_spread :
    (spread locate items).map Prod.snd = items.flatMap fun item => (locate item).map Prod.snd := by
  rw [spread, List.map_flatMap]
  conv => rhs; rw [← List.zipIdx_map_fst 0 items, List.flatMap_map]
  refine List.flatMap_congr fun ⟨item, index⟩ _ => ?_
  rw [List.map_map]
  rfl

theorem mem_spread {position : List Nat} {leaf : Json} :
    (position, leaf) ∈ spread locate items ↔ ∃ index item below,
      items[index]? = some item ∧ position = index :: below ∧ (below, leaf) ∈ locate item := by
  simp only [spread, List.mem_flatMap, List.mem_map, Prod.exists, List.mem_zipIdx_iff_getElem?,
    Prod.mk.injEq]
  constructor
  · rintro ⟨item, index, hitem, below, _, hmem, rfl, rfl⟩
    exact ⟨index, item, below, hitem, rfl, hmem⟩
  · rintro ⟨index, item, below, hitem, rfl, hmem⟩
    exact ⟨item, index, hitem, below, leaf, hmem, rfl, rfl⟩

/-- If the positions below each item rise, so do the positions of all. -/
theorem pairwise_spread (h : ∀ item ∈ items, ((locate item).map Prod.fst).Pairwise (· < ·)) :
    ((spread locate items).map Prod.fst).Pairwise (· < ·) := by
  rw [spread, List.map_flatMap, List.pairwise_flatMap]
  constructor
  · rintro ⟨item, index⟩ hmem
    have hrises := h item (List.fst_mem_of_mem_zipIdx hmem)
    rw [List.pairwise_map] at hrises
    rw [List.map_map, List.pairwise_map]
    exact hrises.imp fun hlt => List.Lex.cons hlt
  · -- of two items the later one has the higher index
    have hindices : (items.zipIdx.map Prod.snd).Pairwise (· < ·) := by
      rw [List.zipIdx_map_snd]
      exact List.pairwise_lt_range'
    rw [List.pairwise_map] at hindices
    refine hindices.imp fun {first second} hlt position hfirst other hsecond => ?_
    simp only [List.map_map, List.mem_map] at hfirst hsecond
    obtain ⟨-, -, rfl⟩ := hfirst
    obtain ⟨-, -, rfl⟩ := hsecond
    exact List.Lex.rel hlt

end Spread

namespace Json

/-- The leaves to which a value leads along the segments, with their positions. -/
def locate (catalog : Catalog) : List Segment → Json → List Located
  | [], value => [([], value)]
  | segment :: rest, value =>
    match value.get? segment.typeName with
    | none => []
    | some .null => []
    | some (.array items) =>
      if catalog.isCollection segment.typeName then spread (locate catalog rest) items
      else locate catalog rest (.array items)
    | some member => locate catalog rest member

/-- A value leads along the segments to a leaf at a position. -/
inductive Reaches (catalog : Catalog) : Json → List Segment → List Nat → Json → Prop
  /-- Without segments a value is itself the leaf. -/
  | here (value : Json) : Reaches catalog value [] [] value
  /-- A member is gone into, unless it is null or a list whose items are spread. -/
  | member {value member leaf : Json} {segment : Segment} {rest : List Segment}
      {position : List Nat} (hget : value.get? segment.typeName = some member)
      (hnull : member ≠ .null)
      (hspread : ∀ items, member = .array items → catalog.isCollection segment.typeName = false)
      (h : Reaches catalog member rest position leaf) :
      Reaches catalog value (segment :: rest) position leaf
  /-- Of a list under a collection kind an item is gone into. -/
  | item {value item leaf : Json} {items : List Json} {index : Nat} {segment : Segment}
      {rest : List Segment} {position : List Nat}
      (hget : value.get? segment.typeName = some (.array items))
      (hspread : catalog.isCollection segment.typeName = true) (hitem : items[index]? = some item)
      (h : Reaches catalog item rest position leaf) :
      Reaches catalog value (segment :: rest) (index :: position) leaf

theorem map_snd_locate (catalog : Catalog) (segments : List Segment) (value : Json) :
    (value.locate catalog segments).map Prod.snd = value.descend catalog segments := by
  induction segments generalizing value with
  | nil => rfl
  | cons segment rest ih =>
    rw [locate, descend]
    split
    · rfl
    · rfl
    · split
      · rw [map_snd_spread]
        exact List.flatMap_congr fun item _ => ih item
      · exact ih _
    · exact ih _

theorem pairwise_locate (catalog : Catalog) (segments : List Segment) (value : Json) :
    ((value.locate catalog segments).map Prod.fst).Pairwise (· < ·) := by
  induction segments generalizing value with
  | nil => exact List.pairwise_singleton _ _
  | cons segment rest ih =>
    rw [locate]
    split
    · exact .nil
    · exact .nil
    · split
      · exact pairwise_spread _ fun item _ => ih item
      · exact ih _
    · exact ih _

theorem mem_locate_iff (catalog : Catalog) (segments : List Segment) (value : Json)
    (position : List Nat) (leaf : Json) :
    (position, leaf) ∈ value.locate catalog segments ↔
      Reaches catalog value segments position leaf := by
  induction segments generalizing value position with
  | nil =>
    simp only [locate, List.mem_singleton, Prod.mk.injEq]
    constructor
    · rintro ⟨rfl, rfl⟩
      exact .here _
    · rintro ⟨⟩
      exact ⟨rfl, rfl⟩
  | cons segment rest ih =>
    constructor
    · intro hmem
      rw [locate] at hmem
      split at hmem
      · cases hmem
      · cases hmem
      · next items hget =>
        split at hmem
        · next hspread =>
          obtain ⟨index, item, below, hitem, rfl, hbelow⟩ := (mem_spread items).1 hmem
          exact .item hget hspread hitem ((ih ..).1 hbelow)
        · next hspread =>
          have hwhole : catalog.isCollection segment.typeName = false := by simpa using hspread
          exact .member hget (by simp) (fun _ _ => hwhole) ((ih ..).1 hmem)
      · next member hnull harray hget =>
        exact .member hget hnull (fun items heq => absurd heq (harray items)) ((ih ..).1 hmem)
    · intro hreaches
      cases hreaches with
      | @member _ member _ _ _ _ hget hnull hspread h =>
        have hmem := (ih member position).2 h
        rw [locate, hget]
        cases member with
        | null => exact absurd rfl hnull
        | array items =>
          simp only [hspread items rfl, Bool.false_eq_true, if_false]
          exact hmem
        | _ => exact hmem
      | @item _ item _ items index _ _ below hget hspread hitem h =>
        rw [locate, hget]
        simp only [hspread, if_true]
        exact (mem_spread items).2 ⟨index, item, below, hitem, rfl, (ih item below).2 h⟩

end Json

/-- The walk goes down from each element on its own: it is the descent from one element after the
other, and has as many leaves as the walks from the single elements together. Its leaves stand in
the order of the document: each of them has a position, told by the index of its element and the
indices of the items on the way, the positions rise from leaf to leaf, and what stands there are
exactly the leaves that an element leads to. -/
theorem walk_in_document_order (catalog : Catalog) (elements : List Json)
    (segments : List Segment) :
    let leaves := walk catalog elements segments
    leaves = elements.flatMap (Json.descend catalog segments) ∧
    leaves.length = (elements.map fun element => (walk catalog [element] segments).length).sum ∧
    ∃ positions : List (List Nat), positions.length = leaves.length ∧
      positions.Pairwise (· < ·) ∧
      ∀ position leaf, (position, leaf) ∈ positions.zip leaves ↔
        ∃ index element below, elements[index]? = some element ∧ position = index :: below ∧
          Json.Reaches catalog element segments below leaf := by
  intro leaves
  have hleaves : leaves = elements.flatMap (Json.descend catalog segments) :=
    walk_eq_flatMap_descend catalog elements segments
  have hlocated : (spread (Json.locate catalog segments) elements).map Prod.snd = leaves := by
    rw [map_snd_spread, hleaves]
    exact List.flatMap_congr fun element _ => element.map_snd_locate catalog segments
  refine ⟨hleaves, ?_, (spread (Json.locate catalog segments) elements).map Prod.fst, ?_, ?_, ?_⟩
  · rw [hleaves, List.length_flatMap]
    simp [walk_eq_flatMap_descend]
  · rw [← hlocated, List.length_map, List.length_map]
  · exact pairwise_spread elements fun element _ => element.pairwise_locate catalog segments
  · intro position leaf
    rw [← hlocated, List.zip_map', List.map_id', mem_spread]
    simp only [Json.mem_locate_iff]

end HopQuery
