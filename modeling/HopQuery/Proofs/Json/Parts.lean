import HopQuery.Proofs.Json.Induction
import Mathlib.Data.List.Flatten
import Mathlib.Data.List.Lex

/-!
# Parts of a value

A position leads from a value down to one of its parts, step by step: to an item of a list or to a
member of an object. In the order of the document a part stands before the parts in it, and all of
these stand before its next sibling.

* `Json.Step`, `Json.Position`: the way to a part;
* `Json.child?`, `Json.part?`: the part behind one step, and the part at a position;
* `Json.parts`: all parts with their positions, in the order of the document;
* `mem_parts_iff`, `pairwise_parts`: these are the parts of the value, by rising positions;
* `exists_filterMap_parts`: some of the parts, by rising positions.
-/

namespace HopQuery.Json

/-- A step down, to an item or to a member at its place among its siblings. -/
inductive Step
  | item (index : Nat)
  | member (index : Nat) (name : String)
  deriving DecidableEq, Repr

namespace Step

/-- The place among the siblings. -/
def index : Step → Nat
  | item index => index
  | member index _ => index

/-- The name of the member; an item has none. -/
def name? : Step → Option String
  | item _ => none
  | member _ name => some name

end Step

/-- The steps from a value down to a part. -/
abbrev Position := List Step

/-- The positions are different and stand in the order of the document. -/
def InDocumentOrder (positions : List Position) : Prop :=
  (positions.map fun position => position.map Step.index).Pairwise (· < ·)

/-! ### One step down -/

/-- The part behind one step. -/
def child? : Json → Step → Option Json
  | .array items, .item index => items[index]?
  | .object members, .member index name =>
    (members[index]?).bind fun member => if member.1 = name then some member.2 else none
  | _, _ => none

/-- The parts one step down, in order. -/
def children : Json → List (Step × Json)
  | .array items => items.zipIdx.map fun (item, index) => (.item index, item)
  | .object members => members.zipIdx.map fun (member, index) =>
      (.member index member.1, member.2)
  | _ => []

theorem mem_children_iff (value : Json) (step : Step) (child : Json) :
    (step, child) ∈ value.children ↔ value.child? step = some child := by
  cases value with
  | array items =>
    cases step with
    | item index => simp [children, child?, List.mem_zipIdx_iff_getElem?]
    | member index name => simp [children, child?]
  | object members =>
    cases step with
    | item index => simp [children, child?]
    | member index name =>
      simp only [children, child?, List.mem_map, Prod.exists, List.mem_zipIdx_iff_getElem?,
        Prod.mk.injEq, Step.member.injEq, Option.bind_eq_some_iff, Option.ite_none_right_eq_some,
        Option.some.injEq]
      constructor
      · rintro ⟨_, _, _, hmember, ⟨rfl, rfl⟩, rfl⟩
        exact ⟨_, _, hmember, rfl, rfl⟩
      · rintro ⟨_, _, hmember, rfl, rfl⟩
        exact ⟨_, _, _, hmember, ⟨rfl, rfl⟩, rfl⟩
  | _ => cases step <;> simp [children, child?]

/-- The children of a value come with rising places. -/
theorem pairwise_children (value : Json) :
    (value.children.map fun child => child.1.index).Pairwise (· < ·) := by
  have hindices : ∀ {α : Type} (siblings : List α),
      (siblings.zipIdx.map Prod.snd).Pairwise (· < ·) := by
    intro α siblings
    rw [List.zipIdx_map_snd]
    exact List.pairwise_lt_range'
  cases value with
  | array items => simpa [children, Function.comp_def, Step.index] using hindices items
  | object members => simpa [children, Function.comp_def, Step.index] using hindices members
  | _ => exact .nil

/-- What holds of a value if it holds of its children holds of every value. -/
@[elab_as_elim]
theorem induct_children {motive : Json → Prop}
    (h : ∀ value, (∀ child ∈ value.children, motive child.2) → motive value) (value : Json) :
    motive value := by
  induction value using induct with
  | array items ih =>
    refine h _ fun child hchild => ?_
    obtain ⟨⟨item, index⟩, hitem, rfl⟩ := List.mem_map.1 hchild
    exact ih item (List.fst_mem_of_mem_zipIdx hitem)
  | object members ih =>
    refine h _ fun child hchild => ?_
    obtain ⟨⟨member, index⟩, hmember, rfl⟩ := List.mem_map.1 hchild
    exact ih member (List.fst_mem_of_mem_zipIdx hmember)
  | _ => exact h _ fun _ hchild => nomatch hchild

/-! ### All the way down -/

/-- The part at a position. -/
def part? (value : Json) : Position → Option Json
  | [] => some value
  | step :: rest => (value.child? step).bind (part? · rest)

theorem part?_append (value : Json) (outer inner : Position) :
    value.part? (outer ++ inner) = (value.part? outer).bind (part? · inner) := by
  induction outer generalizing value with
  | nil => rfl
  | cons step rest ih =>
    rw [List.cons_append, part?, part?, Option.bind_assoc]
    exact congrArg _ (funext fun child => ih child)

theorem part?_concat (value : Json) (position : Position) (step : Step) :
    value.part? (position ++ [step]) = (value.part? position).bind (child? · step) := by
  rw [part?_append]
  refine congrArg _ (funext fun part => ?_)
  exact Option.bind_fun_some (part.child? step)

/-- Parts seen from one step further up. -/
def behind (step : Step) (parts : List (Position × Json)) : List (Position × Json) :=
  parts.map fun (position, part) => (step :: position, part)

mutual

/-- All parts with their positions, each before those in it. -/
def parts : Json → List (Position × Json)
  | .array items => ([], .array items) :: itemParts 0 items
  | .object members => ([], .object members) :: memberParts 0 members
  | value => [([], value)]

/-- The parts of items, of which the first has the place. -/
def itemParts (index : Nat) : List Json → List (Position × Json)
  | [] => []
  | item :: rest => behind (.item index) (parts item) ++ itemParts (index + 1) rest

/-- The parts of members, of which the first has the place. -/
def memberParts (index : Nat) : List (String × Json) → List (Position × Json)
  | [] => []
  | (name, value) :: rest =>
    behind (.member index name) (parts value) ++ memberParts (index + 1) rest

end

/-- A value comes first, then its children one after the other. -/
theorem parts_eq (value : Json) : value.parts =
    ([], value) :: value.children.flatMap fun child => behind child.1 child.2.parts := by
  cases value with
  | array items =>
    have hitems : ∀ index, itemParts index items = (items.zipIdx index).flatMap
        fun (item, index) => behind (.item index) item.parts := by
      induction items with
      | nil => exact fun index => rfl
      | cons item rest ih => exact fun index => by simp [itemParts, ih]
    rw [parts, hitems, children, List.flatMap_map]
  | object members =>
    have hmembers : ∀ index, memberParts index members = (members.zipIdx index).flatMap
        fun (member, index) => behind (.member index member.1) member.2.parts := by
      induction members with
      | nil => exact fun index => rfl
      | cons member rest ih => exact fun index => by simp [memberParts, ih]
    rw [parts, hmembers, children, List.flatMap_map]
  | _ => rfl

theorem mem_parts_iff (value : Json) (position : Position) (part : Json) :
    (position, part) ∈ value.parts ↔ value.part? position = some part := by
  induction value using induct_children generalizing position with
  | h value ih =>
    rw [parts_eq, List.mem_cons, List.mem_flatMap]
    cases position with
    | nil => simp [behind, part?, eq_comm]
    | cons step rest =>
      rw [part?, Option.bind_eq_some_iff]
      constructor
      · rintro (heq | ⟨⟨step', child⟩, hchild, hmem⟩)
        · cases heq
        · obtain ⟨⟨position, part'⟩, hpart, heq⟩ := List.mem_map.1 hmem
          cases heq
          exact ⟨child, (mem_children_iff ..).1 hchild, (ih _ hchild rest).1 hpart⟩
      · rintro ⟨child, hstep, hpart⟩
        have hchild := (mem_children_iff value step child).2 hstep
        exact .inr ⟨_, hchild, List.mem_map.2 ⟨_, (ih _ hchild rest).2 hpart, rfl⟩⟩

theorem pairwise_parts (value : Json) : InDocumentOrder (value.parts.map Prod.fst) := by
  induction value using induct_children with
  | h value ih =>
    rw [InDocumentOrder, List.map_map, List.pairwise_map, parts_eq, List.pairwise_cons]
    constructor
    · -- the value itself stands before all that is behind a step
      intro entry hentry
      obtain ⟨child, -, hmem⟩ := List.mem_flatMap.1 hentry
      obtain ⟨below, -, rfl⟩ := List.mem_map.1 hmem
      exact List.Lex.nil
    · rw [List.pairwise_flatMap]
      constructor
      · intro child hchild
        have hrises := ih child hchild
        rw [InDocumentOrder, List.map_map, List.pairwise_map] at hrises
        exact List.pairwise_map.2 (hrises.imp fun hlt => List.Lex.cons hlt)
      · have hplaces := value.pairwise_children
        rw [List.pairwise_map] at hplaces
        refine hplaces.imp fun {first second} hlt entry hentry other hother => ?_
        obtain ⟨below, -, rfl⟩ := List.mem_map.1 hentry
        obtain ⟨below', -, rfl⟩ := List.mem_map.1 hother
        exact List.Lex.rel hlt

/-- What is told of certain parts of a value, in the order of the document, is told of the parts in a
list of just these, by rising positions. -/
theorem exists_filterMap_parts {α : Type} (value : Json) {P : Position → Json → Prop}
    (hpart : ∀ position part, P position part → value.part? position = some part)
    {tell? : Position × Json → Option α} {tell : Position × Json → α}
    (htold : ∀ position part, P position part →
      tell? (position, part) = some (tell (position, part)))
    (hnone : ∀ position part, ¬ P position part → tell? (position, part) = none) :
    ∃ found : List (Position × Json), InDocumentOrder (found.map Prod.fst) ∧
      (∀ position part, (position, part) ∈ found ↔ P position part) ∧
      value.parts.filterMap tell? = found.map tell := by
  classical
  let chosen := fun entry : Position × Json => decide (P entry.1 entry.2)
  refine ⟨value.parts.filter chosen, ?_, fun position part => ?_, ?_⟩
  · have hsublist := (List.filter_sublist (l := value.parts) (p := chosen)).map Prod.fst
    exact value.pairwise_parts.sublist (hsublist.map _)
  · rw [List.mem_filter, mem_parts_iff, decide_eq_true_eq, and_iff_right_iff_imp]
    exact hpart position part
  · rw [← List.filterMap_eq_filter, List.map_filterMap]
    refine List.filterMap_congr fun ⟨position, part⟩ _ => ?_
    by_cases h : P position part
    · simp [htold position part h, Option.guard, chosen, h]
    · simp [hnone position part h, Option.guard, chosen, h]

end HopQuery.Json
