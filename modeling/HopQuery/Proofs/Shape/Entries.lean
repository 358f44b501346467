import HopQuery.Proofs.Json.Parts
import HopQuery.Proofs.Shape.Nested

/-!
# The entries of the nested view

The nested view shows each value of the data at its place, and nothing else. Read from top to bottom,
its leaves are the scalars of the data in the order of the document, each under the names of the
members around it, and its branches are the members that hold objects and lists. What a member that
tells a type holds is left out, and a list that stands in a list is one leaf, whatever is in it.

* `Json.LeafAt`, `Json.BranchAt`: the parts of a value that are leaves and those that are branches;
* `NestedItem.leaves`, `NestedItem.branches`: the entries of a tree from top to bottom, with the keys
  of the branches around them;
* `NestedItem.entryAt?`, `NestedItem.shownWithin`: the entry of a part, and the entries of what is in
  it;
* `itemsWithin_ofCollection`: the entries of the view, part by part;
* `entries_in_document_order`: its leaves and its branches.
-/

namespace HopQuery

/-! ### Which parts are shown -/

namespace Json

/-- The value has no parts. -/
def IsScalar (value : Json) : Prop :=
  (∀ items, value ≠ .array items) ∧ ∀ members, value ≠ .object members

/-- At the position stands a list that is an item of a list. -/
def InnerList (value : Json) (position : Position) : Prop :=
  ∃ outer index items, position = outer ++ [.item index] ∧
    value.part? position = some (.array items)

/-- The position is neither in a member that tells a type nor in a list that is an item of a list. -/
structure IsOpen (value : Json) (position : Position) : Prop where
  untyped : ∀ index, .member index NestedItem.typeMember ∉ position
  outside : ∀ outer, outer <+: position → outer ≠ position → ¬ value.InnerList outer

/-- The part at the position is shown as a leaf: it is a scalar, or a list that is an item of a
list. -/
structure LeafAt (value : Json) (position : Position) (part : Json) : Prop where
  part_eq : value.part? position = some part
  isOpen : value.IsOpen position
  leaf : part.IsScalar ∨ value.InnerList position

/-- The part at the position is shown as a branch: it is a member that holds an object or a list. -/
structure BranchAt (value : Json) (position : Position) (part : Json) : Prop where
  part_eq : value.part? position = some part
  isOpen : value.IsOpen position
  compound : ¬ part.IsScalar
  member : ∃ outer index name, position = outer ++ [.member index name]

namespace Position

/-- The names of the members on the way. -/
def names (position : Position) : List String :=
  position.filterMap Step.name?

/-- The names of the members around the part. -/
def around (position : Position) : List String :=
  names position.dropLast

/-- The name of the part if it is a member, otherwise nothing. -/
def key (position : Position) : String :=
  (position.getLast?.bind Step.name?).getD ""

@[simp]
theorem names_concat (position : Position) (step : Step) :
    names (position ++ [step]) = names position ++ step.name?.toList := by
  rw [names, List.filterMap_append, names]
  cases h : step.name? <;> simp [h]

@[simp]
theorem around_concat (position : Position) (step : Step) :
    around (position ++ [step]) = names position := by
  rw [around, List.dropLast_concat]

@[simp]
theorem key_concat (position : Position) (step : Step) :
    key (position ++ [step]) = step.name?.getD "" := by
  rw [key, List.getLast?_concat, Option.bind_some]

end Position

variable {data value : Json} {position : Position}

theorem isOpen_nil (data : Json) : data.IsOpen [] where
  untyped _ := List.not_mem_nil
  outside _ houter hne := absurd (List.prefix_nil.1 houter) hne

theorem not_innerList_nil (data : Json) : ¬ data.InnerList [] := by
  rintro ⟨outer, index, items, heq, -⟩
  exact List.append_ne_nil_of_right_ne_nil _ (List.cons_ne_nil _ _) heq.symm

theorem IsOpen.of_append {rest : Position} (h : data.IsOpen (position ++ rest)) :
    data.IsOpen position where
  untyped index hmem := h.untyped index (List.mem_append_left _ hmem)
  outside outer houter hne := by
    refine h.outside outer (houter.trans (List.prefix_append position rest)) fun heq => hne ?_
    have hlength := houter.length_le
    rw [heq, List.length_append] at hlength
    have hrest : rest = [] := List.eq_nil_of_length_eq_zero (by omega)
    rw [heq, hrest, List.append_nil]

/-- One step further a position stays open, but for a member that tells a type and for the items of
a list that is an item. -/
theorem isOpen_concat_iff (data : Json) (position : Position) (step : Step) :
    data.IsOpen (position ++ [step]) ↔ data.IsOpen position ∧ ¬ data.InnerList position ∧
      step.name? ≠ some NestedItem.typeMember := by
  constructor
  · intro h
    refine ⟨h.of_append, h.outside _ (List.prefix_append _ _) ?_, fun hname => ?_⟩
    · exact fun heq => List.cons_ne_nil _ _ (List.self_eq_append_right.1 heq)
    · cases step with
      | item index => cases hname
      | member index name =>
        obtain rfl := Option.some.inj hname
        exact h.untyped index (List.mem_append_right _ (List.mem_singleton.2 rfl))
  · rintro ⟨h, hinner, hname⟩
    refine ⟨fun index hmem => ?_, fun outer houter hne => ?_⟩
    · rcases List.mem_append.1 hmem with hmem | hmem
      · exact h.untyped index hmem
      · rw [← List.mem_singleton.1 hmem] at hname
        exact hname rfl
    · rcases List.prefix_concat_iff.1 houter with heq | houter
      · exact absurd heq hne
      · by_cases heq : outer = position
        · exact heq ▸ hinner
        · exact h.outside outer houter heq

theorem innerList_concat_iff {step : Step} (h : data.part? (position ++ [step]) = some value) :
    data.InnerList (position ++ [step]) ↔ step.name? = none ∧ ∃ items, value = .array items := by
  constructor
  · rintro ⟨outer, index, items, heq, hpart⟩
    obtain ⟨rfl, hstep⟩ := List.append_inj' heq rfl
    cases hstep
    exact ⟨rfl, items, Option.some.inj (h.symm.trans hpart)⟩
  · rintro ⟨hname, items, rfl⟩
    cases step with
    | item index => exact ⟨position, index, items, rfl, h⟩
    | member index name => cases hname

/-- What is shown as a branch is not shown as a leaf. -/
theorem BranchAt.not_leafAt (h : data.BranchAt position value) : ¬ data.LeafAt position value := by
  obtain ⟨outer, index, name, rfl⟩ := h.member
  intro hleaf
  rcases hleaf.leaf with hscalar | hinner
  · exact h.compound hscalar
  · cases ((innerList_concat_iff h.part_eq).1 hinner).1

theorem exists_of_not_isScalar (h : ¬ value.IsScalar) :
    (∃ items, value = .array items) ∨ ∃ members, value = .object members := by
  by_cases hitems : ∃ items, value = .array items
  · exact .inl hitems
  · refine .inr (by_contra fun hmembers => h ⟨fun items heq => ?_, fun members heq => ?_⟩)
    · exact hitems ⟨items, heq⟩
    · exact hmembers ⟨members, heq⟩

theorem children_of_isScalar (h : value.IsScalar) : value.children = [] := by
  cases value with
  | array items => exact absurd rfl (h.1 items)
  | object members => exact absurd rfl (h.2 members)
  | _ => rfl

end Json

/-! ### Entries from top to bottom -/

namespace NestedItem

mutual

/-- The entry and all those in it, with the keys of the branches around them. -/
def entryWithin (keys : List String) : NestedEntry → List (List String × NestedEntry)
  | .leaf key text => [(keys, .leaf key text)]
  | .branch key items => (keys, .branch key items) :: itemsWithin (keys ++ [key]) items

/-- The entries of an item. -/
def entriesWithin (keys : List String) : List NestedEntry → List (List String × NestedEntry)
  | [] => []
  | entry :: rest => entryWithin keys entry ++ entriesWithin keys rest

/-- The entries of items, one after the other. -/
def itemsWithin (keys : List String) :
    List (List NestedEntry) → List (List String × NestedEntry)
  | [] => []
  | item :: rest => entriesWithin keys item ++ itemsWithin keys rest

end

/-- The keys around a leaf, its key and its text. -/
def asLeaf? : List String × NestedEntry → Option (List String × String × String)
  | (keys, .leaf key text) => some (keys, key, text)
  | (_, .branch _ _) => none

/-- The keys around a branch, its key and its items. -/
def asBranch? : List String × NestedEntry → Option (List String × String × List NestedItem)
  | (_, .leaf _ _) => none
  | (keys, .branch key items) => some (keys, key, items)

/-- The leaves of items from top to bottom, each with the keys of the branches around it. -/
def leaves (items : List NestedItem) : List (List String × String × String) :=
  (itemsWithin [] items).filterMap asLeaf?

/-- The branches of items from top to bottom, each with the keys of the branches around it. -/
def branches (items : List NestedItem) : List (List String × String × List NestedItem) :=
  (itemsWithin [] items).filterMap asBranch?

theorem itemsWithin_eq_flatMap (keys : List String) (items : List NestedItem) :
    itemsWithin keys items = items.flatMap (entriesWithin keys) := by
  induction items with
  | nil => rfl
  | cons item rest ih => rw [itemsWithin, ih, List.flatMap_cons]

theorem entriesWithin_ofMembers (keys : List String) (members : List (String × Json)) :
    entriesWithin keys (ofMembers members) = members.flatMap fun member =>
      if member.1 = typeMember then [] else entryWithin keys (ofMember member.1 member.2) := by
  induction members with
  | nil => rfl
  | cons member rest ih =>
    rw [ofMembers, List.flatMap_cons, ← ih]
    split
    · exact (List.nil_append _).symm
    · rw [entriesWithin]

/-! ### The entries of one value -/

variable {data value child : Json} {position : Json.Position} {step : Json.Step}

theorem ofElement_of_isScalar (h : value.IsScalar) :
    ofElement value = [.leaf "" (leafText value)] := by
  cases value with
  | object members => exact absurd rfl (h.2 members)
  | _ => rfl

theorem ofMember_of_isScalar (h : value.IsScalar) (name : String) :
    ofMember name value = .leaf name (leafText value) := by
  cases value with
  | array items => exact absurd rfl (h.1 items)
  | object members => exact absurd rfl (h.2 members)
  | _ => rfl

theorem ofMember_of_not_isScalar (h : ¬ value.IsScalar) (name : String) :
    ofMember name value = .branch name (ofCollection value) := by
  rcases Json.exists_of_not_isScalar h with ⟨items, rfl⟩ | ⟨members, rfl⟩ <;> rfl

theorem ofCollection_of_not_isScalar (h : ¬ value.IsScalar) :
    ofCollection value = (rootElements (some value)).map ofElement := by
  rcases Json.exists_of_not_isScalar h with ⟨items, rfl⟩ | ⟨members, rfl⟩
  · exact ofElements_eq_map items
  · rfl

/-- The entries that the view of a value has for one of its children. -/
def childEntries (keys : List String) : Json.Step × Json → List (List String × NestedEntry)
  | (.item _, item) => entriesWithin keys (ofElement item)
  | (.member _ name, value) =>
    if name = typeMember then [] else entryWithin keys (ofMember name value)

/-- The items of a value with parts have the entries of its children. -/
theorem flatMap_childEntries (h : ¬ value.IsScalar) (keys : List String) :
    value.children.flatMap (childEntries keys) = itemsWithin keys (ofCollection value) := by
  rcases Json.exists_of_not_isScalar h with ⟨items, rfl⟩ | ⟨members, rfl⟩
  · rw [ofCollection, ofElements_eq_map, itemsWithin_eq_flatMap, List.flatMap_map, Json.children,
      List.flatMap_map]
    conv => rhs; rw [← List.zipIdx_map_fst 0 items, List.flatMap_map]
    rfl
  · show _ = entriesWithin keys (ofMembers members) ++ []
    rw [List.append_nil, entriesWithin_ofMembers, Json.children, List.flatMap_map]
    conv => rhs; rw [← List.zipIdx_map_fst 0 members, List.flatMap_map]
    rfl

/-! ### The entries of the view, part by part -/

open Classical in
/-- The entry of the part at a position, with the keys around it, if it has one. -/
noncomputable def entryAt? (data : Json) (position : Json.Position) (part : Json) :
    Option (List String × NestedEntry) :=
  if data.LeafAt position part then some (position.around, .leaf position.key (leafText part))
  else if data.BranchAt position part then
    some (position.around, .branch position.key (ofCollection part))
  else none

/-- The entries of the parts of a value that stands at a position. -/
noncomputable def shownWithin (data : Json) (position : Json.Position) (value : Json) :
    List (List String × NestedEntry) :=
  value.parts.filterMap fun entry => entryAt? data (position ++ entry.1) entry.2

theorem shownWithin_eq (data : Json) (position : Json.Position) (value : Json) :
    shownWithin data position value = (entryAt? data position value).toList ++
      value.children.flatMap fun child => shownWithin data (position ++ [child.1]) child.2 := by
  have hbehind : ∀ child : Json.Step × Json, (Json.behind child.1 child.2.parts).filterMap
      (fun entry => entryAt? data (position ++ entry.1) entry.2) =
        shownWithin data (position ++ [child.1]) child.2 := by
    intro child
    rw [Json.behind, List.filterMap_map, shownWithin]
    refine List.filterMap_congr fun entry _ => ?_
    rw [List.append_assoc]
    rfl
  rw [shownWithin, Json.parts_eq, List.filterMap_cons, List.filterMap_flatMap]
  simp only [hbehind, List.append_nil]
  cases entryAt? data position value <;> rfl

/-- What is not open is not shown. -/
theorem shownWithin_of_not_isOpen (h : ¬ data.IsOpen position) (value : Json) :
    shownWithin data position value = [] := by
  refine List.filterMap_eq_nil_iff.2 fun entry _ => ?_
  have hclosed : ¬ data.IsOpen (position ++ entry.1) := fun hopen => h hopen.of_append
  rw [entryAt?, if_neg fun hleaf => hclosed hleaf.isOpen,
    if_neg fun hbranch => hclosed hbranch.isOpen]

/-- A leaf is one entry, whatever is in it. -/
theorem shownWithin_of_leafAt (h : data.LeafAt position value) :
    shownWithin data position value =
      [(position.around, .leaf position.key (leafText value))] := by
  have hchildren : value.children.flatMap
      (fun child => shownWithin data (position ++ [child.1]) child.2) = [] := by
    refine List.flatMap_eq_nil_iff.2 fun child hchild => ?_
    rcases h.leaf with hscalar | hinner
    · rw [Json.children_of_isScalar hscalar] at hchild
      cases hchild
    · refine shownWithin_of_not_isOpen (fun hopen => ?_) _
      exact ((Json.isOpen_concat_iff ..).1 hopen).2.1 hinner
  rw [shownWithin_eq, hchildren, entryAt?, if_pos h]
  rfl

theorem childEntries_of_leafAt (h : data.LeafAt (position ++ [step]) value)
    (hname : step.name? ≠ some typeMember) (keys : List String) :
    childEntries keys (step, value) = [(keys, .leaf (step.name?.getD "") (leafText value))] := by
  cases step with
  | item index =>
    have hitem : ofElement value = [.leaf "" (leafText value)] := by
      rcases h.leaf with hscalar | hinner
      · exact ofElement_of_isScalar hscalar
      · obtain ⟨-, items, rfl⟩ := (Json.innerList_concat_iff h.part_eq).1 hinner
        rfl
    rw [childEntries, hitem]
    rfl
  | member index name =>
    have hscalar : value.IsScalar := h.leaf.resolve_right fun hinner =>
      nomatch ((Json.innerList_concat_iff h.part_eq).1 hinner).1
    rw [childEntries, if_neg fun heq => hname (congrArg some heq), ofMember_of_isScalar hscalar]
    rfl

/-- A value whose children are shown as its view shows them has the entries of its items, behind its
own entry if it has one. -/
theorem shownWithin_of_not_isScalar (hcompound : ¬ value.IsScalar)
    (hchildren : ∀ child ∈ value.children,
      shownWithin data (position ++ [child.1]) child.2 = childEntries position.names child) :
    shownWithin data position value = (entryAt? data position value).toList ++
      itemsWithin position.names (ofCollection value) := by
  rw [shownWithin_eq, List.flatMap_congr hchildren, flatMap_childEntries hcompound]

/-- A child with parts has its own entry if it is a member, and the entries of its items. -/
theorem childEntries_of_not_isScalar (hpart : data.part? (position ++ [step]) = some value)
    (hopen : data.IsOpen (position ++ [step])) (hcompound : ¬ value.IsScalar)
    (hinner : ¬ data.InnerList (position ++ [step])) :
    childEntries position.names (step, value) =
      (entryAt? data (position ++ [step]) value).toList ++
        itemsWithin (position ++ [step]).names (ofCollection value) := by
  have hleaf : ¬ data.LeafAt (position ++ [step]) value := fun h =>
    h.leaf.elim hcompound hinner
  have hname := ((Json.isOpen_concat_iff ..).1 hopen).2.2
  rw [entryAt?, if_neg hleaf, Json.Position.around_concat, Json.Position.key_concat,
    Json.Position.names_concat]
  cases step with
  | item index =>
    have hbranch : ¬ data.BranchAt (position ++ [.item index]) value := by
      rintro ⟨-, -, -, outer, index', name, heq⟩
      cases (List.append_inj' heq rfl).2
    rw [if_neg hbranch]
    rcases Json.exists_of_not_isScalar hcompound with ⟨items, rfl⟩ | ⟨members, rfl⟩
    · exact absurd ((Json.innerList_concat_iff hpart).2 ⟨rfl, items, rfl⟩) hinner
    · simp [Json.Step.name?, childEntries, ofCollection, ofElement, itemsWithin]
  | member index name =>
    have hbranch : data.BranchAt (position ++ [.member index name]) value :=
      ⟨hpart, hopen, hcompound, position, index, name, rfl⟩
    rw [if_pos hbranch, childEntries, if_neg fun heq => hname (congrArg some heq),
      ofMember_of_not_isScalar hcompound]
    rfl

/-- A child of a value is shown as the view of the value shows it, if the view goes into the value. -/
theorem shownWithin_concat (hpart : data.part? (position ++ [step]) = some value)
    (hopen : data.IsOpen position) (hinner : ¬ data.InnerList position) :
    shownWithin data (position ++ [step]) value = childEntries position.names (step, value) := by
  induction value using Json.induct_children generalizing position step with
  | h value ih =>
    by_cases hname : step.name? = some typeMember
    · have hclosed : ¬ data.IsOpen (position ++ [step]) := fun h =>
        ((Json.isOpen_concat_iff ..).1 h).2.2 hname
      rw [shownWithin_of_not_isOpen hclosed]
      cases step with
      | item index => cases hname
      | member index name => exact (if_pos (Option.some.inj hname)).symm
    have hopen' : data.IsOpen (position ++ [step]) :=
      (Json.isOpen_concat_iff ..).2 ⟨hopen, hinner, hname⟩
    by_cases hleaf : data.LeafAt (position ++ [step]) value
    · rw [shownWithin_of_leafAt hleaf, childEntries_of_leafAt hleaf hname,
        Json.Position.around_concat, Json.Position.key_concat]
    obtain ⟨hcompound, hinner'⟩ := not_or.1 fun h => hleaf ⟨hpart, hopen', h⟩
    rw [childEntries_of_not_isScalar hpart hopen' hcompound hinner']
    refine shownWithin_of_not_isScalar hcompound fun child hchild => ih child hchild ?_ hopen' hinner'
    rw [Json.part?_concat, hpart]
    exact (Json.mem_children_iff ..).1 hchild

/-- The entries of the view, from top to bottom, are those of the parts of the data. -/
theorem itemsWithin_ofCollection (data : Json) :
    itemsWithin [] (ofCollection data) = data.parts.filterMap fun entry =>
      entryAt? data entry.1 entry.2 := by
  show _ = shownWithin data [] data
  by_cases hscalar : data.IsScalar
  · rw [shownWithin_of_leafAt ⟨rfl, data.isOpen_nil, .inl hscalar⟩]
    cases data with
    | array items => exact absurd rfl (hscalar.1 items)
    | object members => exact absurd rfl (hscalar.2 members)
    | _ => rfl
  · have hleaf : ¬ data.LeafAt [] data := fun h =>
      h.leaf.elim hscalar data.not_innerList_nil
    have hbranch : ¬ data.BranchAt [] data := by
      rintro ⟨-, -, -, outer, index, name, heq⟩
      exact List.append_ne_nil_of_right_ne_nil _ (List.cons_ne_nil _ _) heq.symm
    rw [shownWithin_of_not_isScalar hscalar fun child hchild => ?children]
    case children =>
      have hpart : data.part? ([] ++ [child.1]) = some child.2 := by
        rw [Json.part?_concat]
        exact (Json.mem_children_iff ..).1 hchild
      exact shownWithin_concat hpart data.isOpen_nil data.not_innerList_nil
    rw [entryAt?, if_neg hleaf, if_neg hbranch]
    rfl

/-- The nested view of a value loses nothing and shows nothing twice. Read from top to bottom, its
leaves are the scalars of the value, and the lists that are items of lists, in the order of the
document: each with the names of the members around it as the keys of the branches around it, with
its own name as its key if it is a member, and with its text. Its branches are the members that hold
objects and lists, with one item for each item of a list, or one for the object. What stands in a
member that tells a type, or in a list that is an item of a list, is passed over. -/
theorem entries_in_document_order (value : Json) :
    (∃ shown : List (Json.Position × Json), Json.InDocumentOrder (shown.map Prod.fst) ∧
      (∀ position part, (position, part) ∈ shown ↔ value.LeafAt position part) ∧
      leaves (ofCollection value) = shown.map fun (position, part) =>
        (position.around, position.key, leafText part)) ∧
    ∃ shown : List (Json.Position × Json), Json.InDocumentOrder (shown.map Prod.fst) ∧
      (∀ position part, (position, part) ∈ shown ↔ value.BranchAt position part) ∧
      branches (ofCollection value) = shown.map fun (position, part) =>
        (position.around, position.key, (rootElements (some part)).map ofElement) := by
  rw [leaves, branches, itemsWithin_ofCollection, List.filterMap_filterMap, List.filterMap_filterMap]
  constructor
  · refine value.exists_filterMap_parts (fun _ _ h => h.part_eq) (fun position part h => ?_)
      fun position part h => ?_
    · rw [entryAt?, if_pos h]
      rfl
    · rw [entryAt?, if_neg h]
      split <;> rfl
  · refine value.exists_filterMap_parts (fun _ _ h => h.part_eq) (fun position part h => ?_)
      fun position part h => ?_
    · rw [entryAt?, if_neg h.not_leafAt, if_pos h, ofCollection_of_not_isScalar h.compound]
      rfl
    · rw [entryAt?, if_neg h]
      split <;> rfl

end NestedItem

end HopQuery
