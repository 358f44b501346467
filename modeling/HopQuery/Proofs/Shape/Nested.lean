import HopQuery.Proofs.Shape.Dedupe
import HopQuery.Shape.Render

/-!
# The nested view along a path

The flat view goes down a path by what the catalog says of each type; the nested view goes down by
the shape of the data. Whatever object the one comes to, the other shows under the same types.

* `NestedItem.ofElements_eq_map`, `ofMembers_eq_map`, `ofRoot_eq_map`: items, one by one;
* `NestedItem.branchItems`, `NestedItem.descend`: following branches from item to item;
* `NestedItem.Shows`, with `Shows.project` and `Shows.walk`: the values of which each object is
  shown as one of the items;
* `exists_item_of_mem_leaves`: every object of the flat view is shown in the nested one.
-/

namespace HopQuery

namespace NestedItem

/-! ### Items one by one -/

theorem ofElements_eq_map (items : List Json) : ofElements items = items.map ofElement := by
  induction items with
  | nil => rfl
  | cons item rest ih => rw [ofElements, ih, List.map_cons]

theorem ofMembers_eq_map (members : List (String × Json)) : ofMembers members =
    (members.filter (·.1 ≠ typeMember)).map fun member => ofMember member.1 member.2 := by
  induction members with
  | nil => rfl
  | cons member rest ih =>
    obtain ⟨name, value⟩ := member
    by_cases h : name = typeMember <;> simp [ofMembers, h, ih]

theorem mem_ofMembers {members : List (String × Json)} {name : String} {value : Json}
    (hmem : (name, value) ∈ members) (hname : name ≠ typeMember) :
    ofMember name value ∈ ofMembers members := by
  rw [ofMembers_eq_map]
  exact List.mem_map.2 ⟨(name, value), List.mem_filter.2 ⟨hmem, by simpa using hname⟩, rfl⟩

/-- The items that stand for what is under the root: none if nothing is. -/
def ofRoot : Option Json → List NestedItem
  | none => []
  | some .null => []
  | some collection => ofCollection collection

theorem ofRoot_eq_map (root : Option Json) : ofRoot root = (rootElements root).map ofElement := by
  cases root with
  | none => rfl
  | some collection =>
    cases collection with
    | array items => exact ofElements_eq_map items
    | _ => rfl

/-! ### Following branches -/

/-- The items of the branches of an item that have the key. -/
def branchItems (key : String) (item : NestedItem) : List NestedItem :=
  item.flatMap fun
    | .leaf _ _ => []
    | .branch name items => if name = key then items else []

/-- The items that are reached from the given ones by following the branches of the keys, one key
after the other. -/
def descend (items : List NestedItem) (keys : List String) : List NestedItem :=
  keys.foldl (fun reached key => reached.flatMap (branchItems key)) items

theorem mem_branchItems {key : String} {items : List NestedItem} {item inner : NestedItem}
    (hbranch : .branch key items ∈ item) (hinner : inner ∈ items) :
    inner ∈ branchItems key item :=
  List.mem_flatMap.2 ⟨_, hbranch, by simpa using hinner⟩

/-! ### What the flat walk comes to -/

/-- Each object among the values is shown as one of the items. -/
def Shows (items : List NestedItem) (values : List Json) : Prop :=
  ∀ value ∈ values, value.isObject = true → ofElement value ∈ items

/-- An object that is found under a type stands in a member of an object, and is shown in the branch
of that member. -/
theorem exists_branch_of_mem_project {collection : Bool} {typeName : String} {value found : Json}
    (h : found ∈ value.project collection typeName) (hfound : found.isObject = true) :
    ∃ members member items, value = .object members ∧ (typeName, member) ∈ members ∧
      ofMember typeName member = .branch typeName items ∧ ofElement found ∈ items := by
  cases value with
  | object members =>
    have hmem : ∀ member, Json.get? typeName (.object members) = some member →
        (typeName, member) ∈ members := fun member => Table.mem_of_lookup_eq_some
    unfold Json.project at h
    split at h
    · cases h
    · cases h
    · next inner hget =>
      split at h
      · refine ⟨members, .array inner, _, rfl, hmem _ hget, rfl, ?_⟩
        rw [ofElements_eq_map]
        exact List.mem_map_of_mem h
      · -- a list that is not spread is no object
        rw [List.mem_singleton.1 h] at hfound
        cases hfound
    · next member _ _ hget =>
      obtain rfl := List.mem_singleton.1 h
      cases found with
      | object inner => exact ⟨members, _, _, rfl, hmem _ hget, rfl, List.mem_singleton.2 rfl⟩
      | _ => cases hfound
  | _ => cases h

theorem Shows.project {items : List NestedItem} {values : List Json} (h : Shows items values)
    {typeName : String} (htype : typeName ≠ typeMember) (collection : Bool) :
    Shows (items.flatMap (branchItems typeName))
      (values.flatMap (Json.project collection typeName)) := by
  intro found hfound hobject
  obtain ⟨value, hvalue, hproject⟩ := List.mem_flatMap.1 hfound
  obtain ⟨members, member, inner, rfl, hmember, hbranch, hinner⟩ :=
    exists_branch_of_mem_project hproject hobject
  have hitem : ofElement (.object members) ∈ items := h _ hvalue rfl
  refine List.mem_flatMap.2 ⟨_, hitem, mem_branchItems ?_ hinner⟩
  rw [← hbranch]
  exact mem_ofMembers hmember htype

theorem Shows.walk (catalog : Catalog) {segments : List Segment}
    (htypes : ∀ segment ∈ segments, segment.typeName ≠ typeMember) {items : List NestedItem}
    {values : List Json} (h : Shows items values) :
    Shows (descend items (segments.map Segment.typeName)) (HopQuery.walk catalog values segments) := by
  induction segments generalizing items values with
  | nil => exact h
  | cons segment segments ih =>
    obtain ⟨htype, htypes⟩ := List.forall_mem_cons.1 htypes
    exact ih htypes (h.project htype _)

theorem shows_rootElements (root : Option Json) : Shows (ofRoot root) (rootElements root) := by
  intro value hvalue _
  rw [ofRoot_eq_map]
  exact List.mem_map_of_mem hvalue

end NestedItem

theorem Json.render_nested (data : Json) (root : Segment) (rest : List Segment)
    (catalog : Catalog) : data.render ⟨root :: rest⟩ .nested catalog =
      some (.nested (NestedItem.ofRoot (data.get? root.typeName))) := by
  unfold Json.render NestedItem.ofRoot
  rfl

/-- Every object that the flat view lists is shown in the nested view of the same data along the
same path: it is an item under the branches of the types of the path, provided that behind the
first hop no type is the name of the member that is not shown. -/
theorem exists_item_of_mem_leaves (data : Json) (path : Path) (catalog : Catalog)
    (hpath : path.segments ≠ [])
    (htypes : ∀ segment ∈ path.segments.tail, segment.typeName ≠ NestedItem.typeMember) :
    ∃ items, (Fetch.ready data).render path .nested catalog = some (.nested items) ∧
      (Fetch.ready data).render path .flat catalog =
        some (.flat ((path.leaves catalog data).map FlatEntry.ofJson)) ∧
      ∀ leaf ∈ path.leaves catalog data, leaf.isObject = true →
        ∃ item, NestedItem.ofCollection leaf = [item] ∧
          item ∈ NestedItem.descend items path.typeNames.tail := by
  obtain ⟨segments⟩ := path
  cases segments with
  | nil => exact absurd rfl hpath
  | cons root rest =>
    refine ⟨_, data.render_nested root rest catalog, rfl, fun leaf hleaf hobject => ?_⟩
    have hshows := (NestedItem.shows_rootElements (data.get? root.typeName)).walk catalog htypes
    have hitem := hshows leaf ((dedupe_sublist _).subset hleaf) hobject
    cases leaf with
    | object members => exact ⟨_, rfl, hitem⟩
    | _ => cases hobject

/-- Two students in a list, one of them missing, the other one at a school. -/
def schooling : Json :=
  .object [("students", .array [.null, .object [("id", .number (.whole 1)),
    ("school", .object [("__typename", .string "School"), ("name", .string "North")])]])]

/-- The school is listed by the flat view, and shown in the branch of its student. -/
theorem exists_item_of_mem_leaves_school :
    let path := Path.resolve .school [⟨⟨1⟩, "students"⟩, ⟨⟨2⟩, "schools"⟩]
    path.segments ≠ [] ∧
      (∀ segment ∈ path.segments.tail, segment.typeName ≠ NestedItem.typeMember) ∧
      ∃ items, (Fetch.ready schooling).render path .nested .school = some (.nested items) ∧
        [.leaf "name" "North"] ∈ NestedItem.descend items ["school"] := by
  intro path
  have hpath : path.segments ≠ [] := by decide +kernel
  have htypes : ∀ segment ∈ path.segments.tail, segment.typeName ≠ NestedItem.typeMember := by
    decide +kernel
  have hnames : path.typeNames.tail = ["school"] := by decide +kernel
  let school : Json := .object [("__typename", .string "School"), ("name", .string "North")]
  have hleaf : school ∈ path.leaves .school schooling := by
    have hwalk : walk .school (rootElements (schooling.get? "students")) path.segments.tail =
        [school] := by decide +kernel
    have hleaves : path.leaves .school schooling = dedupe [school] := congrArg dedupe hwalk
    rw [hleaves, show dedupe [school] = [school] from dedupe_concat [] school]
    exact List.mem_singleton.2 rfl
  obtain ⟨items, hitems, -, hshown⟩ :=
    exists_item_of_mem_leaves schooling path .school hpath htypes
  obtain ⟨item, hitem, hmem⟩ := hshown school hleaf rfl
  have hname : NestedItem.ofCollection school = [[.leaf "name" "North"]] := by
    simp [school, NestedItem.ofCollection, NestedItem.ofElement, NestedItem.ofMembers,
      NestedItem.ofMember, NestedItem.leafText, NestedItem.typeMember]
  rw [hname] at hitem
  cases hitem
  exact ⟨hpath, htypes, items, hitems, hnames ▸ hmem⟩

end HopQuery
