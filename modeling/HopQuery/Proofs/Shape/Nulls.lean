import HopQuery.Proofs.Shape.Dedupe
import HopQuery.Proofs.Shape.Walk
import HopQuery.Shape.Render

/-!
# Nulls in the flat view

A null in the place of the root or of a member ends the walk, and so does a null in a list on the
way, since it has no members. Only the lists that the last step spreads are taken as they are: a null
in one of them is a leaf, and a blank row of the view.

* `mem_walk_iff`: the leaves of a walk are what an element leads to;
* `Json.not_reaches_null`, `Json.null_mem_project_iff`, `Json.null_mem_rootElements_iff`: that a null
  leads nowhere, and which steps come to one;
* `Path.SpreadsLast`: the lists that the last step of a path spreads;
* `Path.null_mem_leaves_iff`: there is a null among the leaves exactly if there is one in such a
  list;
* `Path.null_mem_leaves_schools`: a list of schools with a null in it.
-/

namespace HopQuery

/-! ### What a walk leads to -/

theorem mem_walk_iff (catalog : Catalog) (elements : List Json) (segments : List Segment)
    (leaf : Json) : leaf ∈ walk catalog elements segments ↔
      ∃ element ∈ elements, ∃ position, Json.Reaches catalog element segments position leaf := by
  rw [walk_eq_flatMap_descend, List.mem_flatMap]
  refine exists_congr fun element => and_congr_right fun _ => ?_
  simp only [← Json.mem_locate_iff, ← Json.map_snd_locate, List.mem_map, Prod.exists,
    exists_eq_right]

theorem walk_concat (catalog : Catalog) (elements : List Json) (segments : List Segment)
    (last : Segment) : walk catalog elements (segments ++ [last]) =
      (walk catalog elements segments).flatMap
        (Json.project (catalog.isCollection last.typeName) last.typeName) := by
  rw [walk, List.foldl_append]
  rfl

namespace Json

/-- A null leads nowhere. -/
theorem not_reaches_null (catalog : Catalog) (segment : Segment) (rest : List Segment)
    (position : List Nat) (leaf : Json) :
    ¬ Reaches catalog .null (segment :: rest) position leaf := by
  rintro (_ | ⟨hget, -, -, -⟩ | ⟨hget, -, -, -⟩)
  · cases hget
  · cases hget

/-- A step comes to a null only as an item of a list that it spreads. -/
theorem null_mem_project_iff (collection : Bool) (typeName : String) (value : Json) :
    .null ∈ value.project collection typeName ↔ collection = true ∧
      ∃ items, value.get? typeName = some (.array items) ∧ .null ∈ items := by
  rw [project]
  cases value.get? typeName with
  | none => simp
  | some member =>
    cases member with
    | array items => cases collection <;> simp
    | _ => simp

/-- The root is null in no place but as an item of its list. -/
theorem null_mem_rootElements_iff (root : Option Json) :
    .null ∈ rootElements root ↔ ∃ items, root = some (.array items) ∧ .null ∈ items := by
  cases root with
  | none => simp [rootElements]
  | some value => cases value <;> simp [rootElements]

end Json

/-! ### Nulls among leaves -/

/-- A null has a text of its own, so one of them is kept. -/
theorem null_mem_dedupe_iff (values : List Json) : .null ∈ dedupe values ↔ .null ∈ values := by
  constructor
  · exact fun h => (dedupe_sublist values).subset h
  · intro h
    have htext : Json.canonicalText .null ∈ (dedupe values).map Json.canonicalText :=
      (mem_map_dedupe values _).2 (List.mem_map_of_mem h)
    obtain ⟨kept, hkept, heq⟩ := List.mem_map.1 htext
    cases Json.alike_of_canonicalText_eq heq
    exact hkept

/-- No value is kept twice. -/
theorem nodup_dedupe (values : List Json) : (dedupe values).Nodup :=
  (nodup_map_dedupe values).of_map _

namespace Path

/-- The last step of the path spreads the items: they are the list of the root, if the path has no
step behind it, or else a list under a collection kind, in a value to which the steps before
lead. -/
inductive SpreadsLast (path : Path) (catalog : Catalog) (data : Json) (items : List Json) : Prop
  | root {root : Segment} (hpath : path.segments = [root])
      (hget : data.get? root.typeName = some (.array items))
  | step {root last : Segment} {between : List Segment} {element value : Json}
      {position : List Nat} (hpath : path.segments = root :: (between ++ [last]))
      (helement : element ∈ rootElements (data.get? root.typeName))
      (hreaches : Json.Reaches catalog element between position value)
      (hcollection : catalog.isCollection last.typeName = true)
      (hget : value.get? last.typeName = some (.array items))

theorem null_mem_leaves_of_spreadsLast {path : Path} {catalog : Catalog} {data : Json}
    {items : List Json} (h : path.SpreadsLast catalog data items) (hnull : .null ∈ items) :
    .null ∈ path.leaves catalog data := by
  cases h with
  | root hpath hget =>
    rw [leaves, hpath, null_mem_dedupe_iff]
    exact (Json.null_mem_rootElements_iff _).2 ⟨items, hget, hnull⟩
  | @step root last between element value position hpath helement hreaches hcollection hget =>
    rw [leaves, hpath, null_mem_dedupe_iff, walk_concat, List.mem_flatMap]
    exact ⟨value, (mem_walk_iff ..).2 ⟨element, helement, position, hreaches⟩,
      (Json.null_mem_project_iff ..).2 ⟨hcollection, items, hget, hnull⟩⟩

theorem exists_spreadsLast_of_null_mem_leaves {path : Path} {catalog : Catalog} {data : Json}
    (h : .null ∈ path.leaves catalog data) :
    ∃ items, path.SpreadsLast catalog data items ∧ .null ∈ items := by
  obtain ⟨segments⟩ := path
  cases segments with
  | nil => cases h
  | cons root rest =>
    rw [leaves, null_mem_dedupe_iff] at h
    rcases List.eq_nil_or_concat' rest with rfl | ⟨between, last, rfl⟩
    · obtain ⟨items, hget, hnull⟩ := (Json.null_mem_rootElements_iff _).1 h
      exact ⟨items, .root rfl hget, hnull⟩
    · -- the null is what the last step comes to, so it stands in a list that this step spreads
      rw [walk_concat, List.mem_flatMap] at h
      obtain ⟨value, hvalue, hproject⟩ := h
      obtain ⟨element, helement, position, hreaches⟩ := (mem_walk_iff ..).1 hvalue
      obtain ⟨hcollection, items, hget, hnull⟩ := (Json.null_mem_project_iff ..).1 hproject
      exact ⟨items, .step rfl helement hreaches hcollection hget, hnull⟩

theorem nodup_leaves (path : Path) (catalog : Catalog) (data : Json) :
    (path.leaves catalog data).Nodup := by
  rw [leaves]
  split
  · exact .nil
  · exact nodup_dedupe _

/-- There is a null among the leaves exactly if the last step spreads a list with a null in it, and
then it is one leaf. A null that stands for the root or for a member is none, and a null in a list
on the way leads to no leaf. -/
theorem null_mem_leaves_iff (path : Path) (catalog : Catalog) (data : Json) :
    (.null ∈ path.leaves catalog data ↔
      ∃ items, path.SpreadsLast catalog data items ∧ .null ∈ items) ∧
    (path.leaves catalog data).count .null ≤ 1 ∧
    ∀ segment rest position leaf, ¬ Json.Reaches catalog .null (segment :: rest) position leaf := by
  refine ⟨⟨exists_spreadsLast_of_null_mem_leaves, ?_⟩, ?_, Json.not_reaches_null catalog⟩
  · rintro ⟨items, hspreads, hnull⟩
    exact null_mem_leaves_of_spreadsLast hspreads hnull
  · exact List.nodup_iff_count_le_one.1 (path.nodup_leaves catalog data) .null

/-- A null in the list of the schools is a leaf, and a row without a name; so is a null in the list
of the students of a school. Where these lists are null themselves, nothing is listed. -/
theorem null_mem_leaves_schools :
    let path := Path.resolve .school [⟨⟨1⟩, "schools"⟩]
    let path' := Path.resolve .school [⟨⟨1⟩, "schools"⟩, ⟨⟨2⟩, "students"⟩]
    let data : Json := .object [("schools", .array [.null])]
    let school (students : Json) : Json :=
      .object [("schools", .array [.object [("students", students)]])]
    Json.read? "\x7b\"schools\":[null]\x7d" = some data ∧
      path.leaves .school data = [.null] ∧
      (Fetch.ready data).render path .flat .school =
        some (.flat [⟨"", FlatEntry.noAdditionalInfo⟩]) ∧
      path.leaves .school (.object [("schools", .null)]) = [] ∧
      path'.leaves .school (school (.array [.null])) = [.null] ∧
      path'.leaves .school (school .null) = [] := by
  intro path path' data school
  have hleaves : path.leaves .school data = [.null] := dedupe_concat [] .null
  have hwalk : walk .school (rootElements ((school (.array [.null])).get? "schools"))
      path'.segments.tail = [.null] := by decide +kernel
  have hwalk' : walk .school (rootElements ((school .null).get? "schools"))
      path'.segments.tail = [] := by decide +kernel
  refine ⟨by decide +kernel, hleaves, ?_, rfl, ?_, congrArg dedupe hwalk'⟩
  · show some (Rendering.flat ((path.leaves .school data).map FlatEntry.ofJson)) = _
    rw [hleaves]
    rfl
  · exact (congrArg dedupe hwalk).trans (dedupe_concat [] .null)

end Path

end HopQuery
