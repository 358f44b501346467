import HopQuery.Proofs.Json.Without
import HopQuery.Proofs.Shape.Nested

/-!
# The members that tell types

The member that tells the type of an object is passed over wherever an object is shown, but a list
that stands in a list is no object: it is shown as a leaf with its whole text, and the objects in
it with all their members. The nested view of data with such members is the view of the data
without them, unless one of them stands in a list that is shown so.

* `NestedItem.TypeWritten`: whether the item of an element has such a list;
* `ofElement_without_eq_iff`: the item is the same without the members unless it has one;
* `render_nested_without_eq_iff`: so is the view;
* `not_render_nested_without_eq`: a view that is not.
-/

namespace HopQuery

namespace NestedItem

/-- Somewhere in the item of the element the text of a list is shown in which an object tells its
type. -/
inductive TypeWritten : Json → Prop
  /-- The element is the list. -/
  | here {items : List Json} (h : Json.HasMember typeMember (.array items)) :
      TypeWritten (.array items)
  /-- The text is shown in the branch of a member. -/
  | inside {members : List (String × Json)} {member : String × Json} {element : Json}
      (hmem : member ∈ members) (hname : member.1 ≠ typeMember)
      (helement : element ∈ rootElements (some member.2)) (h : TypeWritten element) :
      TypeWritten (.object members)

/-! ### One level of a view -/

/-- A list has the same item only if nothing is taken away from it. -/
theorem ofElement_without_array_eq_iff (items : List Json) :
    ofElement (Json.without typeMember (.array items)) = ofElement (.array items) ↔
      ¬ Json.HasMember typeMember (.array items) := by
  rw [← Json.text_without_eq_iff]
  simp [Json.without, ofElement, leafText]

/-- An object has the same item if its members have the same entries. -/
theorem ofElement_without_object_eq_iff (members : List (String × Json)) :
    ofElement (Json.without typeMember (.object members)) = ofElement (.object members) ↔
      ∀ member ∈ members, member.1 ≠ typeMember →
        ofMember member.1 (member.2.without typeMember) = ofMember member.1 member.2 := by
  simp [Json.without, ofElement, ofMembers_eq_map, Json.withoutMembers_eq_map, List.filter_map,
    Function.comp_def]

/-- A member has the same entry if the elements in it have the same items. -/
theorem ofMember_without_eq_iff (name : String) (value : Json) :
    ofMember name (value.without typeMember) = ofMember name value ↔
      ∀ element ∈ rootElements (some value),
        ofElement (element.without typeMember) = ofElement element := by
  cases value with
  | array items =>
    simp [Json.without, Json.withoutItems_eq_map, ofMember, ofElements_eq_map, rootElements]
  | object members => simp [Json.without, ofMember, ofElement, rootElements]
  | _ => simp [Json.without, rootElements]

/-! ### All levels -/

theorem ofElement_without_ne {element : Json} (h : TypeWritten element) :
    ofElement (element.without typeMember) ≠ ofElement element := by
  induction h with
  | here hhas => exact fun heq => (ofElement_without_array_eq_iff _).1 heq hhas
  | inside hmem hname helement _ ih =>
    intro heq
    have hmember := (ofElement_without_object_eq_iff _).1 heq _ hmem hname
    exact ih ((ofMember_without_eq_iff ..).1 hmember _ helement)

/-- Without the members that tell types, the item of an element is the same, unless the text of a
list is shown in it that has such a member. -/
theorem ofElement_without_eq_iff (element : Json) :
    ofElement (element.without typeMember) = ofElement element ↔ ¬ TypeWritten element := by
  refine ⟨fun heq h => ofElement_without_ne h heq, fun h => ?_⟩
  -- a member may hold the elements of a list, so they are taken along with the value itself
  suffices hboth : (¬ TypeWritten element →
      ofElement (element.without typeMember) = ofElement element) ∧
      ∀ inner ∈ rootElements (some element), ¬ TypeWritten inner →
        ofElement (inner.without typeMember) = ofElement inner from hboth.1 h
  clear h
  induction element using Json.induct with
  | array items ih =>
    refine ⟨fun h => (ofElement_without_array_eq_iff items).2 fun hhas => h (.here hhas), ?_⟩
    exact fun item hitem => (ih item hitem).1
  | object members ih =>
    have hobject : ¬ TypeWritten (.object members) →
        ofElement (Json.without typeMember (.object members)) = ofElement (.object members) := by
      intro h
      refine (ofElement_without_object_eq_iff members).2 fun member hmember hname => ?_
      refine (ofMember_without_eq_iff ..).2 fun inner hinner => ?_
      exact (ih member hmember).2 inner hinner fun hwritten =>
        h (.inside hmember hname hinner hwritten)
    refine ⟨hobject, fun inner hinner => ?_⟩
    rw [List.mem_singleton.1 hinner]
    exact hobject
  | null => exact ⟨fun _ => rfl, fun inner hinner => nomatch hinner⟩
  | _ =>
    refine ⟨fun _ => rfl, fun inner hinner _ => ?_⟩
    rw [List.mem_singleton.1 hinner]
    rfl

/-! ### The whole view -/

theorem rootElements_without (root : Option Json) :
    rootElements (root.map (Json.without typeMember)) =
      (rootElements root).map (Json.without typeMember) := by
  cases root with
  | none => rfl
  | some collection =>
    cases collection with
    | array items => exact Json.withoutItems_eq_map items
    | _ => rfl

theorem ofRoot_without_eq_iff (root : Option Json) :
    ofRoot (root.map (Json.without typeMember)) = ofRoot root ↔
      ∀ element ∈ rootElements root, ¬ TypeWritten element := by
  simp only [ofRoot_eq_map, rootElements_without, List.map_map, List.map_inj_left,
    Function.comp_apply, ofElement_without_eq_iff]

end NestedItem

open NestedItem

/-- The nested view of data is the view of the data without the members that tell types, unless it
shows the text of a list that has such a member; the first type of the path is no such member. -/
theorem render_nested_without_eq_iff (data : Json) (path : Path) (catalog : Catalog)
    (hpath : ∀ root ∈ path.segments.head?, root.typeName ≠ typeMember) :
    (Fetch.ready (data.without typeMember)).render path .nested catalog =
        (Fetch.ready data).render path .nested catalog ↔
      ∀ root ∈ path.segments.head?,
        ∀ element ∈ rootElements (data.get? root.typeName), ¬ TypeWritten element := by
  obtain ⟨segments⟩ := path
  cases segments with
  | nil => simp [Fetch.render, Json.render]
  | cons root rest =>
    have hroot : root.typeName ≠ typeMember := hpath root rfl
    simp only [Fetch.render, Json.render_nested, Option.some.injEq, Rendering.nested.injEq,
      Json.get?_without hroot, ofRoot_without_eq_iff, List.head?_cons, Option.mem_def,
      forall_eq']

/-- A school that tells its type. -/
def typedSchool : Json :=
  .object [("__typename", .string "School"), ("id", .number (.whole 1))]

/-- The path of a chain of schools. -/
def schoolsPath : Path :=
  .resolve .school [⟨⟨1⟩, "schools"⟩]

/-- In a list of schools the type of a school is not shown. -/
theorem render_nested_without_eq_school :
    (∀ root ∈ schoolsPath.segments.head?, root.typeName ≠ typeMember) ∧
      let data := Json.object [("schools", .array [typedSchool])]
      data.without typeMember ≠ data ∧
        (Fetch.ready (data.without typeMember)).render schoolsPath .nested .school =
          (Fetch.ready data).render schoolsPath .nested .school := by
  have hpath : ∀ root ∈ schoolsPath.segments.head?, root.typeName ≠ typeMember := by
    decide +kernel
  refine ⟨hpath, by decide +kernel, (render_nested_without_eq_iff _ _ _ hpath).2 ?_⟩
  intro root hroot element helement
  cases hroot
  -- a school has no members with parts
  obtain rfl : element = typedSchool := List.mem_singleton.1 helement
  rintro (_ | ⟨hmember, hname, hinner, hwritten⟩)
  obtain rfl | hmember := List.mem_cons.1 hmember
  · exact hname rfl
  · obtain rfl := List.mem_singleton.1 hmember
    obtain rfl := List.mem_singleton.1 hinner
    cases hwritten

/-- In a list of lists of schools it is: the inner list is shown as it is written. -/
theorem not_render_nested_without_eq : ¬ ∀ (data : Json) (path : Path) (catalog : Catalog),
    (∀ root ∈ path.segments.head?, root.typeName ≠ typeMember) →
      (Fetch.ready (data.without typeMember)).render path .nested catalog =
        (Fetch.ready data).render path .nested catalog := by
  intro h
  have hpath : ∀ root ∈ schoolsPath.segments.head?, root.typeName ≠ typeMember := by
    decide +kernel
  have hview := h (.object [("schools", .array [.array [typedSchool]])]) schoolsPath .school hpath
  simp only [Fetch.render, schoolsPath, Path.resolve, Json.render_nested, Option.some.injEq,
    Rendering.nested.injEq] at hview
  rw [Json.get?_without (by decide), ofRoot_without_eq_iff] at hview
  have hhas : Json.HasMember typeMember (.array [typedSchool]) :=
    .item (List.mem_singleton.2 rfl) (.here List.mem_cons_self)
  exact hview (.array [typedSchool]) (List.mem_singleton.2 rfl) (.here hhas)

end HopQuery
