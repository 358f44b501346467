import HopQuery.Table
import HopQuery.Catalog.Error

/-!
# Catalogs

A catalog tells, for each kind of entity, the fields that a hop of that kind may select and the
fields that it may filter on.

* `Entity`: one entry;
* `Catalog`: the entries under their kinds, in the order of registration;
* `Catalog.insert`, `Catalog.entity`, `Catalog.isCollection`: registering and looking up;
* `get?_insert`, `kinds_insert`, `ofList_concat`: what registering one more entity does;
* `Catalog.school`: the catalog that is used when none is given.
-/

namespace HopQuery

/-- What the catalog knows of one kind. -/
structure Entity where
  /-- The kind, as it is picked for a hop. -/
  kind : String
  /-- The selectable fields, in order. -/
  fields : List String
  /-- The filterable fields, in order. -/
  filters : List String
  /-- Whether the kind names a plural collection in responses. -/
  collection : Bool
  deriving DecidableEq, Repr

/-- The entities under their kinds. -/
structure Catalog where
  /-- The entries in the order in which their kinds were first registered. -/
  entities : Table String Entity
  deriving DecidableEq

namespace Catalog

/-- The catalog without entries. -/
def empty : Catalog :=
  ⟨.empty⟩

/-- The catalog with the entity registered, in place of an earlier one of its kind. -/
def insert (catalog : Catalog) (entity : Entity) : Catalog :=
  ⟨catalog.entities.insert entity.kind entity⟩

/-- The catalog of the entities, registered one after the other. -/
def ofList (entities : List Entity) : Catalog :=
  entities.foldl insert empty

/-- All kinds in the order of registration. -/
def kinds (catalog : Catalog) : List String :=
  catalog.entities.keys

/-- The entries in the order of registration. -/
def toList (catalog : Catalog) : List Entity :=
  catalog.entities.entries.map Prod.snd

/-- Whether the kind is registered. -/
def contains (catalog : Catalog) (kind : String) : Bool :=
  catalog.entities.contains kind

/-- The entry of the kind. -/
def entity (catalog : Catalog) (kind : String) : Except CatalogError Entity :=
  match catalog.entities.get? kind with
  | some entity => .ok entity
  | none => .error (.unknownKind kind)

/-- The selectable fields of the kind. -/
def fields (catalog : Catalog) (kind : String) : Except CatalogError (List String) :=
  (catalog.entity kind).map Entity.fields

/-- The filterable fields of the kind. -/
def filters (catalog : Catalog) (kind : String) : Except CatalogError (List String) :=
  (catalog.entity kind).map Entity.filters

/-- Whether a type name is a registered kind that names a plural collection. A renamed, singular
type is no kind, hence no collection. -/
def isCollection (catalog : Catalog) (typeName : String) : Bool :=
  match catalog.entities.get? typeName with
  | some entity => entity.collection
  | none => false

theorem get?_insert (catalog : Catalog) (entity : Entity) (kind : String) :
    (catalog.insert entity).entities.get? kind =
      if entity.kind = kind then some entity else catalog.entities.get? kind :=
  Table.get?_insert ..

theorem kinds_insert (catalog : Catalog) (entity : Entity) : (catalog.insert entity).kinds =
    if entity.kind ∈ catalog.kinds then catalog.kinds else catalog.kinds ++ [entity.kind] :=
  Table.keys_insert ..

theorem ofList_concat (entities : List Entity) (entity : Entity) :
    ofList (entities ++ [entity]) = (ofList entities).insert entity := by
  rw [ofList, List.foldl_append]
  rfl

/-- The catalog that is used when none is given: schools, groups, teachers and students. -/
def school : Catalog :=
  let place := ["id", "name"]
  let person := ["id", "firstName", "lastName", "userName"]
  ofList
    [⟨"schools", place, place, true⟩, ⟨"groups", place, place, true⟩,
      ⟨"teachers", person, person, true⟩, ⟨"students", person, person, true⟩]

end Catalog

end HopQuery
