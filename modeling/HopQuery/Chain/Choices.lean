/-!
# Choices of a hop

What a hop selects and how it filters: for each field of its kind whether it is included, and for
each filter of its kind a value, the empty one meaning that the filter is off. Both keep the order
of the catalog. A name that the catalog lists twice stands twice and is changed at both places.

* `FieldSelection`: `allIncluded`, `toggle?`, `isIncluded?`, `included`;
* `FilterValues`: `blank`, `set?`, `get?`, `active`.
-/

namespace HopQuery

/-- For each field of a hop, in the order of the catalog, whether it is included. -/
structure FieldSelection where
  entries : List (String × Bool)
  deriving DecidableEq, Repr

namespace FieldSelection

/-- All the fields, each included. -/
def allIncluded (fields : List String) : FieldSelection :=
  ⟨fields.map (·, true)⟩

/-- Whether there is a field of the name. -/
def contains (selection : FieldSelection) (name : String) : Bool :=
  selection.entries.any (·.1 == name)

/-- The selection with the field flipped, if there is one of the name. -/
def toggle? (selection : FieldSelection) (name : String) : Option FieldSelection :=
  if selection.contains name then
    some ⟨selection.entries.map (fun (field, included) =>
      (field, if field = name then !included else included))⟩
  else none

/-- Whether the field is included, if there is one of the name. -/
def isIncluded? (selection : FieldSelection) (name : String) : Option Bool :=
  selection.entries.lookup name

/-- The names of the included fields. -/
def included (selection : FieldSelection) : List String :=
  selection.entries.filterMap (fun (field, included) => if included then some field else none)

end FieldSelection

/-- For each filter of a hop, in the order of the catalog, its value. -/
structure FilterValues where
  entries : List (String × String)
  deriving DecidableEq, Repr

namespace FilterValues

/-- All the filters, each off. -/
def blank (filters : List String) : FilterValues :=
  ⟨filters.map (·, "")⟩

/-- Whether there is a filter of the name. -/
def contains (values : FilterValues) (name : String) : Bool :=
  values.entries.any (·.1 == name)

/-- The values with the filter set, if there is one of the name. -/
def set? (values : FilterValues) (name value : String) : Option FilterValues :=
  if values.contains name then
    some ⟨values.entries.map (fun (filter, old) => (filter, if filter = name then value else old))⟩
  else none

/-- The value of the filter, if there is one of the name. -/
def get? (values : FilterValues) (name : String) : Option String :=
  values.entries.lookup name

/-- The filters that are on, each with its value. -/
def active (values : FilterValues) : List (String × String) :=
  values.entries.filter (fun (_, value) => value ≠ "")

end FilterValues

end HopQuery
