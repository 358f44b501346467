import HopQuery.Catalog.Basic
import HopQuery.Text.Name

/-!
# Catalog listings

A catalog as it is written down, before anything is checked. Checking goes entry by
entry: the kind, then the fields from left to right, then the filters from left to right; of each
name first its grammar, then whether it occurred before. The first fault is the one reported.

* `Listing`, `Listing.Entry`: the data;
* `Listing.check`: the first fault, if any;
* `Listing.toCatalog`: the catalog of a listing without fault.
-/

namespace HopQuery

/-- One entity as listed. Without a list of filters every field may be filtered on. -/
structure Listing.Entry where
  kind : String
  fields : List String
  filters : Option (List String)
  collection : Bool
  deriving DecidableEq, Repr

/-- A catalog as listed. -/
structure Listing where
  entities : List Listing.Entry
  deriving DecidableEq, Repr

namespace Listing

/-- Checks that a name follows the grammar; the role is told in the error. -/
def checkName (name role : String) : Except CatalogError Unit :=
  if Text.isName name then .ok () else .error (.invalidName name role)

/-- Checks a list of names from left to right: each follows the grammar and is not among those
before it, of which `seen` holds the ones before the list. -/
def checkNames (role : String) (duplicate : String → CatalogError) (seen : List String) :
    List String → Except CatalogError Unit
  | [] => .ok ()
  | name :: rest => do
    checkName name role
    if name ∈ seen then throw (duplicate name)
    checkNames role duplicate (name :: seen) rest

/-- The entity of an entry. -/
def Entry.entity (entry : Entry) : Entity where
  kind := entry.kind
  fields := entry.fields
  filters := entry.filters.getD entry.fields
  collection := entry.collection

/-- Checks one entry, given the kinds before it. -/
def Entry.check (seen : List String) (entry : Entry) : Except CatalogError Unit := do
  checkName entry.kind "entity kind"
  if entry.kind ∈ seen then throw (.duplicateKind entry.kind)
  checkNames "field" (.duplicateField entry.kind) [] entry.fields
  checkNames "filter" (.duplicateFilter entry.kind) [] (entry.filters.getD [])

/-- Checks the entries in order, given the kinds before them. -/
def checkEntries (seen : List String) : List Entry → Except CatalogError Unit
  | [] => .ok ()
  | entry :: rest => do
    entry.check seen
    checkEntries (entry.kind :: seen) rest

/-- The first fault of the listing. -/
def check (listing : Listing) : Except CatalogError Unit :=
  checkEntries [] listing.entities

/-- The catalog of the listing, if the listing has no fault. -/
def toCatalog (listing : Listing) : Except CatalogError Catalog := do
  listing.check
  return .ofList (listing.entities.map Entry.entity)

end Listing

end HopQuery
