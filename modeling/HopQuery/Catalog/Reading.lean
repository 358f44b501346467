import HopQuery.Catalog.Listing
import HopQuery.Rules
import HopQuery.Yaml.Decode

/-!
# Catalogs and rules in YAML

A catalog is a record with a list `entities`; each entity has a `kind`, `fields`, and optionally
`filters` and `collection`, which is true if absent. Rules are a mapping from preceding types to
mappings from kinds to types; under a repeated key the last value counts. Unknown keys of a record
are passed over, a known one may come once.

* `Listing.read`: the listing of a text;
* `Rules.read`: the rules of a text.
-/

namespace HopQuery

open Yaml (Node Decoding)

namespace Listing

/-- An entity of which some fields have been read. -/
structure PartialEntry where
  kind : Option String
  fields : Option (List String)
  filters : Option (Option (List String))
  collection : Option Bool

/-- The partial entity with one more field read. -/
def PartialEntry.field (entry : PartialEntry) (name : String) (value : Node) :
    Decoding PartialEntry :=
  match name with
  | "kind" => return { entry with kind := ← Decoding.once entry.kind (Decoding.text value) }
  | "fields" => do
    let fields ← Decoding.once entry.fields (Decoding.list Decoding.text value)
    return { entry with fields := fields }
  | "filters" => do
    let filters ← Decoding.once entry.filters
      (Decoding.optional (Decoding.list Decoding.text) value)
    return { entry with filters := filters }
  | "collection" => do
    let collection ← Decoding.once entry.collection (Decoding.flag value)
    return { entry with collection := collection }
  | _ => return entry

/-- The entity with the fields that were read; `kind` and `fields` have to be there. -/
def PartialEntry.complete? (entry : PartialEntry) : Option Entry := do
  let kind ← entry.kind
  let fields ← entry.fields
  return ⟨kind, fields, entry.filters.getD none, entry.collection.getD true⟩

/-- Reads an entity. -/
def decodeEntry (node : Node) : Decoding Entry := do
  let entry ← Decoding.record ⟨none, none, none, none⟩ PartialEntry.field node
  Decoding.ofOption entry.complete?

/-- Reads a listing. -/
def decode (node : Node) : Decoding Listing := do
  let entities ← Decoding.record none (fun entities name value =>
    if name = "entities" then Decoding.once entities (Decoding.list decodeEntry value)
    else return entities) node
  return ⟨← Decoding.ofOption entities⟩

/-- The listing of a text. -/
def read (text : String) : Except CatalogError Listing :=
  match Yaml.decodeText? text decode with
  | some listing => .ok listing
  | none => .error (.malformed .catalog)

end Listing

namespace Rules

/-- Reads a table whose values are read by `value`. -/
def decodeTable {α : Type} (value : Node → Decoding α) (node : Node) : Decoding (Table String α) :=
  Decoding.record .empty (fun table name node => return table.insert name (← value node)) node

/-- Reads rules. -/
def decode (node : Node) : Decoding Rules := do
  return ⟨← decodeTable (decodeTable Decoding.text) node⟩

/-- The rules of a text. -/
def read (text : String) : Except CatalogError Rules :=
  match Yaml.decodeText? text decode with
  | some rules => .ok rules
  | none => .error (.malformed .rules)

end Rules

end HopQuery
