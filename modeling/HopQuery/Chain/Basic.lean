import HopQuery.Catalog.Basic
import HopQuery.Chain.Choices
import HopQuery.Chain.Error
import HopQuery.Chain.Path

/-!
# Chains

A chain is a sequence of hops, the first one outermost, with the choices of each hop beside it.
It is a value: every change gives a new chain, or an error.

* `Chain`: the hops, and the selections and filters under the identifiers of the hops;
* `Chain.append`, `Chain.remove`, `Chain.toggleField`, `Chain.setFilter`: the changes;
* `Chain.hop?`, `Chain.path`, `Chain.addableKinds`: looking into a chain.
-/

namespace HopQuery

/-- A sequence of hops with their choices. -/
structure Chain where
  /-- The hops, outermost first. -/
  hops : List Hop
  /-- What each hop selects. -/
  fields : Table HopId FieldSelection
  /-- How each hop filters. -/
  filters : Table HopId FilterValues
  deriving DecidableEq

namespace Chain

/-- The chain without hops. -/
def empty : Chain :=
  ⟨[], .empty, .empty⟩

/-- The hop with the identifier. -/
def hop? (chain : Chain) (id : HopId) : Option Hop :=
  chain.hops.find? (·.id = id)

/-- The path of the chain under the rules. -/
def path (chain : Chain) (rules : Rules) : Path :=
  .resolve rules chain.hops

/-- The chain with a hop of the kind at its end, under an identifier that no hop has: every field
included, every filter off. -/
def append (chain : Chain) (catalog : Catalog) (kind : String) (id : HopId) :
    Except ChainError Chain :=
  if (chain.hop? id).isSome then .error (.duplicateHop id)
  else match catalog.entity kind with
    | .error _ => .error (.catalog (.unknownKindWhile kind "While appending a hop"))
    | .ok entity => .ok
      { hops := chain.hops ++ [⟨id, kind⟩]
        fields := chain.fields.insert id (.allIncluded entity.fields)
        filters := chain.filters.insert id (.blank entity.filters) }

/-- The chain without the hop and its choices. -/
def remove (chain : Chain) (id : HopId) : Except ChainError Chain :=
  if (chain.hop? id).isSome then .ok
    { hops := chain.hops.filter (·.id ≠ id)
      fields := chain.fields.erase id
      filters := chain.filters.erase id }
  else .error (.unknownHop id)

/-- The chain with a field of a hop flipped. -/
def toggleField (chain : Chain) (id : HopId) (field : String) : Except ChainError Chain :=
  match chain.fields.get? id with
  | none => .error (.unknownHop id)
  | some selection =>
    match selection.toggle? field with
    | none => .error (.unknownField id field)
    | some toggled => .ok { chain with fields := chain.fields.insert id toggled }

/-- The chain with a filter of a hop set. -/
def setFilter (chain : Chain) (id : HopId) (filter value : String) : Except ChainError Chain :=
  match chain.filters.get? id with
  | none => .error (.unknownHop id)
  | some values =>
    match values.set? filter value with
    | none => .error (.unknownFilter id filter)
    | some updated => .ok { chain with filters := chain.filters.insert id updated }

/-- The kinds that may come next: all of the catalog but the one of the last hop. -/
def addableKinds (chain : Chain) (catalog : Catalog) : List String :=
  catalog.kinds.filter (fun kind => chain.hops.getLast?.map Hop.kind ≠ some kind)

end Chain

end HopQuery
