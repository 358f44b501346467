import HopQuery.Chain.Basic
import HopQuery.Selection.Basic

/-!
# Queries of chains

The query of a chain: its path gives the types, the choices of each hop give the fields and the
arguments.

* `Selection.ofChain`: the selection of a chain along a path, level by level as far as both go;
* `Query.compile`: the query of a chain, with the path it follows.
-/

namespace HopQuery

/-- Why a chain has no query. -/
inductive QueryError
  /-- There is no hop. -/
  | emptyChain
  /-- The hop has no choices beside it. -/
  | missingChoices (hop : HopId)
  deriving DecidableEq, Repr

/-- The wording of a query error, with identifiers shown by `name`. -/
def QueryError.message (name : HopId → String) : QueryError → String
  | .emptyChain => "Cannot compile an empty chain (add at least one hop)"
  | .missingChoices hop => s!"Hop {name hop} has no field/filter state (chain state is inconsistent)"

/-- The level of a hop written as the type: its included fields and its active filters. -/
def Level.ofHop (chain : Chain) (hop : Hop) (typeName : String) : Except QueryError Level :=
  match chain.fields.get? hop.id, chain.filters.get? hop.id with
  | some selection, some values => .ok ⟨typeName, values.active, selection.included⟩
  | _, _ => .error (.missingChoices hop.id)

/-- The levels of hops along the segments, as far as both go. -/
def Level.ofHops (chain : Chain) : List Hop → List Segment → Except QueryError (List Level)
  | hop :: hops, segment :: segments => do
    let level ← Level.ofHop chain hop segment.typeName
    let rest ← Level.ofHops chain hops segments
    return level :: rest
  | _, _ => .ok []

/-- The selection of the chain along the path. -/
def Selection.ofChain (chain : Chain) (path : Path) : Except QueryError Selection := do
  let levels ← Level.ofHops chain chain.hops path.segments
  match Selection.ofLevels? levels with
  | none => throw .emptyChain
  | some selection => return selection

/-- The text of a query. -/
structure Query where
  text : String
  deriving DecidableEq, Repr

namespace Query

/-- The query of the chain under the rules, with the path it follows. -/
def compileWithPath (chain : Chain) (rules : Rules) : Except QueryError (Query × Path) := do
  if chain.hops.isEmpty then throw .emptyChain
  let path := chain.path rules
  let selection ← Selection.ofChain chain path
  return (⟨selection.document⟩, path)

/-- The query of the chain under the rules. -/
def compile (chain : Chain) (rules : Rules) : Except QueryError Query :=
  (compileWithPath chain rules).map Prod.fst

end Query

end HopQuery
