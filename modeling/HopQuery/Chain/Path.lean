import HopQuery.Chain.Hop
import HopQuery.Rules

/-!
# Paths

The types that are written for the hops of a chain. The first hop keeps its kind; each later one
is renamed by the type, not the kind, of the hop before it.

* `Segment`: a hop with its type;
* `Path.resolve`: one segment per hop, in order;
* `Path.typeNames`, `Path.typeOf?`: looking into a path.
-/

namespace HopQuery

/-- A hop with the type that is written for it. -/
structure Segment where
  hop : HopId
  typeName : String
  deriving DecidableEq, Repr

/-- The types written for a sequence of hops, outermost first. -/
structure Path where
  segments : List Segment
  deriving DecidableEq, Repr

namespace Path

/-- The segments of hops that follow a type. -/
def resolveAfter (rules : Rules) (previous : String) : List Hop → List Segment
  | [] => []
  | hop :: rest =>
    let typeName := rules.resolve previous hop.kind
    ⟨hop.id, typeName⟩ :: resolveAfter rules typeName rest

/-- The path of the hops. -/
def resolve (rules : Rules) : List Hop → Path
  | [] => ⟨[]⟩
  | hop :: rest => ⟨⟨hop.id, hop.kind⟩ :: resolveAfter rules hop.kind rest⟩

/-- The types in order. -/
def typeNames (path : Path) : List String :=
  path.segments.map Segment.typeName

/-- The type of the first segment with the identifier. -/
def typeOf? (path : Path) (hop : HopId) : Option String :=
  (path.segments.find? (·.hop = hop)).map Segment.typeName

end Path

end HopQuery
