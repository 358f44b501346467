import HopQuery.Catalog.Error
import HopQuery.Chain.Hop

/-!
# Chain errors

Why a change of a chain is refused, and the wording of each case. How an identifier is shown is
left to the reader of the message.
-/

namespace HopQuery

/-- Why a change of a chain is refused. -/
inductive ChainError
  /-- No hop has the identifier. -/
  | unknownHop (hop : HopId)
  /-- A hop has the identifier already. -/
  | duplicateHop (hop : HopId)
  /-- The hop has no such field. -/
  | unknownField (hop : HopId) (field : String)
  /-- The hop has no such filter. -/
  | unknownFilter (hop : HopId) (filter : String)
  /-- The chain holds as many hops as are allowed. -/
  | tooLong (max : Nat)
  /-- The catalog does not know the kind. -/
  | catalog (error : CatalogError)
  deriving DecidableEq, Repr

/-- The wording of a chain error, with identifiers shown by `name`. -/
def ChainError.message (name : HopId → String) : ChainError → String
  | .unknownHop hop => s!"No hop with id {name hop} in the chain"
  | .duplicateHop hop => s!"Hop id {name hop} is already in use"
  | .unknownField hop field => s!"Hop {name hop} has no field `{field}`"
  | .unknownFilter hop filter => s!"Hop {name hop} has no filter `{filter}`"
  | .tooLong max => s!"Chain already holds the maximum of {max} hops"
  | .catalog error => error.message

end HopQuery
