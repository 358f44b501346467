import HopQuery.Selection.Query
import HopQuery.Shape.Render

/-!
# Sessions

A session holds a chain that is being edited, the hop whose editor is open, the shape mode, and
the last query with what has become of it. Adding or removing a hop and toggling the mode drop the
query and its outcome; toggling a field and setting a filter leave both as they are, and show
their effect in the next query only.

* `Session`: the state;
* `Session.addHop`, `removeHop`, `toggleField`, `setFilter`, `selectHop`, `toggleMode`: editing;
* `Session.search`, `record`, `run`: asking;
* `Session.render`: what is shown.
-/

namespace HopQuery

/-- The state of a session. -/
structure Session where
  catalog : Catalog
  rules : Rules
  /-- The number of hops that the chain may hold. -/
  maxHops : Nat
  chain : Chain
  /-- The hop whose editor is open. -/
  selected : Option HopId
  mode : ShapeMode
  /-- The query that was made last and is still up to date. -/
  compiled : Option Query
  /-- What has become of the query. -/
  fetch : Fetch

namespace Session

/-- A session with an empty chain. -/
def start (catalog : Catalog) (rules : Rules) (maxHops : Nat) (mode : ShapeMode) : Session where
  catalog := catalog
  rules := rules
  maxHops := maxHops
  chain := .empty
  selected := none
  mode := mode
  compiled := none
  fetch := .pending

/-- The path of the chain. -/
def path (s : Session) : Path :=
  s.chain.path s.rules

/-- The kinds that may be added. -/
def addableKinds (s : Session) : List String :=
  s.chain.addableKinds s.catalog

/-- The session without query and outcome. -/
def invalidate (s : Session) : Session :=
  { s with compiled := none, fetch := .pending }

/-- Adds a hop of the kind at the end of the chain, under a new identifier. -/
def addHop (s : Session) (kind : String) (id : HopId) : Except ChainError Session :=
  if s.maxHops ≤ s.chain.hops.length then .error (.tooLong s.maxHops)
  else do
    let chain ← s.chain.append s.catalog kind id
    return { s with chain := chain }.invalidate

/-- Removes a hop, and closes its editor. -/
def removeHop (s : Session) (id : HopId) : Except ChainError Session := do
  let chain ← s.chain.remove id
  let selected := if s.selected = some id then none else s.selected
  return { s with chain := chain, selected := selected }.invalidate

/-- Flips a field of a hop. -/
def toggleField (s : Session) (id : HopId) (field : String) : Except ChainError Session := do
  let chain ← s.chain.toggleField id field
  return { s with chain := chain }

/-- Sets a filter of a hop. -/
def setFilter (s : Session) (id : HopId) (filter value : String) : Except ChainError Session := do
  let chain ← s.chain.setFilter id filter value
  return { s with chain := chain }

/-- Opens the editor of a hop, or closes it if it is open. -/
def selectHop (s : Session) (id : HopId) : Except ChainError Session :=
  if (s.chain.hop? id).isSome then
    .ok { s with selected := if s.selected = some id then none else some id }
  else .error (.unknownHop id)

/-- Goes over to the other mode. -/
def toggleMode (s : Session) : Session :=
  { s with mode := s.mode.toggled }.invalidate

/-- Makes the query of the chain, and waits for its outcome. -/
def search (s : Session) : Except QueryError (Query × Session) := do
  let query ← Query.compile s.chain s.rules
  return (query, { s with compiled := some query, fetch := .pending })

/-- Notes what has become of the query; the last note counts. -/
def record (s : Session) (fetch : Fetch) : Session :=
  { s with fetch := fetch }

/-- Makes the query of the chain and notes what `answer` says to it. -/
def run (s : Session) (answer : Query → Fetch) : Except QueryError Session := do
  let (query, searched) ← s.search
  return searched.record (answer query)

/-- What is shown: nothing without a query that is up to date and an outcome with data. -/
def render (s : Session) : Option Rendering :=
  match s.compiled with
  | none => none
  | some _ => s.fetch.render s.path s.mode s.catalog

end Session

end HopQuery
