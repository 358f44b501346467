import HopQuery.Proofs.Session.Operation

/-!
# Operations in place

An operation as the changes that it makes in place, one after the other, until it is done or fails
midway. What has been changed before a failure stays changed. Written so, an operation still leaves
everything as it was when it fails: all that can fail comes before all that is changed.

* `Desk`, `InPlace`: a session that is changed in place, with an executor that notes what it is
  asked;
* `Desk.perform`: the operations, step by step;
* `Desk.outcome_perform`: they do what the operations on sessions as values do, and nothing if they
  fail.
-/

namespace HopQuery

/-- A session that is changed in place, and the queries that its executor has been asked, oldest
first. -/
structure Desk where
  session : Session
  asked : List Query

/-- A computation at a desk. If it fails, the changes that it has made stay. -/
abbrev InPlace (ε α : Type) := ExceptT ε (StateM Desk) α

namespace Desk

variable {ε : Type}

/-! ### Single changes -/

/-- The session as it is now. -/
def current : InPlace ε Session :=
  return (← get).session

/-- Changes the session. -/
def change (f : Session → Session) : InPlace ε Unit :=
  modify fun desk => { desk with session := f desk.session }

/-- Asks the executor, which answers by `answer`. -/
def ask (answer : Query → Fetch) (query : Query) : InPlace ε Fetch := do
  modify fun desk => { desk with asked := desk.asked ++ [query] }
  return answer query

/-! ### The operations -/

def addHop (kind : String) (id : HopId) : InPlace ChainError Unit := do
  let s ← current
  if s.maxHops ≤ s.chain.hops.length then throw (.tooLong s.maxHops)
  let chain ← ofExcept (s.chain.append s.catalog kind id)
  change ({ · with chain := chain })
  change Session.invalidate

def removeHop (id : HopId) : InPlace ChainError Unit := do
  let s ← current
  let chain ← ofExcept (s.chain.remove id)
  change ({ · with chain := chain })
  if s.selected = some id then change ({ · with selected := none })
  change Session.invalidate

def toggleField (id : HopId) (field : String) : InPlace ChainError Unit := do
  let chain ← ofExcept ((← current).chain.toggleField id field)
  change ({ · with chain := chain })

def setFilter (id : HopId) (filter value : String) : InPlace ChainError Unit := do
  let chain ← ofExcept ((← current).chain.setFilter id filter value)
  change ({ · with chain := chain })

def selectHop (id : HopId) : InPlace ChainError Unit := do
  if ((← current).chain.hop? id).isNone then throw (.unknownHop id)
  let selected := if (← current).selected = some id then none else some id
  change ({ · with selected := selected })

def toggleMode : InPlace ε Unit := do
  change fun s => { s with mode := s.mode.toggled }
  change Session.invalidate

def search : InPlace QueryError Query := do
  let s ← current
  let query ← ofExcept (Query.compile s.chain s.rules)
  change ({ · with fetch := .pending })
  change ({ · with compiled := some query })
  return query

def record (fetch : Fetch) : InPlace ε Unit :=
  change ({ · with fetch := fetch })

def run (answer : Query → Fetch) : InPlace QueryError Unit := do
  let query ← search
  record (← ask answer query)

/-- An operation, step by step. -/
def perform : Operation → InPlace Failure Unit
  | .addHop kind id => (addHop kind id).adapt .chain
  | .removeHop id => (removeHop id).adapt .chain
  | .toggleField id field => (toggleField id field).adapt .chain
  | .setFilter id filter value => (setFilter id filter value).adapt .chain
  | .selectHop id => (selectHop id).adapt .chain
  | .toggleMode => toggleMode
  | .search => do
    let _ ← search.adapt .query
    return
  | .record fetch => record fetch
  | .run answer => (run answer).adapt .query

end Desk

/-! ### What becomes of the desk -/

/-- What a computation comes to at a desk, and the desk after it. -/
def InPlace.outcome {ε α : Type} (x : InPlace ε α) (d : Desk) : Except ε α × Desk :=
  x.run.run d

theorem InPlace.outcome_bind {ε α β : Type} (x : InPlace ε α) (f : α → InPlace ε β) (d : Desk) :
    outcome (x >>= f) d = match x.outcome d with
      | (.ok a, mid) => (f a).outcome mid
      | (.error error, mid) => (.error error, mid) := by
  unfold outcome
  rw [ExceptT.run_bind, StateT.run_bind]
  rcases x.run.run d with ⟨_ | _, mid⟩ <;> rfl

theorem InPlace.outcome_adapt {ε δ α : Type} (f : ε → δ) (x : InPlace ε α) (d : Desk) :
    outcome (x.adapt f) d = ((x.outcome d).1.mapError f, (x.outcome d).2) := rfl

namespace Desk

/-- What an operation comes to whose outcome on the session is given, and the desk after it: with
the new session, or as it was. -/
def settle {ε : Type} (d : Desk) : Except ε Session → Except ε Unit × Desk
  | .ok next => (.ok (), { d with session := next })
  | .error error => (.error error, d)

theorem settle_mapError {ε δ : Type} (d : Desk) (f : ε → δ) (x : Except ε Session) :
    d.settle (x.mapError f) = ((d.settle x).1.mapError f, (d.settle x).2) := by
  cases x <;> rfl

variable (d : Desk)

theorem outcome_current_bind {ε α : Type} (f : Session → InPlace ε α) :
    (current >>= f).outcome d = (f d.session).outcome d := rfl

theorem outcome_addHop (kind : String) (id : HopId) :
    (addHop kind id).outcome d = d.settle (d.session.addHop kind id) := by
  rw [addHop, outcome_current_bind, Session.addHop]
  split
  · rfl
  · cases d.session.chain.append d.session.catalog kind id <;> rfl

theorem outcome_removeHop (id : HopId) :
    (removeHop id).outcome d = d.settle (d.session.removeHop id) := by
  rw [removeHop, outcome_current_bind, Session.removeHop]
  cases d.session.chain.remove id with
  | error error => rfl
  | ok chain =>
    by_cases h : d.session.selected = some id
    · rw [if_pos h, if_pos h]
      rfl
    · rw [if_neg h, if_neg h]
      rfl

theorem outcome_toggleField (id : HopId) (field : String) :
    (toggleField id field).outcome d = d.settle (d.session.toggleField id field) := by
  rw [toggleField, outcome_current_bind, Session.toggleField]
  cases d.session.chain.toggleField id field <;> rfl

theorem outcome_setFilter (id : HopId) (filter value : String) :
    (setFilter id filter value).outcome d = d.settle (d.session.setFilter id filter value) := by
  rw [setFilter, outcome_current_bind, Session.setFilter]
  cases d.session.chain.setFilter id filter value <;> rfl

theorem outcome_selectHop (id : HopId) :
    (selectHop id).outcome d = d.settle (d.session.selectHop id) := by
  rw [selectHop, outcome_current_bind, Session.selectHop]
  cases d.session.chain.hop? id <;> rfl

theorem outcome_search : search.outcome d = match d.session.search with
    | .ok (query, next) => (.ok query, { d with session := next })
    | .error error => (.error error, d) := by
  rw [search, outcome_current_bind, Session.search]
  cases Query.compile d.session.chain d.session.rules <;> rfl

theorem outcome_run (answer : Query → Fetch) :
    (run answer).outcome d = match d.session.search with
      | .ok (query, next) => (.ok (), ⟨next.record (answer query), d.asked ++ [query]⟩)
      | .error error => (.error error, d) := by
  rw [run, InPlace.outcome_bind, outcome_search]
  cases d.session.search <;> rfl

end Desk

/-- The queries that the executor is asked in an operation that succeeds, given the session after
it: a run asks for the query that it keeps. -/
def Operation.asks (next : Session) : Operation → List Query
  | run _ => next.compiled.toList
  | _ => []

/-- Step by step an operation does what it does on sessions as values. If it fails, the desk is as it
was before, and the executor has been asked nothing. -/
theorem Desk.outcome_perform (d : Desk) (op : Operation) :
    (perform op).outcome d = match d.session.perform op with
      | .ok next => (.ok (), ⟨next, d.asked ++ op.asks next⟩)
      | .error failure => (.error failure, d) := by
  have hsettle : ∀ x : Except Failure Session, d.settle x = match x with
      | .ok next => (.ok (), ⟨next, d.asked ++ []⟩)
      | .error failure => (.error failure, d) := by
    intro x
    cases x <;> simp [settle]
  cases op with
  | addHop kind id =>
    rw [perform, InPlace.outcome_adapt, outcome_addHop, ← settle_mapError]
    exact hsettle _
  | removeHop id =>
    rw [perform, InPlace.outcome_adapt, outcome_removeHop, ← settle_mapError]
    exact hsettle _
  | toggleField id field =>
    rw [perform, InPlace.outcome_adapt, outcome_toggleField, ← settle_mapError]
    exact hsettle _
  | setFilter id filter value =>
    rw [perform, InPlace.outcome_adapt, outcome_setFilter, ← settle_mapError]
    exact hsettle _
  | selectHop id =>
    rw [perform, InPlace.outcome_adapt, outcome_selectHop, ← settle_mapError]
    exact hsettle _
  | toggleMode => exact hsettle (.ok d.session.toggleMode)
  | search =>
    rw [perform, InPlace.outcome_bind, InPlace.outcome_adapt, outcome_search, Session.perform]
    cases d.session.search with
    | error error => rfl
    | ok result => exact hsettle (.ok result.2)
  | record fetch => exact hsettle (.ok (d.session.record fetch))
  | run answer =>
    rw [perform, InPlace.outcome_adapt, outcome_run, Session.perform, Session.run]
    cases hsearch : d.session.search with
    | error error => rfl
    | ok result =>
      obtain ⟨query, searched⟩ := result
      obtain ⟨-, rfl⟩ := (Session.search_eq_ok_iff ..).1 hsearch
      rfl

end HopQuery
