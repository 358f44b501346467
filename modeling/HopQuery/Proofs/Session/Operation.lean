import HopQuery.Proofs.Chain.Edit
import HopQuery.Proofs.Outcome
import HopQuery.Session

/-!
# Runs of a session

The operations on a session as data, runs of them, and the calls of a run that succeeded. An
operation that fails leaves the session as it was.

* `Operation`, `Failure`, `Session.perform`: one operation, which may fail;
* `Session.step`, `Session.steps`: an operation and a run of operations, past all failures;
* `Call`, `Session.calls`: the calls of a run that succeeded, each with the session it was made on;
* `Effect`, `effect_of_perform`: what an operation can do to the query and to what it depends on;
* `Trace`, `trace_calls`: the session behind a run is reached by its successful calls.
-/

namespace HopQuery

/-- An operation on a session, with what it is given. -/
inductive Operation
  | addHop (kind : String) (id : HopId)
  | removeHop (id : HopId)
  | toggleField (id : HopId) (field : String)
  | setFilter (id : HopId) (filter value : String)
  | selectHop (id : HopId)
  | toggleMode
  | search
  | record (fetch : Fetch)
  /-- Searches, and records what `answer` says to the query. -/
  | run (answer : Query → Fetch)

namespace Operation

/-- The operations that drop the query. -/
def invalidates : Operation → Bool
  | addHop _ _ => true
  | removeHop _ => true
  | toggleMode => true
  | _ => false

/-- Whether the operation is a search. -/
def isSearch : Operation → Bool
  | search => true
  | _ => false

/-- The operations after which no outcome is known: those that drop the query, and the search. -/
def resets (op : Operation) : Bool :=
  op.invalidates || op.isSearch

/-- The outcome that the operation records. -/
def recorded? : Operation → Option Fetch
  | record fetch => some fetch
  | _ => none

end Operation

/-- Why an operation fails. -/
inductive Failure
  | chain (error : ChainError)
  | query (error : QueryError)
  deriving DecidableEq, Repr

/-- A call that succeeded: the session on which it was made, and the operation. -/
structure Call where
  session : Session
  operation : Operation

namespace Session

/-- The session after an operation, unless the operation fails. -/
def perform (s : Session) : Operation → Except Failure Session
  | .addHop kind id => (s.addHop kind id).mapError .chain
  | .removeHop id => (s.removeHop id).mapError .chain
  | .toggleField id field => (s.toggleField id field).mapError .chain
  | .setFilter id filter value => (s.setFilter id filter value).mapError .chain
  | .selectHop id => (s.selectHop id).mapError .chain
  | .toggleMode => .ok s.toggleMode
  | .search => (s.search.map Prod.snd).mapError .query
  | .record fetch => .ok (s.record fetch)
  | .run answer => (s.run answer).mapError .query

/-- The session after an operation; one that fails leaves it as it was. -/
def step (s : Session) (op : Operation) : Session :=
  match s.perform op with
  | .ok next => next
  | .error _ => s

/-- The session after operations, one after the other. -/
def steps (s : Session) (ops : List Operation) : Session :=
  ops.foldl step s

/-- The successful calls that an operation comes down to: none if it fails, a search and the
recording of the answer to exactly the query just made for `run`, otherwise the operation itself. -/
def callsOf (s : Session) : Operation → List Call
  | .run answer =>
    match s.search with
    | .ok (query, searched) => [⟨s, .search⟩, ⟨searched, .record (answer query)⟩]
    | .error _ => []
  | op =>
    match s.perform op with
    | .ok _ => [⟨s, op⟩]
    | .error _ => []

/-- The successful calls of operations, one after the other. -/
def calls (s : Session) : List Operation → List Call
  | [] => []
  | op :: ops => s.callsOf op ++ (s.step op).calls ops

/-! ### When an operation succeeds -/

variable (s next : Session)

theorem addHop_eq_ok_iff (kind : String) (id : HopId) :
    s.addHop kind id = .ok next ↔ s.chain.hops.length < s.maxHops ∧
      ∃ chain, s.chain.append s.catalog kind id = .ok chain ∧
        next = { s with chain := chain, compiled := none, fetch := .pending } := by
  unfold addHop
  split
  · next h => simp [Nat.not_lt.2 h]
  · next h =>
    rw [bind_pure_eq_ok_iff]
    simp [Nat.lt_of_not_le h, invalidate]

theorem removeHop_eq_ok_iff (id : HopId) :
    s.removeHop id = .ok next ↔ ∃ chain, s.chain.remove id = .ok chain ∧
      next = { s with
        chain := chain, selected := if s.selected = some id then none else s.selected
        compiled := none, fetch := .pending } :=
  bind_pure_eq_ok_iff ..

theorem toggleField_eq_ok_iff (id : HopId) (field : String) :
    s.toggleField id field = .ok next ↔ ∃ chain, s.chain.toggleField id field = .ok chain ∧
      next = { s with chain := chain } :=
  bind_pure_eq_ok_iff ..

theorem setFilter_eq_ok_iff (id : HopId) (filter value : String) :
    s.setFilter id filter value = .ok next ↔
      ∃ chain, s.chain.setFilter id filter value = .ok chain ∧ next = { s with chain := chain } :=
  bind_pure_eq_ok_iff ..

theorem selectHop_eq_ok_iff (id : HopId) :
    s.selectHop id = .ok next ↔ id ∈ s.chain.ids ∧
      next = { s with selected := if s.selected = some id then none else some id } := by
  unfold selectHop
  rw [← Chain.isSome_hop?_iff]
  split
  · next h => simp [h, eq_comm]
  · next h => simp [h]

theorem search_eq_ok_iff (query : Query) :
    s.search = .ok (query, next) ↔ Query.compile s.chain s.rules = .ok query ∧
      next = { s with compiled := some query, fetch := .pending } := by
  unfold search
  rw [bind_pure_eq_ok_iff]
  constructor
  · rintro ⟨query', hquery, heq⟩
    cases heq
    exact ⟨hquery, rfl⟩
  · rintro ⟨hquery, rfl⟩
    exact ⟨query, hquery, rfl⟩

theorem run_eq_ok_iff (answer : Query → Fetch) :
    s.run answer = .ok next ↔
      ∃ query searched, s.search = .ok (query, searched) ∧
        next = searched.record (answer query) := by
  unfold run
  rw [bind_pure_eq_ok_iff (f := fun r : Query × Session => r.2.record (answer r.1))]
  constructor
  · rintro ⟨⟨query, searched⟩, hsearch, heq⟩
    exact ⟨query, searched, hsearch, heq⟩
  · rintro ⟨query, searched, hsearch, heq⟩
    exact ⟨(query, searched), hsearch, heq⟩

/-! ### What an operation does to the query -/

/-- What an operation can do to the query, to its outcome and to what they depend on. -/
inductive Effect (s : Session) : Operation → Session → Prop
  /-- The query and its outcome are dropped. -/
  | invalidate {op : Operation} {next : Session} (hop : op.invalidates = true)
      (hcompiled : next.compiled = none) (hfetch : next.fetch = .pending)
      (hrules : next.rules = s.rules) : Effect s op next
  /-- The query of the chain is made. -/
  | search {query : Query} (hquery : Query.compile s.chain s.rules = .ok query) :
      Effect s .search { s with compiled := some query, fetch := .pending }
  /-- The outcome is replaced. -/
  | record (fetch : Fetch) : Effect s (.record fetch) { s with fetch := fetch }
  /-- Choices are changed, or the selected hop. -/
  | edit {op : Operation} (chain : Chain) (selected : Option HopId) (hop : op.resets = false)
      (hrecord : op.recorded? = none) (hhops : chain.hops = s.chain.hops) :
      Effect s op { s with chain := chain, selected := selected }

variable {s next}

/-- An operation other than `run` has one of the four effects. -/
theorem effect_of_perform {op : Operation} (hrun : ∀ answer, op ≠ .run answer)
    (h : s.perform op = .ok next) : Effect s op next := by
  cases op with
  | addHop kind id =>
    obtain ⟨-, chain, -, rfl⟩ := (addHop_eq_ok_iff ..).1 ((mapError_eq_ok_iff ..).1 h)
    exact .invalidate rfl rfl rfl rfl
  | removeHop id =>
    obtain ⟨chain, -, rfl⟩ := (removeHop_eq_ok_iff ..).1 ((mapError_eq_ok_iff ..).1 h)
    exact .invalidate rfl rfl rfl rfl
  | toggleField id field =>
    obtain ⟨chain, hchain, rfl⟩ := (toggleField_eq_ok_iff ..).1 ((mapError_eq_ok_iff ..).1 h)
    obtain ⟨selection, toggled, -, -, rfl⟩ := (Chain.toggleField_eq_ok_iff ..).1 hchain
    exact .edit _ s.selected rfl rfl rfl
  | setFilter id filter value =>
    obtain ⟨chain, hchain, rfl⟩ := (setFilter_eq_ok_iff ..).1 ((mapError_eq_ok_iff ..).1 h)
    obtain ⟨values, updated, -, -, rfl⟩ := (Chain.setFilter_eq_ok_iff ..).1 hchain
    exact .edit _ s.selected rfl rfl rfl
  | selectHop id =>
    obtain ⟨-, rfl⟩ := (selectHop_eq_ok_iff ..).1 ((mapError_eq_ok_iff ..).1 h)
    exact .edit s.chain _ rfl rfl rfl
  | toggleMode =>
    cases h
    exact .invalidate rfl rfl rfl rfl
  | search =>
    unfold perform at h
    obtain ⟨⟨query, searched⟩, hsearch, rfl⟩ :=
      (map_eq_ok_iff ..).1 ((mapError_eq_ok_iff ..).1 h)
    obtain ⟨hquery, rfl⟩ := (search_eq_ok_iff ..).1 hsearch
    exact .search hquery
  | record fetch =>
    cases h
    exact .record fetch
  | run answer => exact absurd rfl (hrun answer)

/-! ### A run and its calls -/

/-- The calls, made one after the other from the first session on, succeed and lead to the last. -/
inductive Trace (first : Session) : List Call → Session → Prop
  | start : Trace first [] first
  | call {calls : List Call} {s next : Session} {op : Operation} (before : Trace first calls s)
      (hrun : ∀ answer, op ≠ .run answer) (h : s.perform op = .ok next) :
      Trace first (calls ++ [⟨s, op⟩]) next

theorem callsOf_of_ne_run (s : Session) {op : Operation} (hrun : ∀ answer, op ≠ .run answer) :
    s.callsOf op = match s.perform op with
      | .ok _ => [⟨s, op⟩]
      | .error _ => [] := by
  cases op with
  | run answer => exact absurd rfl (hrun answer)
  | _ => rfl

theorem steps_cons (s : Session) (op : Operation) (ops : List Operation) :
    s.steps (op :: ops) = (s.step op).steps ops := rfl

section Run

variable {s searched : Session} {query : Query} {error : QueryError} (answer : Query → Fetch)

theorem callsOf_run_of_ok (h : s.search = .ok (query, searched)) :
    s.callsOf (.run answer) = [⟨s, .search⟩, ⟨searched, .record (answer query)⟩] := by
  rw [callsOf, h]

theorem callsOf_run_of_error (h : s.search = .error error) : s.callsOf (.run answer) = [] := by
  rw [callsOf, h]

theorem step_run_of_ok (h : s.search = .ok (query, searched)) :
    s.step (.run answer) = searched.record (answer query) := by
  have hrun : s.run answer = .ok (searched.record (answer query)) :=
    (run_eq_ok_iff ..).2 ⟨query, searched, h, rfl⟩
  rw [step, perform, hrun]
  rfl

theorem step_run_of_error (h : s.search = .error error) : s.step (.run answer) = s := by
  have hrun : s.run answer = .error error := by
    rw [run, h]
    rfl
  rw [step, perform, hrun]
  rfl

end Run

variable {first : Session} {calls : List Call}

/-- One operation goes on with a trace by the calls that it comes down to. -/
theorem Trace.step (h : Trace first calls s) (op : Operation) :
    Trace first (calls ++ s.callsOf op) (s.step op) := by
  by_cases hrun : ∃ answer, op = .run answer
  · obtain ⟨answer, rfl⟩ := hrun
    cases hsearch : s.search with
    | error error =>
      rw [callsOf_run_of_error answer hsearch, step_run_of_error answer hsearch, List.append_nil]
      exact h
    | ok result =>
      obtain ⟨query, searched⟩ := result
      -- two calls, the second on the session that the first one left
      have hfirst : Trace first (calls ++ [⟨s, .search⟩]) searched := by
        refine h.call (by simp) ?_
        rw [perform, hsearch]
        rfl
      have hsecond : Trace first (calls ++ [⟨s, .search⟩] ++ [⟨searched, .record (answer query)⟩])
          (searched.record (answer query)) := hfirst.call (by simp) rfl
      rw [callsOf_run_of_ok answer hsearch, step_run_of_ok answer hsearch]
      rwa [List.append_assoc] at hsecond
  · have hne : ∀ answer, op ≠ .run answer := fun answer heq => hrun ⟨answer, heq⟩
    rw [callsOf_of_ne_run s hne, Session.step]
    cases hperform : s.perform op with
    | error error => simpa using h
    | ok next => exact h.call hne hperform

theorem Trace.steps (h : Trace first calls s) (ops : List Operation) :
    Trace first (calls ++ s.calls ops) (s.steps ops) := by
  induction ops generalizing calls s with
  | nil =>
    rw [Session.calls, List.append_nil]
    exact h
  | cons op ops ih =>
    rw [Session.calls, steps_cons, ← List.append_assoc]
    exact ih (h.step op)

/-- The calls of a run lead to where the run leads. -/
theorem trace_calls (s : Session) (ops : List Operation) :
    Trace s (s.calls ops) (s.steps ops) :=
  Trace.start.steps ops

end Session

end HopQuery
