import HopQuery.Proofs.Selection.Levels
import HopQuery.Proofs.Session.Operation
import Mathlib.Data.List.DropRight

/-!
# What a session holds after a run

The query, its outcome and the view are functions of the successful calls of a run alone.

* `since`, `lastSearch?`, `lastRecord?`: looking back over calls;
* `Session.Remembers`: what a session has kept of the calls before it;
* `Remembers.of_trace`: every session reached from the start remembers its calls;
* `compiled_fetch_render_steps`: what there is of query, outcome and view after a run.
-/

namespace HopQuery

/-! ### Looking back over calls -/

/-- The calls after the last one of an operation with the property. -/
def since (p : Operation → Bool) (calls : List Call) : List Call :=
  calls.rtakeWhile fun call => !p call.operation

/-- The session on which the last search was made. -/
def lastSearch? (calls : List Call) : Option Session :=
  (calls.filter (·.operation.isSearch)).getLast?.map Call.session

/-- The outcome that was recorded last. -/
def lastRecord? (calls : List Call) : Option Fetch :=
  (calls.filterMap (·.operation.recorded?)).getLast?

section Concat

variable {p : Operation → Bool} (calls : List Call) (s : Session) {op : Operation}

theorem since_concat_pos (h : p op = true) : since p (calls ++ [⟨s, op⟩]) = [] :=
  List.rtakeWhile_concat_neg _ _ _ (by simp [h])

theorem since_concat_neg (h : p op = false) :
    since p (calls ++ [⟨s, op⟩]) = since p calls ++ [⟨s, op⟩] :=
  List.rtakeWhile_concat_pos _ _ _ (by simp [h])

theorem lastSearch?_concat_pos (h : op.isSearch = true) :
    lastSearch? (calls ++ [⟨s, op⟩]) = some s := by
  simp [lastSearch?, h]

theorem lastSearch?_concat_neg (h : op.isSearch = false) :
    lastSearch? (calls ++ [⟨s, op⟩]) = lastSearch? calls := by
  simp [lastSearch?, h]

theorem lastRecord?_concat_some {fetch : Fetch} (h : op.recorded? = some fetch) :
    lastRecord? (calls ++ [⟨s, op⟩]) = some fetch := by
  simp [lastRecord?, h]

theorem lastRecord?_concat_none (h : op.recorded? = none) :
    lastRecord? (calls ++ [⟨s, op⟩]) = lastRecord? calls := by
  simp [lastRecord?, h]

end Concat

theorem Operation.isSearch_eq_true_iff (op : Operation) : op.isSearch = true ↔ op = .search := by
  cases op <;> simp [isSearch]

/-- There is a last search if there is one at all. -/
theorem lastSearch?_eq_none_iff (calls : List Call) :
    lastSearch? calls = none ↔ ¬ ∃ call ∈ calls, call.operation = .search := by
  simp [lastSearch?, Operation.isSearch_eq_true_iff]

namespace Session

/-! ### What a session has kept -/

/-- What a session has kept of the calls before it: the query that was made at the last search, if
no later call has dropped it, of hops and in a mode that are the same today; and the outcome that
was recorded last, if no later call has set it back. -/
structure Remembers (rules : Rules) (calls : List Call) (s : Session) : Prop where
  rules_eq : s.rules = rules
  compiled_eq_none : lastSearch? (since Operation.invalidates calls) = none → s.compiled = none
  compiled_eq_some : ∀ t, lastSearch? (since Operation.invalidates calls) = some t →
    ∃ query, Query.compile t.chain rules = .ok query ∧ s.compiled = some query ∧
      s.chain.hops = t.chain.hops ∧ s.mode = t.mode
  fetch_eq : s.fetch = (lastRecord? (since Operation.resets calls)).getD .pending

namespace Remembers

theorem start (catalog : Catalog) (rules : Rules) (maxHops : Nat) (mode : ShapeMode) :
    Remembers rules [] (.start catalog rules maxHops mode) where
  rules_eq := rfl
  compiled_eq_none _ := rfl
  compiled_eq_some _ h := by cases h
  fetch_eq := rfl

variable {rules : Rules} {calls : List Call} {s next : Session} {op : Operation}

/-- One call that succeeds: what the session has kept changes as the calls do. -/
theorem effect (h : Remembers rules calls s) (heffect : Effect s op next) :
    Remembers rules (calls ++ [⟨s, op⟩]) next := by
  cases heffect with
  | invalidate hop hcompiled hfetch hrules =>
    have hsince : since Operation.invalidates (calls ++ [⟨s, op⟩]) = [] := since_concat_pos _ _ hop
    have hresets : since Operation.resets (calls ++ [⟨s, op⟩]) = [] :=
      since_concat_pos _ _ (by simp [Operation.resets, hop])
    refine ⟨hrules.trans h.rules_eq, fun _ => hcompiled, ?_, ?_⟩
    · rw [hsince]
      intro t ht
      cases ht
    · rw [hresets, hfetch]
      rfl
  | @search query hquery =>
    -- from now on this search is the last one
    have hlast : lastSearch? (since Operation.invalidates (calls ++ [⟨s, .search⟩])) = some s := by
      rw [since_concat_neg _ _ rfl, lastSearch?_concat_pos _ _ rfl]
    have hresets : since Operation.resets (calls ++ [⟨s, .search⟩]) = [] := since_concat_pos _ _ rfl
    refine ⟨h.rules_eq, ?_, ?_, ?_⟩
    · rw [hlast]
      intro hnone
      cases hnone
    · rw [hlast]
      intro t ht
      cases ht
      exact ⟨query, h.rules_eq ▸ hquery, rfl, rfl, rfl⟩
    · rw [hresets]
      rfl
  | record fetch =>
    have hlast : lastSearch? (since Operation.invalidates (calls ++ [⟨s, .record fetch⟩])) =
        lastSearch? (since Operation.invalidates calls) := by
      rw [since_concat_neg _ _ rfl, lastSearch?_concat_neg _ _ rfl]
    refine ⟨h.rules_eq, ?_, ?_, ?_⟩
    · rw [hlast]
      exact h.compiled_eq_none
    · rw [hlast]
      exact h.compiled_eq_some
    · rw [since_concat_neg _ _ rfl, lastRecord?_concat_some _ _ rfl]
      rfl
  | edit chain selected hop hrecord hhops =>
    obtain ⟨hinvalidates, hsearch⟩ := Bool.or_eq_false_iff.1 hop
    have hlast : lastSearch? (since Operation.invalidates (calls ++ [⟨s, op⟩])) =
        lastSearch? (since Operation.invalidates calls) := by
      rw [since_concat_neg _ _ hinvalidates, lastSearch?_concat_neg _ _ hsearch]
    refine ⟨h.rules_eq, ?_, ?_, ?_⟩
    · rw [hlast]
      exact h.compiled_eq_none
    · rw [hlast]
      intro t ht
      obtain ⟨query, hquery, hcompiled, hsame, hmode⟩ := h.compiled_eq_some t ht
      exact ⟨query, hquery, hcompiled, hhops.trans hsame, hmode⟩
    · rw [since_concat_neg _ _ hop, lastRecord?_concat_none _ _ hrecord]
      exact h.fetch_eq

/-- Every session that is reached from the start remembers the calls that led to it. -/
theorem of_trace {catalog : Catalog} {maxHops : Nat} {mode : ShapeMode}
    (h : Trace (.start catalog rules maxHops mode) calls s) : Remembers rules calls s := by
  induction h with
  | start => exact .start catalog rules maxHops mode
  | call before hrun hperform ih => exact ih.effect (effect_of_perform hrun hperform)

/-- There is a query if there was a search since the last call that drops the query. -/
theorem isSome_compiled_iff (h : Remembers rules calls s) : s.compiled.isSome ↔
    ∃ call ∈ since Operation.invalidates calls, call.operation = .search := by
  rw [← not_iff_not, ← lastSearch?_eq_none_iff, Option.not_isSome_iff_eq_none]
  constructor
  · intro hnone
    by_contra hsome
    obtain ⟨t, ht⟩ := Option.ne_none_iff_exists'.1 hsome
    obtain ⟨query, -, hcompiled, -⟩ := h.compiled_eq_some t ht
    rw [hnone] at hcompiled
    cases hcompiled
  · exact h.compiled_eq_none

/-- A session that holds a query has a hop, and the last search is the one that made the query. -/
theorem exists_of_compiled_eq_some (h : Remembers rules calls s) {query : Query}
    (hcompiled : s.compiled = some query) :
    ∃ t, lastSearch? (since Operation.invalidates calls) = some t ∧
      Query.compile t.chain rules = .ok query ∧
      s.chain.hops = t.chain.hops ∧ s.mode = t.mode ∧ s.chain.hops ≠ [] := by
  cases hlast : lastSearch? (since Operation.invalidates calls) with
  | none =>
    rw [h.compiled_eq_none hlast] at hcompiled
    cases hcompiled
  | some t =>
    obtain ⟨query', hquery, hcompiled', hhops, hmode⟩ := h.compiled_eq_some t hlast
    obtain rfl : query' = query := Option.some.inj (hcompiled'.symm.trans hcompiled)
    obtain ⟨hne, -⟩ :=
      (Query.compileWithPath_eq_ok_iff ..).1 ((Query.compile_eq_ok_iff ..).1 hquery)
    exact ⟨t, rfl, hquery, hhops, hmode, hhops ▸ hne⟩

end Remembers

end Session

/-! ### What is shown -/

/-- There is a view of data along every path that is not empty. -/
theorem Json.isSome_render_iff (data : Json) (path : Path) (mode : ShapeMode) (catalog : Catalog) :
    (data.render path mode catalog).isSome ↔ path.segments ≠ [] := by
  unfold Json.render
  cases path.segments <;> simp

namespace Session

theorem isSome_render_iff (s : Session) : s.render.isSome ↔
    s.compiled.isSome ∧ s.chain.hops ≠ [] ∧ ∃ data, s.fetch = .ready data := by
  have hsegments : s.path.segments = [] ↔ s.chain.hops = [] :=
    Path.segments_resolve_eq_nil_iff s.rules s.chain.hops
  unfold render
  cases s.compiled with
  | none => simp
  | some query =>
    cases s.fetch with
    | pending => simp [Fetch.render]
    | failed => simp [Fetch.render]
    | ready data => simp [Fetch.render, Json.isSome_render_iff, hsegments]

/-- A session that remembers its calls shows something as soon as there are a query and data. -/
theorem Remembers.isSome_render_iff {rules : Rules} {calls : List Call} {s : Session}
    (h : Remembers rules calls s) :
    s.render.isSome ↔ s.compiled.isSome ∧ ∃ data, s.fetch = .ready data := by
  rw [Session.isSome_render_iff]
  constructor
  · rintro ⟨hcompiled, -, hready⟩
    exact ⟨hcompiled, hready⟩
  · rintro ⟨hcompiled, hready⟩
    obtain ⟨query, hquery⟩ := Option.isSome_iff_exists.1 hcompiled
    obtain ⟨t, -, -, -, -, hne⟩ := h.exists_of_compiled_eq_some hquery
    exact ⟨hcompiled, hne, hready⟩

/-- After any run from the start: there is a query if a search has succeeded since a hop was last
added or removed or the mode toggled, and it is the one made at the last such search, whatever has
been chosen since. The outcome is the one recorded last since any of these or a search, and there
is something to show if there are both a query and data. -/
theorem compiled_fetch_render_steps (catalog : Catalog) (rules : Rules) (maxHops : Nat)
    (mode : ShapeMode) (ops : List Operation) :
    let first := start catalog rules maxHops mode
    let s := first.steps ops
    let calls := first.calls ops
    (s.compiled.isSome ↔ ∃ call ∈ since Operation.invalidates calls, call.operation = .search) ∧
    (∀ t, lastSearch? (since Operation.invalidates calls) = some t →
      ∃ query, Query.compile t.chain rules = .ok query ∧ s.compiled = some query) ∧
    s.fetch = (lastRecord? (since Operation.resets calls)).getD .pending ∧
    (s.render.isSome ↔ s.compiled.isSome ∧ ∃ data, s.fetch = .ready data) := by
  intro first s calls
  have h : Remembers rules calls s := .of_trace (trace_calls first ops)
  refine ⟨h.isSome_compiled_iff, ?_, h.fetch_eq, h.isSome_render_iff⟩
  intro t ht
  obtain ⟨query, hquery, hcompiled, -⟩ := h.compiled_eq_some t ht
  exact ⟨query, hquery, hcompiled⟩

end Session

end HopQuery
