import HopQuery.Proofs.Chain.Listed
import HopQuery.Proofs.Session.Operation

/-!
# What a run does to the chain

The chain and the selected hop change in five ways. What all of these keep holds in every session
that a run leads to.

* `Change`, `change_of_perform`: all that an operation can do to the chain and the selected hop;
* `Trace.forall_sessions`, `steps_induction`: what every change keeps holds along the calls of a run
  and after it;
* `settings_steps`, `listed_steps`: what the session was given stays, and the choices have the names
  that its catalog lists;
* `Orderly`, `orderly_steps`: there is room for the hops, and the selected hop is one of them.
-/

namespace HopQuery

namespace Chain

variable {chain next : Chain}

theorem ids_of_append {catalog : Catalog} {kind : String} {id : HopId}
    (h : chain.append catalog kind id = .ok next) : next.ids = chain.ids ++ [id] := by
  obtain ⟨-, entity, -, rfl⟩ := (append_eq_ok_iff ..).1 h
  simp [ids]

theorem ids_of_remove {id : HopId} (h : chain.remove id = .ok next) :
    next.ids = chain.ids.filter (· ≠ id) := by
  obtain ⟨-, rfl⟩ := (remove_eq_ok_iff ..).1 h
  rw [ids, ids, List.filter_map]
  rfl

theorem length_ids (chain : Chain) : chain.ids.length = chain.hops.length :=
  List.length_map _

end Chain

namespace Session

/-- All that an operation can do to the chain and to the selected hop. Catalog, rules and the room
for hops stay as they are. -/
inductive Change (s : Session) : Operation → Session → Prop
  /-- A hop is appended, for which there is room. -/
  | append {kind : String} {id : HopId} {chain : Chain}
      (hroom : s.chain.hops.length < s.maxHops)
      (hchain : s.chain.append s.catalog kind id = .ok chain) :
      Change s (.addHop kind id) { s with chain := chain, compiled := none, fetch := .pending }
  /-- A hop is removed, and is selected no more. -/
  | remove {id : HopId} {chain : Chain} (hchain : s.chain.remove id = .ok chain) :
      Change s (.removeHop id)
        { s with
          chain := chain, selected := if s.selected = some id then none else s.selected
          compiled := none, fetch := .pending }
  /-- A choice of a hop is changed. -/
  | choose {op : Operation} {e : Edit} {chain : Chain} (he : e.From s.catalog)
      (hchain : s.chain.edit? e = .ok chain) (hhops : chain.hops = s.chain.hops) :
      Change s op { s with chain := chain }
  /-- A hop is selected, or none if it is selected already. -/
  | select {id : HopId} (hid : id ∈ s.chain.ids) :
      Change s (.selectHop id) { s with selected := if s.selected = some id then none else some id }
  /-- Neither is changed. -/
  | keep (op : Operation) (mode : ShapeMode) (compiled : Option Query) (fetch : Fetch) :
      Change s op { s with mode := mode, compiled := compiled, fetch := fetch }

variable {s next : Session}

theorem change_of_perform {op : Operation} (h : s.perform op = .ok next) : Change s op next := by
  cases op with
  | addHop kind id =>
    obtain ⟨hroom, chain, hchain, rfl⟩ := (addHop_eq_ok_iff ..).1 ((mapError_eq_ok_iff ..).1 h)
    exact .append hroom hchain
  | removeHop id =>
    obtain ⟨chain, hchain, rfl⟩ := (removeHop_eq_ok_iff ..).1 ((mapError_eq_ok_iff ..).1 h)
    exact .remove hchain
  | toggleField id field =>
    obtain ⟨chain, hchain, rfl⟩ := (toggleField_eq_ok_iff ..).1 ((mapError_eq_ok_iff ..).1 h)
    obtain ⟨selection, toggled, -, -, heq⟩ := (Chain.toggleField_eq_ok_iff ..).1 hchain
    exact .choose (e := .toggleField id field) trivial hchain (by rw [heq])
  | setFilter id filter value =>
    obtain ⟨chain, hchain, rfl⟩ := (setFilter_eq_ok_iff ..).1 ((mapError_eq_ok_iff ..).1 h)
    obtain ⟨values, updated, -, -, heq⟩ := (Chain.setFilter_eq_ok_iff ..).1 hchain
    exact .choose (e := .setFilter id filter value) trivial hchain (by rw [heq])
  | selectHop id =>
    obtain ⟨hid, rfl⟩ := (selectHop_eq_ok_iff ..).1 ((mapError_eq_ok_iff ..).1 h)
    exact .select hid
  | toggleMode =>
    cases h
    exact .keep _ s.mode.toggled none .pending
  | search =>
    unfold perform at h
    obtain ⟨⟨query, searched⟩, hsearch, rfl⟩ :=
      (map_eq_ok_iff ..).1 ((mapError_eq_ok_iff ..).1 h)
    obtain ⟨-, rfl⟩ := (search_eq_ok_iff ..).1 hsearch
    exact .keep _ s.mode (some query) .pending
  | record fetch =>
    cases h
    exact .keep _ s.mode s.compiled fetch
  | run answer =>
    obtain ⟨query, searched, hsearch, rfl⟩ := (run_eq_ok_iff ..).1 ((mapError_eq_ok_iff ..).1 h)
    obtain ⟨-, rfl⟩ := (search_eq_ok_iff ..).1 hsearch
    exact .keep _ s.mode (some query) (answer query)

/-- What holds at first and is kept by every change holds along the calls that are made. -/
theorem Trace.forall_sessions {motive : Session → Prop} {first : Session} {calls : List Call}
    (h : Trace first calls s) (hfirst : motive first)
    (hchange : ∀ t op next, motive t → Change t op next → motive next) :
    motive s ∧ ∀ call ∈ calls, motive call.session := by
  induction h with
  | start => exact ⟨hfirst, by simp⟩
  | @call calls s next op before hrun hperform ih =>
    obtain ⟨hs, hcalls⟩ := ih
    refine ⟨hchange s op next hs (change_of_perform hperform), fun call hcall => ?_⟩
    rcases List.mem_append.1 hcall with hold | hnew
    · exact hcalls call hold
    · rw [List.mem_singleton.1 hnew]
      exact hs

/-- What holds before a run and is kept by every change holds after the run. -/
theorem steps_induction {motive : Session → Prop} (h : motive s)
    (hchange : ∀ t op next, motive t → Change t op next → motive next) (ops : List Operation) :
    motive (s.steps ops) :=
  ((trace_calls s ops).forall_sessions h hchange).1

theorem Change.settings {op : Operation} (h : Change s op next) :
    next.catalog = s.catalog ∧ next.rules = s.rules ∧ next.maxHops = s.maxHops := by
  cases h <;> exact ⟨rfl, rfl, rfl⟩

/-- A run keeps the catalog, the rules and the room for hops. -/
theorem settings_steps (s : Session) (ops : List Operation) : (s.steps ops).catalog = s.catalog ∧
    (s.steps ops).rules = s.rules ∧ (s.steps ops).maxHops = s.maxHops := by
  refine steps_induction (motive := fun t => t.catalog = s.catalog ∧ t.rules = s.rules ∧
    t.maxHops = s.maxHops) ⟨rfl, rfl, rfl⟩ (fun t op next ht hchange => ?_) ops
  obtain ⟨hcatalog, hrules, hmax⟩ := hchange.settings
  exact ⟨hcatalog.trans ht.1, hrules.trans ht.2.1, hmax.trans ht.2.2⟩

/-! ### Choices of the catalog -/

theorem Change.listed {op : Operation} (hchange : Change s op next)
    (h : s.chain.Listed s.catalog) : next.chain.Listed next.catalog := by
  cases hchange with
  | @append kind id chain hroom hchain => exact h.edit (e := .append s.catalog kind id) rfl hchain
  | @remove id chain hchain => exact h.edit (e := .remove id) trivial hchain
  | choose he hchain hhops => exact h.edit he hchain
  | select hid => exact h
  | keep op mode compiled fetch => exact h

/-- After any run from the start the choices have the names that the catalog lists. -/
theorem listed_steps (catalog : Catalog) (rules : Rules) (maxHops : Nat) (mode : ShapeMode)
    (ops : List Operation) :
    ((start catalog rules maxHops mode).steps ops).chain.Listed catalog := by
  have hlisted := steps_induction (motive := fun s => s.chain.Listed s.catalog)
    (s := start catalog rules maxHops mode) (.empty catalog)
    (fun _ _ _ h hchange => hchange.listed h) ops
  rwa [(settings_steps _ ops).1] at hlisted

/-! ### Room and selection -/

/-- There is room for the hops of the chain, and the selected hop is one of them. -/
structure Orderly (s : Session) : Prop where
  length_le : s.chain.hops.length ≤ s.maxHops
  selected_mem : ∀ id, s.selected = some id → id ∈ s.chain.ids

theorem Orderly.start (catalog : Catalog) (rules : Rules) (maxHops : Nat) (mode : ShapeMode) :
    (Session.start catalog rules maxHops mode).Orderly where
  length_le := Nat.zero_le _
  selected_mem _ h := by cases h

/-- Whoever is selected after a hop has been removed was selected before, and is not that hop. -/
theorem ite_selected_eq_some_iff (selected : Option HopId) (id other : HopId) :
    (if selected = some id then none else selected) = some other ↔
      selected = some other ∧ other ≠ id := by
  split
  · next h => simp [h, eq_comm]
  · next h =>
    refine ⟨fun hother => ⟨hother, ?_⟩, And.left⟩
    rintro rfl
    exact h hother

theorem Orderly.change (h : s.Orderly) {op : Operation} (hchange : Change s op next) :
    next.Orderly := by
  cases hchange with
  | @append kind id chain hroom hchain =>
    have hids := Chain.ids_of_append hchain
    constructor
    · show chain.hops.length ≤ s.maxHops
      rw [← chain.length_ids, hids, List.length_append, s.chain.length_ids]
      exact hroom
    · intro other hother
      rw [hids]
      exact List.mem_append_left _ (h.selected_mem other hother)
  | @remove id chain hchain =>
    have hids := Chain.ids_of_remove hchain
    constructor
    · show chain.hops.length ≤ s.maxHops
      rw [← chain.length_ids, hids]
      exact Nat.le_trans (List.length_filter_le _ _) (s.chain.length_ids ▸ h.length_le)
    · intro other hother
      obtain ⟨hselected, hne⟩ := (ite_selected_eq_some_iff ..).1 hother
      rw [hids]
      exact List.mem_filter.2 ⟨h.selected_mem other hselected, by simpa using hne⟩
  | choose he hchain hhops =>
    constructor
    · exact hhops ▸ h.length_le
    · intro other hother
      rw [Chain.ids, hhops]
      exact h.selected_mem other hother
  | @select id hid =>
    refine ⟨h.length_le, fun other hother => ?_⟩
    obtain ⟨-, heq⟩ := Option.ite_none_left_eq_some.1 hother
    cases heq
    exact hid
  | keep op mode compiled fetch => exact ⟨h.length_le, h.selected_mem⟩

theorem orderly_steps (catalog : Catalog) (rules : Rules) (maxHops : Nat) (mode : ShapeMode)
    (ops : List Operation) : ((start catalog rules maxHops mode).steps ops).Orderly :=
  steps_induction (.start catalog rules maxHops mode) (fun _ _ _ h hchange => h.change hchange) ops

/-- After any run from the start the chain has no more hops than there may be, and the selected hop,
if there is one, is a hop of the chain. So no removal leaves a selection of a hop that is gone: any
hop can be removed, and after that the same hop is selected as before, unless it is the one that was
removed. -/
theorem length_hops_le_and_selected_mem (catalog : Catalog) (rules : Rules) (maxHops : Nat)
    (mode : ShapeMode) (ops : List Operation) :
    let s := (start catalog rules maxHops mode).steps ops
    s.chain.hops.length ≤ maxHops ∧ (∀ id, s.selected = some id → id ∈ s.chain.ids) ∧
    ∀ id ∈ s.chain.ids, ∃ next, s.removeHop id = .ok next ∧
      (∀ other, next.selected = some other ↔ s.selected = some other ∧ other ≠ id) ∧
      ∀ other, next.selected = some other → other ∈ next.chain.ids := by
  intro s
  have h : s.Orderly := orderly_steps catalog rules maxHops mode ops
  have hmax : s.maxHops = maxHops := (settings_steps _ ops).2.2
  refine ⟨hmax ▸ h.length_le, h.selected_mem, fun id hid => ?_⟩
  have hremove := (Chain.remove_eq_ok_iff s.chain id _).2 ⟨hid, rfl⟩
  have hnext := (removeHop_eq_ok_iff s _ id).2 ⟨_, hremove, rfl⟩
  exact ⟨_, hnext, ite_selected_eq_some_iff s.selected id, (h.change (.remove hremove)).selected_mem⟩

end Session

end HopQuery
