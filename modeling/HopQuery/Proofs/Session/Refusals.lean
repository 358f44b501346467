import HopQuery.Proofs.Session.Change
import HopQuery.Proofs.Session.InPlace

/-!
# When an operation fails

Whether an operation fails, and why, is told by the hops of the chain and by the catalog alone, in
every session that a run leads to. An operation that fails changes nothing.

* `Session.Refuses`: the cases in which an operation fails, each with the reason;
* `refuses_of_perform`, `perform_of_refuses`: where the choices are those of the catalog and a new hop
  gets a new identifier, an operation fails in exactly these cases;
* `Session.drawn`: the identifiers that a run draws for new hops;
* `fails_iff_refuses`: so it is after every run that draws no identifier twice, also in place.
-/

namespace HopQuery

/-- The hop that the operation addresses. -/
def Operation.target? : Operation → Option HopId
  | removeHop id => some id
  | toggleField id _ => some id
  | setFilter id _ _ => some id
  | selectHop id => some id
  | _ => none

/-- Whether the operation makes a query. -/
def Operation.compiles : Operation → Bool
  | search => true
  | run _ => true
  | _ => false

namespace Session

/-- The cases in which an operation fails, and why. -/
inductive Refuses (s : Session) : Operation → Failure → Prop
  /-- There is no room for one more hop. -/
  | tooLong {kind : String} {id : HopId} (h : s.maxHops ≤ s.chain.hops.length) :
      Refuses s (.addHop kind id) (.chain (.tooLong s.maxHops))
  /-- There is room, but the catalog does not have the kind. -/
  | unknownKind {kind : String} {id : HopId} (hroom : s.chain.hops.length < s.maxHops)
      (h : kind ∉ s.catalog.kinds) :
      Refuses s (.addHop kind id)
        (.chain (.catalog (.unknownKindWhile kind "While appending a hop")))
  /-- The chain has no such hop. -/
  | unknownHop {op : Operation} {id : HopId} (htarget : op.target? = some id)
      (h : id ∉ s.chain.ids) : Refuses s op (.chain (.unknownHop id))
  /-- The hop is there, but the catalog lists no such field for its kind. -/
  | unknownField {id : HopId} {field : String} (h : s.chain.Lacks s.catalog.fields id field) :
      Refuses s (.toggleField id field) (.chain (.unknownField id field))
  /-- The hop is there, but the catalog lists no such filter for its kind. -/
  | unknownFilter {id : HopId} {filter value : String}
      (h : s.chain.Lacks s.catalog.filters id filter) :
      Refuses s (.setFilter id filter value) (.chain (.unknownFilter id filter))
  /-- There is no hop to make a query of. -/
  | emptyChain {op : Operation} (hcompiles : op.compiles = true) (h : s.chain.hops = []) :
      Refuses s op (.query .emptyChain)

/-! ### Operation by operation -/

section Operations

variable (s : Session)

theorem addHop_eq_error_iff (kind : String) (id : HopId) (error : ChainError) :
    s.addHop kind id = .error error ↔
      s.maxHops ≤ s.chain.hops.length ∧ error = .tooLong s.maxHops ∨
      s.chain.hops.length < s.maxHops ∧ s.chain.append s.catalog kind id = .error error := by
  unfold addHop
  split
  · next h => simp [h, Nat.not_lt.2 h, eq_comm]
  · next h =>
    rw [bind_pure_eq_error_iff]
    simp [h, Nat.lt_of_not_le h]

theorem selectHop_eq_error_iff (id : HopId) (error : ChainError) :
    s.selectHop id = .error error ↔ id ∉ s.chain.ids ∧ error = .unknownHop id := by
  unfold selectHop
  rw [← Chain.isSome_hop?_iff]
  split
  · next h => simp [h]
  · next h => simp [h, eq_comm]

theorem search_eq_error_iff (error : QueryError) :
    s.search = .error error ↔ Query.compile s.chain s.rules = .error error :=
  bind_pure_eq_error_iff ..

theorem run_eq_error_iff (answer : Query → Fetch) (error : QueryError) :
    s.run answer = .error error ↔ s.search = .error error :=
  bind_pure_eq_error_iff (f := fun r : Query × Session => r.2.record (answer r.1)) ..

end Operations

theorem compile_eq_error_iff {s : Session} (h : s.chain.Listed s.catalog) (error : QueryError) :
    Query.compile s.chain s.rules = .error error ↔ error = .emptyChain ∧ s.chain.hops = [] := by
  rw [Query.compile, map_eq_error_iff, h.consistent.compileWithPath_eq_error_iff s.rules]

section Fresh

variable {s : Session} {op : Operation} {failure : Failure} (h : s.chain.Listed s.catalog)
  (hfresh : ∀ kind id, op = .addHop kind id → s.chain.hops.length < s.maxHops → id ∉ s.chain.ids)
include h hfresh

theorem refuses_of_perform (hperform : s.perform op = .error failure) : Refuses s op failure := by
  cases op with
  | addHop kind id =>
    obtain ⟨error, herror, rfl⟩ := (mapError_eq_error_iff ..).1 hperform
    rcases (addHop_eq_error_iff ..).1 herror with ⟨hfull, rfl⟩ | ⟨hroom, happend⟩
    · exact .tooLong hfull
    · rcases (Chain.append_eq_error_iff ..).1 happend with ⟨hid, -⟩ | ⟨-, hkind, rfl⟩
      · exact absurd hid (hfresh kind id rfl hroom)
      · exact .unknownKind hroom hkind
  | removeHop id =>
    obtain ⟨error, herror, rfl⟩ := (mapError_eq_error_iff ..).1 hperform
    obtain ⟨hid, rfl⟩ :=
      (Chain.remove_eq_error_iff ..).1 ((bind_pure_eq_error_iff ..).1 herror)
    exact .unknownHop rfl hid
  | toggleField id field =>
    obtain ⟨error, herror, rfl⟩ := (mapError_eq_error_iff ..).1 hperform
    rcases (h.toggleField_eq_error_iff ..).1 ((bind_pure_eq_error_iff ..).1 herror) with
      ⟨hid, rfl⟩ | ⟨hlacks, rfl⟩
    · exact .unknownHop rfl hid
    · exact .unknownField hlacks
  | setFilter id filter value =>
    obtain ⟨error, herror, rfl⟩ := (mapError_eq_error_iff ..).1 hperform
    rcases (h.setFilter_eq_error_iff ..).1 ((bind_pure_eq_error_iff ..).1 herror) with
      ⟨hid, rfl⟩ | ⟨hlacks, rfl⟩
    · exact .unknownHop rfl hid
    · exact .unknownFilter hlacks
  | selectHop id =>
    obtain ⟨error, herror, rfl⟩ := (mapError_eq_error_iff ..).1 hperform
    obtain ⟨hid, rfl⟩ := (selectHop_eq_error_iff ..).1 herror
    exact .unknownHop rfl hid
  | toggleMode | record fetch => cases hperform
  | search =>
    obtain ⟨error, herror, rfl⟩ := (mapError_eq_error_iff ..).1 hperform
    obtain ⟨rfl, hhops⟩ :=
      (compile_eq_error_iff h _).1 ((search_eq_error_iff ..).1 ((map_eq_error_iff ..).1 herror))
    exact .emptyChain rfl hhops
  | run answer =>
    obtain ⟨error, herror, rfl⟩ := (mapError_eq_error_iff ..).1 hperform
    obtain ⟨rfl, hhops⟩ :=
      (compile_eq_error_iff h _).1 ((search_eq_error_iff ..).1 ((run_eq_error_iff ..).1 herror))
    exact .emptyChain rfl hhops

theorem perform_of_refuses (hrefuses : Refuses s op failure) : s.perform op = .error failure := by
  cases hrefuses with
  | @tooLong kind id hfull =>
    have herror := (s.addHop_eq_error_iff kind id _).2 (.inl ⟨hfull, rfl⟩)
    exact (mapError_eq_error_iff ..).2 ⟨_, herror, rfl⟩
  | @unknownKind kind id hroom hkind =>
    have happend := (s.chain.append_eq_error_iff s.catalog kind id _).2
      (.inr ⟨hfresh kind id rfl hroom, hkind, rfl⟩)
    have herror := (s.addHop_eq_error_iff kind id _).2 (.inr ⟨hroom, happend⟩)
    exact (mapError_eq_error_iff ..).2 ⟨_, herror, rfl⟩
  | unknownHop htarget hid =>
    cases op with
    | removeHop id =>
      cases htarget
      have herror := (Chain.remove_eq_error_iff ..).2 ⟨hid, rfl⟩
      exact (mapError_eq_error_iff ..).2 ⟨_, (bind_pure_eq_error_iff ..).2 herror, rfl⟩
    | toggleField id field =>
      cases htarget
      have herror := (h.toggleField_eq_error_iff _ field _).2 (.inl ⟨hid, rfl⟩)
      exact (mapError_eq_error_iff ..).2 ⟨_, (bind_pure_eq_error_iff ..).2 herror, rfl⟩
    | setFilter id filter value =>
      cases htarget
      have herror := (h.setFilter_eq_error_iff _ filter value _).2 (.inl ⟨hid, rfl⟩)
      exact (mapError_eq_error_iff ..).2 ⟨_, (bind_pure_eq_error_iff ..).2 herror, rfl⟩
    | selectHop id =>
      cases htarget
      have herror := (s.selectHop_eq_error_iff _ _).2 ⟨hid, rfl⟩
      exact (mapError_eq_error_iff ..).2 ⟨_, herror, rfl⟩
    | _ => cases htarget
  | @unknownField id field hlacks =>
    have herror := (h.toggleField_eq_error_iff id field _).2 (.inr ⟨hlacks, rfl⟩)
    exact (mapError_eq_error_iff ..).2 ⟨_, (bind_pure_eq_error_iff ..).2 herror, rfl⟩
  | @unknownFilter id filter value hlacks =>
    have herror := (h.setFilter_eq_error_iff id filter value _).2 (.inr ⟨hlacks, rfl⟩)
    exact (mapError_eq_error_iff ..).2 ⟨_, (bind_pure_eq_error_iff ..).2 herror, rfl⟩
  | emptyChain hcompiles hhops =>
    have hsearch := (s.search_eq_error_iff _).2 ((compile_eq_error_iff h _).2 ⟨rfl, hhops⟩)
    cases op with
    | search => exact (mapError_eq_error_iff ..).2 ⟨_, (map_eq_error_iff ..).2 hsearch, rfl⟩
    | run answer => exact (mapError_eq_error_iff ..).2 ⟨_, (run_eq_error_iff ..).2 hsearch, rfl⟩
    | _ => cases hcompiles

end Fresh

/-! ### New identifiers -/

/-- The identifiers that an operation draws: one for a hop for which there is room. -/
def draws (s : Session) : Operation → List HopId
  | .addHop _ id => if s.chain.hops.length < s.maxHops then [id] else []
  | _ => []

/-- The identifiers that are drawn in a run. -/
def drawn (s : Session) : List Operation → List HopId
  | [] => []
  | op :: ops => s.draws op ++ (s.step op).drawn ops

theorem drawn_concat (s : Session) (ops : List Operation) (op : Operation) :
    s.drawn (ops ++ [op]) = s.drawn ops ++ (s.steps ops).draws op := by
  induction ops generalizing s with
  | nil => exact List.append_nil _
  | cons first ops ih => rw [List.cons_append, drawn, drawn, ih, steps_cons, List.append_assoc]

/-- A hop that was not there before an operation has the identifier that was drawn. -/
theorem ids_step_subset (s : Session) (op : Operation) :
    (s.step op).chain.ids ⊆ s.chain.ids ++ s.draws op := by
  unfold step
  split
  · next next hnext =>
    cases change_of_perform hnext with
    | append hroom hchain =>
      rw [draws, if_pos hroom, ← Chain.ids_of_append hchain]
      exact List.Subset.refl _
    | remove hchain =>
      show Chain.ids _ ⊆ _
      rw [Chain.ids_of_remove hchain]
      exact List.subset_append_of_subset_left _ (List.filter_subset_self _)
    | choose he hchain hhops =>
      show Chain.ids _ ⊆ _
      rw [Chain.ids, hhops]
      exact List.subset_append_left _ _
    | select hid => exact List.subset_append_left _ _
    | keep op mode compiled fetch => exact List.subset_append_left _ _
  · exact List.subset_append_left _ _

/-- The hops that a run adds have the identifiers that it draws. -/
theorem ids_steps_subset (s : Session) (ops : List Operation) :
    (s.steps ops).chain.ids ⊆ s.chain.ids ++ s.drawn ops := by
  induction ops generalizing s with
  | nil => exact List.subset_append_left _ _
  | cons op ops ih =>
    intro id hid
    rw [drawn, ← List.append_assoc, List.mem_append]
    exact (List.mem_append.1 (ih (s.step op) hid)).imp_left fun h => s.ids_step_subset op h

/-- If a run from the start draws no identifier twice, a hop that is added next gets one that no hop
has. -/
theorem not_mem_ids_of_nodup_drawn {catalog : Catalog} {rules : Rules} {maxHops : Nat}
    {mode : ShapeMode} {ops : List Operation} {kind : String} {id : HopId}
    (h : ((start catalog rules maxHops mode).drawn (ops ++ [.addHop kind id])).Nodup)
    (hroom : ((start catalog rules maxHops mode).steps ops).chain.hops.length <
      ((start catalog rules maxHops mode).steps ops).maxHops) :
    id ∉ ((start catalog rules maxHops mode).steps ops).chain.ids := by
  rw [drawn_concat, draws, if_pos hroom] at h
  intro hid
  have hdrawn : id ∈ (start catalog rules maxHops mode).drawn ops := ids_steps_subset _ ops hid
  exact (List.nodup_append.1 h).2.2 id hdrawn id List.mem_cons_self rfl

/-- After any run from the start, if no identifier is drawn twice, an operation fails in exactly the
cases of `Refuses`, for the reason told there, and is done in all others. Made in place, step by
step, an operation that fails leaves the session and what the executor has been asked as they
were. -/
theorem fails_iff_refuses (catalog : Catalog) (rules : Rules) (maxHops : Nat) (mode : ShapeMode)
    (ops : List Operation) (op : Operation)
    (hfresh : ((start catalog rules maxHops mode).drawn (ops ++ [op])).Nodup) :
    let s := (start catalog rules maxHops mode).steps ops
    s.catalog = catalog ∧ s.maxHops = maxHops ∧
    (∀ failure, s.perform op = .error failure ↔ Refuses s op failure) ∧
    ((∃ next, s.perform op = .ok next) ↔ ¬ ∃ failure, Refuses s op failure) ∧
    ∀ asked, (Desk.perform op).outcome ⟨s, asked⟩ = match s.perform op with
      | .ok next => (.ok (), ⟨next, asked ++ op.asks next⟩)
      | .error failure => (.error failure, ⟨s, asked⟩) := by
  intro s
  obtain ⟨hcatalog, -, hmax⟩ := settings_steps (start catalog rules maxHops mode) ops
  have hlisted : s.chain.Listed s.catalog :=
    (show s.catalog = catalog from hcatalog) ▸ listed_steps catalog rules maxHops mode ops
  have hnew : ∀ kind id, op = .addHop kind id → s.chain.hops.length < s.maxHops →
      id ∉ s.chain.ids := by
    rintro kind id rfl hroom
    exact not_mem_ids_of_nodup_drawn hfresh hroom
  have hfails : ∀ failure, s.perform op = .error failure ↔ Refuses s op failure := fun failure =>
    ⟨refuses_of_perform hlisted hnew, perform_of_refuses hlisted hnew⟩
  refine ⟨hcatalog, hmax, hfails, ?_, fun asked => Desk.outcome_perform ⟨s, asked⟩ op⟩
  simp only [← hfails]
  cases s.perform op <;> simp

/-- A run that removes a hop, draws an identifier in vain for a hop of an unknown kind, and asks. -/
def detour : List Operation :=
  [.addHop "students" ⟨1⟩, .selectHop ⟨1⟩, .removeHop ⟨1⟩, .addHop "schools" ⟨2⟩,
    .addHop "comets" ⟨3⟩, .run fun _ => .failed]

/-- After that run a field that students have and schools have not cannot be flipped, and nothing
comes of the attempt. -/
theorem fails_iff_refuses_detour :
    let first := start .school .school 2 .nested
    let op := Operation.toggleField ⟨2⟩ "userName"
    let failure := Failure.chain (.unknownField ⟨2⟩ "userName")
    (first.drawn (detour ++ [op])).Nodup ∧ (first.steps detour).perform op = .error failure ∧
      (Desk.perform op).outcome ⟨first.steps detour, []⟩ =
        (.error failure, ⟨first.steps detour, []⟩) := by
  intro first op failure
  have hdrawn : (first.drawn (detour ++ [op])).Nodup := by decide +kernel
  obtain ⟨hcatalog, -, hfails, -, hplace⟩ :=
    fails_iff_refuses .school .school 2 .nested detour op hdrawn
  have hlacks : (first.steps detour).chain.Lacks (first.steps detour).catalog.fields ⟨2⟩
      "userName" := by
    refine ⟨⟨⟨2⟩, "schools"⟩, by decide +kernel, rfl, ["id", "name"], ?_, by decide⟩
    rw [hcatalog]
    decide +kernel
  have hperform := (hfails failure).2 (.unknownField hlacks)
  refine ⟨hdrawn, hperform, ?_⟩
  rw [hplace, hperform]

end Session

end HopQuery
