import HopQuery.CommandLine.Run
import HopQuery.Proofs.Chain.Stays
import HopQuery.Proofs.Outcome
import HopQuery.Proofs.Session.Operation
import Mathlib.Data.List.Forall2

/-!
# Building a chain from options

The options of a command line come down to changes of a chain: one appending per hop, then one
change per argument, in the order given. The chain is built if none of them is refused.

* `HopReference.read?`, with `split_eq_ok_iff`: the number and the text of a reference;
* `Edit.ofExclude?`, `Edit.ofFilter?`: the change that an argument names;
* `Chain.editAll?`: the chain after changes none of which is refused;
* `Session.Edited`: a session and the one that changes have made of it;
* `edited_of_build`: the session that the options describe.
-/

namespace HopQuery

/-! ### References -/

/-- The number of a hop before the first colon, and the text behind the colon. -/
def HopReference.read? (argument : String) : Option (Nat × String) :=
  (splitAtFirst ':' argument).bind fun (digits, rest) =>
    (Text.readNumeral digits).toOption.map (·, rest)

/-- A reference leads to the hop whose number it gives, where numbers begin with one. -/
theorem HopReference.split_eq_ok_iff (ids : List HopId) (argument : String) (id : HopId)
    (rest : String) : split ids argument = .ok (id, rest) ↔
      ∃ index, read? argument = some (index + 1, rest) ∧ ids[index]? = some id := by
  unfold split read?
  split
  · next hnone => simp [hnone]
  · next digits text hsome =>
    cases hnumber : Text.readNumeral digits with
    | error error => simp [hsome, hnumber, Except.toOption]
    | ok number =>
      cases number with
      | zero => simp [hsome, hnumber, Except.toOption]
      | succ index =>
        cases hid : ids[index]? with
        | none => simp [hsome, hnumber, hid, Except.toOption]
        | some other => simp [hsome, hnumber, hid, Except.toOption, and_comm]

namespace Edit

/-- The change that an argument of `--exclude` names: a field is flipped. -/
def ofExclude? (ids : List HopId) (argument : String) : Except CommandError Edit :=
  (HopReference.split ids argument).map fun (id, field) => .toggleField id field

/-- The change that an argument of `--filter` names: a filter is set. -/
def ofFilter? (ids : List HopId) (argument : String) : Except CommandError Edit :=
  (Assignment.split ids argument).map fun (id, filter, value) => .setFilter id filter value

end Edit

/-! ### Changes none of which is refused -/

namespace Chain

/-- The chain after changes, unless one of them is refused. -/
def editAll? (chain : Chain) (es : List Edit) : Except ChainError Chain :=
  es.foldlM edit? chain

theorem editAll?_cons_eq_ok_iff (chain : Chain) (e : Edit) (es : List Edit) (last : Chain) :
    chain.editAll? (e :: es) = .ok last ↔
      ∃ next, chain.edit? e = .ok next ∧ next.editAll? es = .ok last := by
  rw [editAll?, List.foldlM_cons, bind_eq_ok_iff]
  rfl

theorem editAll?_append_eq_ok_iff (chain : Chain) (es fs : List Edit) (last : Chain) :
    chain.editAll? (es ++ fs) = .ok last ↔
      ∃ next, chain.editAll? es = .ok next ∧ next.editAll? fs = .ok last := by
  rw [editAll?, List.foldlM_append, bind_eq_ok_iff]
  rfl

/-- All changes of a run without refusals are made. -/
theorem made_of_editAll? {chain last : Chain} {es : List Edit} (h : chain.editAll? es = .ok last) :
    chain.made es = es ∧ chain.edits es = last := by
  induction es generalizing chain with
  | nil =>
    cases h
    exact ⟨rfl, rfl⟩
  | cons e es ih =>
    obtain ⟨next, hnext, hlast⟩ := (editAll?_cons_eq_ok_iff ..).1 h
    obtain ⟨hmade, hedits⟩ := ih hlast
    constructor
    · rw [made, hnext]
      exact congrArg (e :: ·) hmade
    · rw [edits_cons, edit, hnext]
      exact hedits

/-- A chain that is built from nothing consists of the stages that its changes tell of. -/
theorem consists_of_editAll? {chain : Chain} {es : List Edit}
    (h : Chain.empty.editAll? es = .ok chain) : chain.Consists ((stays es).map Stay.stage) := by
  have hempty : Chain.empty.Consists ((stays []).map Stay.stage) := Consists.empty
  obtain ⟨hmade, rfl⟩ := made_of_editAll? h
  simpa [hmade] using hempty.edits_made es

/-- A change of choices keeps the hops. -/
theorem hops_of_edit? {chain next : Chain} {e : Edit} (he : ∀ id, e.moves id = false)
    (h : chain.edit? e = .ok next) : next.hops = chain.hops := by
  cases e with
  | append catalog kind id => simpa [Edit.moves] using he id
  | remove id => simpa [Edit.moves] using he id
  | toggleField id field =>
    obtain ⟨selection, toggled, -, -, rfl⟩ := (toggleField_eq_ok_iff ..).1 h
    rfl
  | setFilter id filter value =>
    obtain ⟨values, updated, -, -, rfl⟩ := (setFilter_eq_ok_iff ..).1 h
    rfl

theorem hops_of_editAll? {chain last : Chain} {es : List Edit}
    (hes : ∀ e ∈ es, ∀ id, e.moves id = false) (h : chain.editAll? es = .ok last) :
    last.hops = chain.hops := by
  induction es generalizing chain with
  | nil =>
    cases h
    rfl
  | cons e es ih =>
    obtain ⟨he, hes⟩ := List.forall_mem_cons.1 hes
    obtain ⟨next, hnext, hlast⟩ := (editAll?_cons_eq_ok_iff ..).1 h
    rw [ih hes hlast, hops_of_edit? he hnext]

/-- Appendings leave their hops in order. -/
theorem hops_of_editAll?_append {chain last : Chain} {catalog : Catalog}
    {pairs : List (String × HopId)}
    (h : chain.editAll? (pairs.map fun (kind, id) => .append catalog kind id) = .ok last) :
    last.hops = chain.hops ++ pairs.map fun (kind, id) => ⟨id, kind⟩ := by
  induction pairs generalizing chain with
  | nil =>
    cases h
    simp
  | cons pair pairs ih =>
    obtain ⟨next, hnext, hlast⟩ := (editAll?_cons_eq_ok_iff ..).1 h
    obtain ⟨-, entity, -, rfl⟩ := (append_eq_ok_iff ..).1 hnext
    simp [ih hlast]

end Chain

namespace Session

/-! ### The session of the options -/

/-- The changes, none of which is refused, have made the chain of one session that of another. -/
structure Edited (s : Session) (es : List Edit) (next : Session) : Prop where
  chain_eq : s.chain.editAll? es = .ok next.chain
  catalog_eq : next.catalog = s.catalog
  rules_eq : next.rules = s.rules

variable {s next last : Session} {es fs : List Edit}

theorem Edited.refl (s : Session) : Edited s [] s :=
  ⟨rfl, rfl, rfl⟩

theorem Edited.trans (h : Edited s es next) (h' : Edited next fs last) :
    Edited s (es ++ fs) last where
  chain_eq := (Chain.editAll?_append_eq_ok_iff ..).2 ⟨_, h.chain_eq, h'.chain_eq⟩
  catalog_eq := h'.catalog_eq.trans h.catalog_eq
  rules_eq := h'.rules_eq.trans h.rules_eq

theorem Edited.of_edit? {e : Edit} (hchain : s.chain.edit? e = .ok next.chain)
    (hcatalog : next.catalog = s.catalog) (hrules : next.rules = s.rules) :
    Edited s [e] next where
  chain_eq := (Chain.editAll?_cons_eq_ok_iff ..).2 ⟨next.chain, hchain, rfl⟩
  catalog_eq := hcatalog
  rules_eq := hrules

theorem edited_of_addHops {pairs : List (String × HopId)} (h : s.addHops pairs = .ok next) :
    Edited s (pairs.map fun (kind, id) => .append s.catalog kind id) next := by
  induction pairs generalizing s with
  | nil =>
    cases h
    exact .refl _
  | cons pair pairs ih =>
    obtain ⟨kind, id⟩ := pair
    obtain ⟨added, hadded, hrest⟩ := (bind_eq_ok_iff ..).1 h
    obtain ⟨-, chain, hchain, rfl⟩ := (addHop_eq_ok_iff ..).1 hadded
    have hfirst : Edited s [.append s.catalog kind id]
        { s with chain := chain, compiled := none, fetch := .pending } := .of_edit? hchain rfl rfl
    exact hfirst.trans (ih hrest)

/-- Arguments that each name a change and are applied by making it. -/
theorem edited_of_foldlM {apply : Session → String → Except CommandError Session}
    {read : String → Except CommandError Edit}
    (happly : ∀ s next argument, apply s argument = .ok next →
      ∃ e, read argument = .ok e ∧ Edited s [e] next)
    {arguments : List String} (h : arguments.foldlM apply s = .ok next) :
    ∃ es, List.Forall₂ (fun argument e => read argument = .ok e) arguments es ∧
      Edited s es next := by
  induction arguments generalizing s with
  | nil =>
    cases h
    exact ⟨[], .nil, .refl _⟩
  | cons argument arguments ih =>
    rw [List.foldlM_cons, bind_eq_ok_iff] at h
    obtain ⟨mid, hmid, hrest⟩ := h
    obtain ⟨e, he, hfirst⟩ := happly _ _ _ hmid
    obtain ⟨es, hes, hedited⟩ := ih hrest
    exact ⟨e :: es, .cons he hes, hfirst.trans hedited⟩

theorem edited_of_applyExclude (ids : List HopId) (s next : Session) (argument : String)
    (h : applyExclude ids s argument = .ok next) :
    ∃ e, Edit.ofExclude? ids argument = .ok e ∧ Edited s [e] next := by
  unfold applyExclude at h
  obtain ⟨⟨id, field⟩, hsplit, htoggle⟩ := (bind_eq_ok_iff ..).1 h
  obtain ⟨chain, hchain, rfl⟩ := (toggleField_eq_ok_iff ..).1 ((mapError_eq_ok_iff ..).1 htoggle)
  exact ⟨.toggleField id field, (map_eq_ok_iff ..).2 ⟨_, hsplit, rfl⟩, .of_edit? hchain rfl rfl⟩

theorem edited_of_applyFilter (ids : List HopId) (s next : Session) (argument : String)
    (h : applyFilter ids s argument = .ok next) :
    ∃ e, Edit.ofFilter? ids argument = .ok e ∧ Edited s [e] next := by
  unfold applyFilter at h
  obtain ⟨⟨id, filter, value⟩, hsplit, hset⟩ := (bind_eq_ok_iff ..).1 h
  obtain ⟨chain, hchain, rfl⟩ := (setFilter_eq_ok_iff ..).1 ((mapError_eq_ok_iff ..).1 hset)
  exact ⟨.setFilter id filter value, (map_eq_ok_iff ..).2 ⟨_, hsplit, rfl⟩,
    .of_edit? hchain rfl rfl⟩

/-- The changes that options come down to, on a chain whose new hops get the identifiers. -/
structure Planned (catalog : Catalog) (ids : List HopId) (options : ChainOptions)
    (appends excludes filters : List Edit) : Prop where
  appends_eq : appends =
    (options.hops.zip ids).map fun (kind, id) => .append catalog kind id
  excludes_read :
    List.Forall₂ (fun argument e => Edit.ofExclude? ids argument = .ok e) options.excludes excludes
  filters_read :
    List.Forall₂ (fun argument e => Edit.ofFilter? ids argument = .ok e) options.filters filters

/-- The session that the options describe is made by the changes that they come down to. -/
theorem edited_of_build {fresh : Nat → HopId} {options : ChainOptions}
    (h : s.build fresh options = .ok next) : ∃ appends excludes filters,
      Planned s.catalog ((List.range options.hops.length).map fresh) options
        appends excludes filters ∧
      Edited s (appends ++ excludes ++ filters) next := by
  unfold build at h
  generalize (List.range options.hops.length).map fresh = ids at h ⊢
  obtain ⟨added, hadded, h⟩ := (bind_eq_ok_iff ..).1 h
  obtain ⟨excluded, hexcluded, hfiltered⟩ := (bind_eq_ok_iff ..).1 h
  have happends := edited_of_addHops ((mapError_eq_ok_iff ..).1 hadded)
  obtain ⟨excludes, hread, hexcludes⟩ := edited_of_foldlM (edited_of_applyExclude ids) hexcluded
  obtain ⟨filters, hread', hfilters⟩ := edited_of_foldlM (edited_of_applyFilter ids) hfiltered
  exact ⟨_, excludes, filters, ⟨rfl, hread, hread'⟩, (happends.trans hexcludes).trans hfilters⟩

end Session

end HopQuery
