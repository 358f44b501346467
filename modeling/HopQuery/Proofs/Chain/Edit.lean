import HopQuery.Chain.Basic

/-!
# Editing a chain

The four changes of a chain as data, and runs of them. A change that is refused leaves the chain
as it was.

* `Edit`, `Chain.edit?`: one change, which may be refused;
* `Chain.edit`, `Chain.edits`: a change and a run of changes, past all refusals;
* `append_eq_ok_iff`, `remove_eq_ok_iff`, `toggleField_eq_ok_iff`, `setFilter_eq_ok_iff`: when a
  change is made, and all that it does.
-/

namespace HopQuery

/-- A change of a chain, with what it is given. -/
inductive Edit
  | append (catalog : Catalog) (kind : String) (id : HopId)
  | remove (id : HopId)
  | toggleField (id : HopId) (field : String)
  | setFilter (id : HopId) (filter value : String)

namespace Chain

/-- The chain after a change, unless the change is refused. -/
def edit? (chain : Chain) : Edit → Except ChainError Chain
  | .append catalog kind id => chain.append catalog kind id
  | .remove id => chain.remove id
  | .toggleField id field => chain.toggleField id field
  | .setFilter id filter value => chain.setFilter id filter value

/-- The chain after a change; one that is refused leaves it as it was. -/
def edit (chain : Chain) (e : Edit) : Chain :=
  match chain.edit? e with
  | .ok next => next
  | .error _ => chain

/-- The chain after changes, one after the other. -/
def edits (chain : Chain) (es : List Edit) : Chain :=
  es.foldl edit chain

theorem edits_cons (chain : Chain) (e : Edit) (es : List Edit) :
    chain.edits (e :: es) = (chain.edit e).edits es := rfl

/-- What holds before a run and is kept by every change that is made holds after the run. -/
theorem edits_induction {motive : Chain → Prop} {chain : Chain} (h : motive chain)
    (hstep : ∀ c e next, motive c → c.edit? e = .ok next → motive next) (es : List Edit) :
    motive (chain.edits es) := by
  induction es generalizing chain with
  | nil => exact h
  | cons e es ih =>
    rw [edits_cons]
    apply ih
    unfold edit
    split
    · next next hnext => exact hstep chain e next h hnext
    · exact h

/-! ### Identifiers -/

/-- The identifiers of the hops, outermost first. -/
def ids (chain : Chain) : List HopId :=
  chain.hops.map Hop.id

theorem hop?_eq_none_iff (chain : Chain) (id : HopId) : chain.hop? id = none ↔ id ∉ chain.ids := by
  simp [hop?, ids]

theorem isSome_hop?_iff (chain : Chain) (id : HopId) :
    (chain.hop? id).isSome ↔ id ∈ chain.ids := by
  rw [Option.isSome_iff_ne_none, Ne, hop?_eq_none_iff, Decidable.not_not]

/-! ### What each change does -/

theorem append_eq_ok_iff (chain : Chain) (catalog : Catalog) (kind : String) (id : HopId)
    (next : Chain) : chain.append catalog kind id = .ok next ↔
      id ∉ chain.ids ∧ ∃ entity, catalog.entity kind = .ok entity ∧ next =
        { hops := chain.hops ++ [⟨id, kind⟩]
          fields := chain.fields.insert id (.allIncluded entity.fields)
          filters := chain.filters.insert id (.blank entity.filters) } := by
  unfold append
  rw [← isSome_hop?_iff]
  split
  · next h => simp [h]
  · next h =>
    split
    · next herror => simp [h, herror]
    · next entity hentity => simp [h, hentity, eq_comm]

theorem remove_eq_ok_iff (chain : Chain) (id : HopId) (next : Chain) :
    chain.remove id = .ok next ↔ id ∈ chain.ids ∧ next =
      { hops := chain.hops.filter (·.id ≠ id)
        fields := chain.fields.erase id
        filters := chain.filters.erase id } := by
  unfold remove
  rw [← isSome_hop?_iff]
  split
  · next h => simp [h, eq_comm]
  · next h => simp [h]

theorem toggleField_eq_ok_iff (chain : Chain) (id : HopId) (field : String) (next : Chain) :
    chain.toggleField id field = .ok next ↔
      ∃ selection toggled, chain.fields.get? id = some selection ∧
        selection.toggle? field = some toggled ∧
        next = { chain with fields := chain.fields.insert id toggled } := by
  unfold toggleField
  split
  · next h => simp [h]
  · next selection h =>
    split
    · next htoggle => simp [h, htoggle]
    · next toggled htoggle => simp [h, htoggle, eq_comm]

theorem setFilter_eq_ok_iff (chain : Chain) (id : HopId) (filter value : String) (next : Chain) :
    chain.setFilter id filter value = .ok next ↔
      ∃ values updated, chain.filters.get? id = some values ∧
        values.set? filter value = some updated ∧
        next = { chain with filters := chain.filters.insert id updated } := by
  unfold setFilter
  split
  · next h => simp [h]
  · next values h =>
    split
    · next hset => simp [h, hset]
    · next updated hset => simp [h, hset, eq_comm]

end Chain

end HopQuery
