import HopQuery.Proofs.Session.Renaming
import Mathlib.Data.Fintype.Sets
import Mathlib.Data.Fintype.Sum
import Mathlib.Logic.Equiv.Fintype

/-!
# Scripts

A script names hops by the order in which they are created, as one has to who does not know the
identifiers that they will get. Two runs of one script that draw different identifiers go alike:
at every moment they hold and show the same, but for the identifiers.

* `HopName`, `Instruction`, `additions`, `strangers`: scripts;
* `Moment`, `Moment.after`, `moments`: a run of a script that draws given identifiers;
* `moments_rename`: the run that draws other identifiers;
* `Fresh`, `exists_renaming`: identifiers that serve for a script, and how two rows of them
  are renamed into each other;
* `moments_correspond`: the moments of any two runs correspond.
-/

namespace HopQuery

/-! ### Scripts -/

/-- How a script names a hop. -/
inductive HopName
  /-- By its place among the hops that are created, counted from zero. -/
  | created (place : Nat)
  /-- By an identifier that no hop gets. -/
  | stranger (id : HopId)

namespace HopName

/-- The identifier of the hop, given those of the hops created so far. -/
def id? (created : List HopId) : HopName → Option HopId
  | .created place => created[place]?
  | .stranger id => some id

/-- The identifier of a stranger. -/
def strangers : HopName → List HopId
  | .created _ => []
  | .stranger id => [id]

end HopName

/-- One operation of a script. -/
inductive Instruction
  | addHop (kind : String)
  | removeHop (hop : HopName)
  | toggleField (hop : HopName) (field : String)
  | setFilter (hop : HopName) (filter value : String)
  | selectHop (hop : HopName)
  | toggleMode
  | search
  | record (fetch : Fetch)
  | run (answer : Query → Fetch)

namespace Instruction

/-- The operation, given the identifiers of the hops created so far and the one that a new hop
gets; none on a hop that has not been created yet. -/
def operation? (created : List HopId) (drawn : HopId) : Instruction → Option Operation
  | .addHop kind => some (.addHop kind drawn)
  | .removeHop hop => (hop.id? created).map .removeHop
  | .toggleField hop field => (hop.id? created).map (.toggleField · field)
  | .setFilter hop filter value => (hop.id? created).map (.setFilter · filter value)
  | .selectHop hop => (hop.id? created).map .selectHop
  | .toggleMode => some .toggleMode
  | .search => some .search
  | .record fetch => some (.record fetch)
  | .run answer => some (.run answer)

/-- Whether a hop is to be added. -/
def adds : Instruction → Bool
  | .addHop _ => true
  | _ => false

/-- The strangers that the instruction names. -/
def strangers : Instruction → List HopId
  | .removeHop hop => hop.strangers
  | .toggleField hop _ => hop.strangers
  | .setFilter hop _ _ => hop.strangers
  | .selectHop hop => hop.strangers
  | _ => []

end Instruction

/-- The number of hops that a script tries to add. -/
def additions (script : List Instruction) : Nat :=
  script.countP Instruction.adds

/-- The strangers that a script names. -/
def strangers (script : List Instruction) : List HopId :=
  script.flatMap Instruction.strangers

/-! ### Runs -/

/-- What there is after an instruction. -/
structure Moment where
  session : Session
  /-- The identifiers of the hops created so far, in order. -/
  created : List HopId
  /-- How many identifiers have been drawn. -/
  drawn : Nat
  /-- Why the instruction failed, if it did. -/
  failure : Option Failure

namespace Moment

/-- Before the first instruction. -/
def start (s : Session) : Moment :=
  ⟨s, [], 0, none⟩

/-- The number of identifiers that an instruction draws: one for a hop that there is room for,
whether or not its kind is known. -/
def draws (m : Moment) (i : Instruction) : Nat :=
  if i.adds ∧ m.session.chain.hops.length < m.session.maxHops then 1 else 0

/-- After one more instruction. An instruction on a hop that has not been created yet is passed
over. -/
def after (ids : Nat → HopId) (m : Moment) (i : Instruction) : Moment :=
  match i.operation? m.created (ids m.drawn) with
  | none => { m with failure := none }
  | some op =>
    match m.session.perform op with
    | .error failure => { m with drawn := m.drawn + m.draws i, failure := some failure }
    | .ok next =>
      { session := next
        created := if i.adds then m.created ++ [ids m.drawn] else m.created
        drawn := m.drawn + m.draws i
        failure := none }

end Moment

/-- The moments of a script, one after each instruction. -/
def moments (ids : Nat → HopId) (m : Moment) : List Instruction → List Moment
  | [] => []
  | i :: rest => m.after ids i :: moments ids (m.after ids i) rest

/-! ### Runs under other identifiers -/

section Rename

variable {σ : Equiv.Perm HopId} {first second : Nat → HopId}

theorem HopName.id?_rename {hop : HopName} (h : ∀ id ∈ hop.strangers, σ id = id)
    (created : List HopId) : hop.id? (created.map σ) = (hop.id? created).map σ := by
  cases hop with
  | created place => exact List.getElem?_map
  | stranger id => exact congrArg some (h id List.mem_cons_self).symm

theorem Instruction.operation?_rename {i : Instruction} (hstrangers : ∀ id ∈ i.strangers, σ id = id)
    {drawn other : HopId} (hdrawn : i.adds = true → σ drawn = other) (created : List HopId) :
    i.operation? (created.map σ) other = (i.operation? created drawn).map (Operation.rename σ) := by
  cases i with
  | addHop kind => rw [← hdrawn rfl]; rfl
  | removeHop hop | toggleField hop field | setFilter hop filter value | selectHop hop =>
    rw [operation?, operation?, HopName.id?_rename hstrangers, Option.map_map, Option.map_map]
    rfl
  | _ => rfl

/-- The moment with other identifiers. -/
def Moment.rename (σ : Equiv.Perm HopId) (m : Moment) : Moment where
  session := m.session.rename σ
  created := m.created.map σ
  drawn := m.drawn
  failure := m.failure.map (Failure.rename σ)

theorem Moment.after_rename {i : Instruction} (hstrangers : ∀ id ∈ i.strangers, σ id = id)
    (m : Moment) (hdrawn : i.adds = true → σ (first m.drawn) = second m.drawn) :
    (m.rename σ).after second i = (m.after first i).rename σ := by
  have hop := Instruction.operation?_rename hstrangers hdrawn m.created
  have hdraws : (m.rename σ).draws i = m.draws i := by
    simp [draws, rename]
  simp only [after, hdraws]
  simp only [rename, hop]
  cases i.operation? m.created (first m.drawn) with
  | none => rfl
  | some op =>
    simp only [Option.map_some, Session.perform_rename]
    cases m.session.perform op with
    | error failure => rfl
    | ok next =>
      cases hadds : i.adds with
      | false => rfl
      | true => simp [mapBoth, hdrawn hadds]

/-- An instruction that adds a hop draws an identifier or none, any other one draws none. -/
theorem Moment.drawn_after (ids : Nat → HopId) (m : Moment) (i : Instruction) :
    m.drawn ≤ (m.after ids i).drawn ∧
      (m.after ids i).drawn ≤ m.drawn + if i.adds then 1 else 0 := by
  have hdraws : m.draws i ≤ if i.adds then 1 else 0 := by
    unfold draws
    cases i.adds
    · simp
    · split <;> simp
  unfold after
  split
  · exact ⟨Nat.le_refl _, Nat.le_add_right _ _⟩
  · split
    all_goals exact ⟨Nat.le_add_right _ _, Nat.add_le_add_left hdraws _⟩

/-- The run that draws other identifiers has the same moments under the other identifiers. -/
theorem moments_rename {script : List Instruction} (hstrangers : ∀ id ∈ strangers script, σ id = id)
    (m : Moment) (hdrawn : ∀ n, m.drawn ≤ n → n < m.drawn + additions script →
      σ (first n) = second n) :
    moments second (m.rename σ) script = (moments first m script).map (Moment.rename σ) := by
  induction script generalizing m with
  | nil => rfl
  | cons i rest ih =>
    have hadditions : additions (i :: rest) = additions rest + if i.adds then 1 else 0 :=
      List.countP_cons
    obtain ⟨hle, hge⟩ := m.drawn_after first i
    have hafter : (m.rename σ).after second i = (m.after first i).rename σ := by
      refine Moment.after_rename (fun id hid => hstrangers id ?_) m fun hadds => ?_
      · exact List.mem_flatMap.2 ⟨i, List.mem_cons_self, hid⟩
      · refine hdrawn _ (Nat.le_refl _) ?_
        rw [hadditions, if_pos hadds]
        omega
    have hrest := ih (fun id hid => hstrangers id (List.mem_append_right _ hid)) (m.after first i)
      fun n hn hlt => hdrawn n (by omega) (by omega)
    rw [moments, hafter, hrest]
    rfl

end Rename

/-! ### Identifiers that serve for a script -/

/-- The identifiers that a script may draw are distinct from each other and from all strangers. -/
structure Fresh (script : List Instruction) (ids : Nat → HopId) : Prop where
  injOn : Set.InjOn ids (Set.Iio (additions script))
  not_stranger : ∀ n < additions script, ids n ∉ strangers script

/-- Identifiers that serve for a script are renamed into any others that do, the strangers kept. -/
theorem exists_renaming {script : List Instruction} {first second : Nat → HopId}
    (hfirst : Fresh script first) (hsecond : Fresh script second) :
    ∃ σ : Equiv.Perm HopId, (∀ n < additions script, σ (first n) = second n) ∧
      ∀ id ∈ strangers script, σ id = id := by
  -- the identifiers to be drawn, and the strangers beside them
  let row (ids : Nat → HopId) : Fin (additions script) ⊕ {id // id ∈ strangers script} → HopId :=
    Sum.elim (fun n => ids n) Subtype.val
  have hrow : ∀ ids, Fresh script ids → Function.Injective (row ids) := fun ids h =>
    Function.Injective.sumElim (fun m n heq => Fin.ext (h.injOn m.2 n.2 heq))
      Subtype.val_injective fun n id heq => h.not_stranger n n.2 (heq ▸ id.2)
  obtain ⟨σ, hσ⟩ := Equiv.Perm.exists_extending_pair (row first) (row second) (hrow _ hfirst)
    (hrow _ hsecond)
  exact ⟨σ, fun n hn => hσ (.inl ⟨n, hn⟩), fun id hid => hσ (.inr ⟨id, hid⟩)⟩

/-! ### Two runs -/

/-- Two moments hold and show the same, but for the identifiers, which are renamed. -/
structure Moment.Corresponds (σ : Equiv.Perm HopId) (m t : Moment) : Prop where
  failure_eq : t.failure = m.failure.map (Failure.rename σ)
  created_eq : t.created = m.created.map σ
  ids_eq : t.session.chain.ids = m.session.chain.ids.map σ
  kinds_eq : t.session.chain.hops.map Hop.kind = m.session.chain.hops.map Hop.kind
  fields_eq : ∀ id, t.session.chain.fields.get? (σ id) = m.session.chain.fields.get? id
  filters_eq : ∀ id, t.session.chain.filters.get? (σ id) = m.session.chain.filters.get? id
  selected_eq : t.session.selected = m.session.selected.map σ
  path_eq : t.session.path = m.session.path.rename σ
  compiled_eq : t.session.compiled = m.session.compiled
  mode_eq : t.session.mode = m.session.mode
  fetch_eq : t.session.fetch = m.session.fetch
  render_eq : t.session.render = m.session.render

theorem Moment.corresponds_rename (σ : Equiv.Perm HopId) (m : Moment) :
    m.Corresponds σ (m.rename σ) where
  failure_eq := rfl
  created_eq := rfl
  ids_eq := by simp [rename, Chain.ids, Hop.rename]
  kinds_eq := by simp [rename, Hop.rename]
  fields_eq id := m.session.chain.fields.get?_rename σ id
  filters_eq id := m.session.chain.filters.get?_rename σ id
  selected_eq := rfl
  path_eq := m.session.path_rename σ
  compiled_eq := rfl
  mode_eq := rfl
  fetch_eq := rfl
  render_eq := m.session.render_rename σ

/-- Two runs of a script from the start, whatever identifiers they draw, correspond at every
moment, under a renaming of the identifiers of the one into those of the other. -/
theorem moments_correspond (catalog : Catalog) (rules : Rules) (maxHops : Nat) (mode : ShapeMode)
    (script : List Instruction) (first second : Nat → HopId) (hfirst : Fresh script first)
    (hsecond : Fresh script second) :
    let s := Moment.start (.start catalog rules maxHops mode)
    ∃ σ : Equiv.Perm HopId, (∀ n < additions script, σ (first n) = second n) ∧
      (∀ id ∈ strangers script, σ id = id) ∧
      List.Forall₂ (Moment.Corresponds σ) (moments first s script) (moments second s script) := by
  intro s
  obtain ⟨σ, hdrawn, hstrangers⟩ := exists_renaming hfirst hsecond
  have hmoments : moments second s script = (moments first s script).map (Moment.rename σ) :=
    moments_rename hstrangers s fun n _ hn => hdrawn n (by simpa [s, Moment.start] using hn)
  refine ⟨σ, hdrawn, hstrangers, ?_⟩
  rw [hmoments, List.forall₂_map_right_iff]
  exact List.forall₂_same.2 fun m _ => m.corresponds_rename σ

/-- A script that adds two hops and fails to add one of an unknown kind between them, then removes
a stranger in vain, selects the second hop, asks, and removes the selected hop. -/
def visit : List Instruction :=
  [.addHop "schools", .addHop "comets", .addHop "students", .removeHop (.stranger ⟨9⟩),
    .selectHop (.created 1), .run fun _ => .ready (.object [("schools", .array [])]),
    .removeHop (.created 1)]

/-- Whether the identifiers count up from zero or down from a hundred, the visit goes alike. -/
theorem moments_correspond_visit :
    let low (n : Nat) : HopId := ⟨BitVec.ofNat 128 n⟩
    let high (n : Nat) : HopId := ⟨BitVec.ofNat 128 (100 - n)⟩
    let s := Moment.start (.start .school .school 5 .nested)
    Fresh visit low ∧ Fresh visit high ∧
      (moments low s visit).map Moment.failure =
        [none, some (.chain (.catalog (.unknownKindWhile "comets" "While appending a hop"))), none,
          some (.chain (.unknownHop ⟨9⟩)), none, none, none] ∧
      ∃ σ : Equiv.Perm HopId, σ (low 2) = high 2 ∧ σ ⟨9⟩ = ⟨9⟩ ∧
        List.Forall₂ (Moment.Corresponds σ) (moments low s visit) (moments high s visit) := by
  intro low high s
  have hlow : Fresh visit low :=
    ⟨show ∀ m < 3, ∀ n < 3, low m = low n → m = n by decide,
      show ∀ n < 3, low n ∉ [⟨9⟩] by decide⟩
  have hhigh : Fresh visit high :=
    ⟨show ∀ m < 3, ∀ n < 3, high m = high n → m = n by decide,
      show ∀ n < 3, high n ∉ [⟨9⟩] by decide⟩
  obtain ⟨σ, hdrawn, hstrangers, hmoments⟩ :=
    moments_correspond .school .school 5 .nested visit low high hlow hhigh
  refine ⟨hlow, hhigh, by decide +kernel, σ, hdrawn 2 (by decide), ?_, hmoments⟩
  exact hstrangers ⟨9⟩ List.mem_cons_self

end HopQuery
