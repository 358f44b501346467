import HopQuery.Proofs.Chain.Stays
import HopQuery.Proofs.Selection.Stages

/-!
# Growing a selection

The selection of a chain along a path is made from the inside out, a level around what follows it.
It can as well be grown from the outside in: each level is put into the slot inside the level before
it, which is empty until then. Both give the same, and fail in the same way.

* `Selection.level`, `Selection.child?`, `Selection.inner?`: what stands how far inside;
* `Selection.put`, `Selection.Growth`, `Selection.grown`: a selection grown slot by slot;
* `grown_eq_ofChain`: the two ways agree;
* `ofChain_nested`: the selection of every chain along every path, level by level.
-/

namespace HopQuery.Selection

/-! ### Looking inside -/

/-- The outermost level. -/
def level : Selection → Level
  | .innermost level => level
  | .around level _ => level

/-- The selection inside the outermost level, if there is one. -/
def child? : Selection → Option Selection
  | .innermost _ => none
  | .around _ inner => some inner

/-- A level with a selection inside it, or with none. -/
def node (level : Level) : Option Selection → Selection
  | none => .innermost level
  | some inner => .around level inner

/-- What remains of a selection inside as many levels. -/
def inner? : Selection → Nat → Option Selection
  | s, 0 => some s
  | s, count + 1 => s.child?.bind (inner? · count)

@[simp]
theorem level_node (level : Level) (child : Option Selection) : (node level child).level = level := by
  cases child <;> rfl

@[simp]
theorem child?_node (level : Level) (child : Option Selection) :
    (node level child).child? = child := by
  cases child <;> rfl

theorem ofLevels?_cons (level : Level) (rest : List Level) :
    ofLevels? (level :: rest) = some (node level (ofLevels? rest)) := by
  rw [ofLevels?]
  cases ofLevels? rest <;> rfl

theorem depth_eq_length_levels (s : Selection) : s.depth = s.levels.length := by
  induction s with
  | innermost level => rfl
  | around level inner ih => rw [depth, levels, List.length_cons, ih]

/-- Inside as many levels of a selection stands the selection with the levels that follow. -/
theorem inner?_of_ofLevels? {levels : List Level} {s : Selection}
    (h : ofLevels? levels = some s) (count : Nat) : s.inner? count = ofLevels? (levels.drop count) := by
  induction count generalizing levels s with
  | zero => exact h.symm
  | succ count ih =>
    cases levels with
    | nil => cases h
    | cons level rest =>
      rw [ofLevels?_cons] at h
      cases h
      rw [inner?, child?_node, List.drop_succ_cons]
      cases hrest : ofLevels? rest with
      | none =>
        rw [(ofLevels?_eq_none_iff rest).1 hrest, List.drop_nil]
        rfl
      | some inner => exact ih hrest

theorem depth_of_ofLevels? {levels : List Level} {s : Selection} (h : ofLevels? levels = some s) :
    s.depth = levels.length := by
  rw [depth_eq_length_levels, levels_of_ofLevels? h]

theorem inner?_eq_none_iff {levels : List Level} {s : Selection} (h : ofLevels? levels = some s)
    (count : Nat) : s.inner? count = none ↔ s.depth ≤ count := by
  rw [inner?_of_ofLevels? h, ofLevels?_eq_none_iff, List.drop_eq_nil_iff, depth_of_ofLevels? h]

/-- Each level stands around what follows it. -/
theorem inner?_eq_node {levels : List Level} {s : Selection} (h : ofLevels? levels = some s)
    {index : Nat} {level : Level} (hlevel : levels[index]? = some level) :
    s.inner? index = some (node level (s.inner? (index + 1))) := by
  obtain ⟨hindex, rfl⟩ := List.getElem?_eq_some_iff.1 hlevel
  rw [inner?_of_ofLevels? h, inner?_of_ofLevels? h, ← ofLevels?_cons, List.drop_eq_getElem_cons]

/-! ### Growing from the outside in -/

/-- What is grown so far with the level put into the slot that stands inside as many levels, in place
of what is in it. -/
def put (level : Level) : Nat → Option Selection → Option Selection
  | 0, _ => some (.innermost level)
  | _ + 1, none => none
  | slot + 1, some s => some (node s.level (put level slot s.child?))

/-- A selection that is being grown. -/
structure Growth where
  /-- What is grown so far. -/
  root : Option Selection
  /-- How many levels the slot for the next one stands inside. -/
  slot : Nat

namespace Growth

/-- Nothing has grown yet. -/
def start : Growth :=
  ⟨none, 0⟩

/-- The level of the hop is put into the slot, and the slot inside it is the next one. -/
def step (chain : Chain) (growth : Growth) : Hop × Segment → Except QueryError Growth
  | (hop, segment) => do
    let level ← Level.ofHop chain hop segment.typeName
    return ⟨put level growth.slot growth.root, growth.slot + 1⟩

/-- The levels have grown. -/
def ofLevels (levels : List Level) : Growth :=
  ⟨ofLevels? levels, levels.length⟩

end Growth

/-- The selection of the chain along the path, grown hop by hop as far as both go. -/
def grown (chain : Chain) (path : Path) : Except QueryError Selection := do
  let growth ← (chain.hops.zip path.segments).foldlM (Growth.step chain) Growth.start
  match growth.root with
  | none => throw .emptyChain
  | some s => return s

/-- The slot inside the last level takes the next one. -/
theorem put_ofLevels? (levels : List Level) (level : Level) :
    put level levels.length (ofLevels? levels) = ofLevels? (levels ++ [level]) := by
  induction levels with
  | nil => rfl
  | cons first rest ih =>
    rw [List.length_cons, ofLevels?_cons, put, level_node, child?_node, ih, List.cons_append,
      ofLevels?_cons]

/-- Hop by hop, what has grown are the levels of the hops behind those before. -/
theorem foldlM_step_ofLevels (chain : Chain) (hops : List Hop) (segments : List Segment)
    (levels : List Level) :
    (hops.zip segments).foldlM (Growth.step chain) (Growth.ofLevels levels) =
      (Level.ofHops chain hops segments).map fun more => Growth.ofLevels (levels ++ more) := by
  induction hops generalizing segments levels with
  | nil => simp [Level.ofHops, Except.map, pure, Except.pure]
  | cons hop hops ih =>
    cases segments with
    | nil => simp [Level.ofHops, Except.map, pure, Except.pure]
    | cons segment segments =>
      rw [List.zip_cons_cons, List.foldlM_cons, Growth.step, Level.ofHops]
      cases Level.ofHop chain hop segment.typeName with
      | error error => rfl
      | ok level =>
        have hgrown : (⟨put level (Growth.ofLevels levels).slot (Growth.ofLevels levels).root,
            (Growth.ofLevels levels).slot + 1⟩ : Growth) = Growth.ofLevels (levels ++ [level]) := by
          rw [Growth.ofLevels, Growth.ofLevels, put_ofLevels?, List.length_append,
            List.length_singleton]
        show (hops.zip segments).foldlM (Growth.step chain) _ = _
        rw [hgrown, ih]
        cases Level.ofHops chain hops segments with
        | error error => rfl
        | ok more => simp [Except.map, bind, Except.bind, pure, Except.pure]

/-- A selection grown from the outside in is the one made from the inside out. -/
theorem grown_eq_ofChain (chain : Chain) (path : Path) : grown chain path = ofChain chain path := by
  rw [grown, ofChain, show Growth.start = Growth.ofLevels [] from rfl, foldlM_step_ofLevels]
  cases Level.ofHops chain chain.hops path.segments <;> rfl

/-! ### Level by level -/

/-- The level of a stage shows its choices in the order of the catalog. -/
theorem levelOf_stage (s : Stay) (segment : Segment) :
    Level.ofStage s.stage segment = ⟨segment.typeName,
      s.entity.filters.filterMap fun filter =>
        ((s.stage.values.get? filter).filter (· ≠ "")).map (filter, ·),
      s.entity.fields.filter fun field => s.stage.selection.isIncluded? field = some true⟩ := by
  rw [Level.ofStage, Level.mk.injEq]
  refine ⟨rfl, ?_, ?_⟩
  · rw [Stay.stage, FilterValues.active_map]
    refine List.filterMap_congr fun filter hfilter => ?_
    have hvalue : FilterValues.get? ⟨s.entity.filters.map fun filter => (filter, s.value filter)⟩
        filter = some (s.value filter) := List.lookup_graph s.value hfilter
    rw [hvalue]
    by_cases h : s.value filter = "" <;> simp [h, Option.filter_some]
  · rw [Stay.stage, FieldSelection.included_map]
    refine List.filter_congr fun field hfield => ?_
    have hincluded : FieldSelection.isIncluded? ⟨s.entity.fields.map fun field =>
        (field, s.includes field)⟩ field = some (s.includes field) :=
      List.lookup_graph s.includes hfield
    simp [hincluded]

/-- The selection of a chain that consists of stages has their levels, as far as the path goes. -/
theorem ofChain_eq_elim {chain : Chain} {stages : List Stage} (h : chain.Consists stages)
    (path : Path) : ofChain chain path =
      (ofLevels? (List.zipWith Level.ofStage stages path.segments)).elim (.error .emptyChain) .ok := by
  have hlevels : Level.ofHops chain chain.hops path.segments =
      .ok (List.zipWith Level.ofStage stages path.segments) := by
    rw [h.hops_eq]
    exact Level.ofHops_map_hop (fun s hs => ⟨h.get?_fields hs, h.get?_filters hs⟩) path.segments
  rw [ofChain, hlevels]
  cases hs : ofLevels? (List.zipWith Level.ofStage stages path.segments) <;>
    simp [bind, Except.bind, hs, throw, throwThe, MonadExceptOf.throw, pure, Except.pure]

/-- The selection of a chain along a path fails if one of them is empty, and only then. -/
theorem ofChain_eq_emptyChain_iff {chain : Chain} {stages : List Stage} (h : chain.Consists stages)
    (path : Path) :
    ofChain chain path = .error .emptyChain ↔ chain.hops = [] ∨ path.segments = [] := by
  have hlevels : ofLevels? (List.zipWith Level.ofStage stages path.segments) = none ↔
      chain.hops = [] ∨ path.segments = [] := by
    rw [ofLevels?_eq_none_iff, List.zipWith_eq_nil_iff, h.hops_eq, List.map_eq_nil_iff]
  rw [ofChain_eq_elim h, ← hlevels]
  cases ofLevels? (List.zipWith Level.ofStage stages path.segments) <;> simp

/-- Every chain that changes can make has a selection along every path, unless the chain or the path
is empty. It goes as far as both go. Its level for a hop is written as the type that stands in the
place of the hop on the path, whatever hop that type is meant for; it selects those fields of the
catalog that the hop includes and has as arguments those filters of the catalog that the hop gives a
value, both in the order of the catalog from which the hop was appended last; and the level of the
next hop stands inside it. It makes no difference whether the levels are put into one another from
the outside in or from the inside out. -/
theorem ofChain_nested (es : List Edit) (path : Path) :
    let chain := Chain.empty.edits es
    grown chain path = ofChain chain path ∧
    (ofChain chain path = .error .emptyChain ↔ chain.hops = [] ∨ path.segments = []) ∧
    (chain.hops ≠ [] → path.segments ≠ [] → ∃ s, ofChain chain path = .ok s ∧
      s.depth = min chain.hops.length path.segments.length ∧
      (∀ index, s.inner? index = none ↔ s.depth ≤ index) ∧
      ∀ (index : Nat) (hop : Hop) (segment : Segment),
        chain.hops[index]? = some hop → path.segments[index]? = some segment →
          ∃ (before since : List Edit) (catalog : Catalog) (entity : Entity)
            (selection : FieldSelection) (values : FilterValues),
            Chain.empty.made es = before ++ .append catalog hop.kind hop.id :: since ∧
            (∀ e ∈ since, e.moves hop.id = false) ∧ catalog.entity hop.kind = .ok entity ∧
            chain.fields.get? hop.id = some selection ∧ chain.filters.get? hop.id = some values ∧
            s.inner? index = some (node ⟨segment.typeName,
              entity.filters.filterMap fun filter =>
                ((values.get? filter).filter (· ≠ "")).map (filter, ·),
              entity.fields.filter fun field => selection.isIncluded? field = some true⟩
              (s.inner? (index + 1)))) := by
  intro chain
  have hempty : Chain.empty.Consists ((stays []).map Stay.stage) := Chain.Consists.empty
  have h : chain.Consists ((stays (Chain.empty.made es)).map Stay.stage) := hempty.edits_made es
  let levels := List.zipWith Level.ofStage ((stays (Chain.empty.made es)).map Stay.stage) path.segments
  have hlength : levels.length = min chain.hops.length path.segments.length := by
    rw [List.length_zipWith, h.hops_eq, List.length_map Stage.hop]
  refine ⟨grown_eq_ofChain chain path, ofChain_eq_emptyChain_iff h path, fun hhops hsegments => ?_⟩
  obtain ⟨s, hs⟩ : ∃ s, ofLevels? levels = some s := by
    refine Option.ne_none_iff_exists'.1 fun heq => ?_
    have hfails : ofChain chain path = .error .emptyChain := by
      rw [ofChain_eq_elim h, heq]
      rfl
    exact ((ofChain_eq_emptyChain_iff h path).1 hfails).elim hhops hsegments
  refine ⟨s, ?_, (depth_of_ofLevels? hs).trans hlength, inner?_eq_none_iff hs,
    fun index hop segment hhop hsegment => ?_⟩
  · rw [ofChain_eq_elim h, hs]
    rfl
  obtain ⟨stay, hstay, rfl⟩ : ∃ stay, (stays (Chain.empty.made es))[index]? = some stay ∧
      stay.hop = hop := by
    rw [h.hops_eq, List.getElem?_map, List.getElem?_map, Option.map_map] at hhop
    exact Option.map_eq_some_iff.1 hhop
  have hmem := List.mem_of_getElem? hstay
  have hlevel : levels[index]? = some (Level.ofStage stay.stage segment) := by
    rw [List.getElem?_zipWith, List.getElem?_map, hstay, hsegment]
    rfl
  obtain ⟨before, catalog, hmade, hentity⟩ := exists_eq_append_of_mem_stays hmem
  have hstage := List.mem_map_of_mem (f := Stay.stage) hmem
  refine ⟨before, stay.since, catalog, stay.entity, stay.stage.selection, stay.stage.values, hmade,
    not_moves_of_mem_stays hmem, hentity, h.get?_fields hstage, h.get?_filters hstage, ?_⟩
  rw [← levelOf_stage]
  exact inner?_eq_node hs hlevel

/-- A path that is longer than the chain, with the hops in another order. -/
theorem ofChain_nested_misplaced :
    let a : HopId := ⟨0⟩
    let b : HopId := ⟨1⟩
    let chain := Chain.empty.edits (Chain.reappending a b)
    let path : Path := ⟨[⟨a, "pupils"⟩, ⟨b, "sets"⟩, ⟨a, "rest"⟩]⟩
    chain.hops = [⟨b, "students"⟩, ⟨a, "groups"⟩] ∧ ∃ s, grown chain path = .ok s ∧ s.depth = 2 ∧
      s.inner? 1 = some (.innermost ⟨"sets", [], ["id"]⟩) ∧ s.inner? 2 = none := by
  intro a b chain path
  have hhops : chain.hops = [⟨b, "students"⟩, ⟨a, "groups"⟩] := by decide +kernel
  obtain ⟨hgrown, -, hnested⟩ := ofChain_nested (Chain.reappending a b) path
  obtain ⟨s, hs, hdepth, hnone, -⟩ := hnested (hhops ▸ List.cons_ne_nil _ _) (List.cons_ne_nil _ _)
  have hdepth' : s.depth = 2 := hdepth.trans (by rw [hhops]; rfl)
  refine ⟨hhops, s, hgrown.trans hs, hdepth', ?_, (hnone 2).2 (Nat.le_of_eq hdepth')⟩
  have hwhole : ofChain chain path = .ok (.around
      ⟨"pupils", [("id", "8")], ["id", "firstName", "lastName", "userName"]⟩
      (.innermost ⟨"sets", [], ["id"]⟩)) := by decide +kernel
  obtain rfl := Except.ok.inj (hs.symm.trans hwhole)
  rfl

end HopQuery.Selection
