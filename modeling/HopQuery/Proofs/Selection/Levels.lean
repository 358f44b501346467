import HopQuery.Proofs.Outcome
import HopQuery.Selection.Query

/-!
# The levels of a query

How the query of a chain comes about, from the outcome: which levels there are, what their types
are, and when there is no query.

* `Level.exists_ofHops`, `Level.exists_hop_of_mem_ofHops`, `Level.map_typeName_of_ofHops`: the levels
  of hops along segments;
* `Selection.levels_of_ofLevels?`: a selection has the levels that it is made of;
* `Query.compileWithPath_eq_ok_iff`, `Query.compile_eq_ok_iff`: when there is a query, and which.
-/

namespace HopQuery

theorem Path.length_resolveAfter (rules : Rules) (previous : String) (hops : List Hop) :
    (Path.resolveAfter rules previous hops).length = hops.length := by
  induction hops generalizing previous with
  | nil => rfl
  | cons hop hops ih => rw [resolveAfter, List.length_cons, ih, List.length_cons]

/-- A path has one segment per hop. -/
theorem Path.length_resolve (rules : Rules) (hops : List Hop) :
    (Path.resolve rules hops).segments.length = hops.length := by
  cases hops with
  | nil => rfl
  | cons hop hops => rw [resolve, List.length_cons, length_resolveAfter, List.length_cons]

theorem Path.segments_resolve_eq_nil_iff (rules : Rules) (hops : List Hop) :
    (Path.resolve rules hops).segments = [] ↔ hops = [] := by
  rw [← List.length_eq_zero_iff, length_resolve, List.length_eq_zero_iff]

namespace Level

theorem ofHop_eq_ok_iff (chain : Chain) (hop : Hop) (typeName : String) (level : Level) :
    ofHop chain hop typeName = .ok level ↔
      ∃ selection values, chain.fields.get? hop.id = some selection ∧
        chain.filters.get? hop.id = some values ∧
        level = ⟨typeName, values.active, selection.included⟩ := by
  unfold ofHop
  split
  · next selection values hfields hfilters => simp [hfields, hfilters, eq_comm]
  · next hnone =>
    constructor
    · intro h
      cases h
    · rintro ⟨selection, values, hfields, hfilters, -⟩
      exact absurd hfilters (hnone selection values hfields)

theorem ofHops_cons_eq_ok_iff (chain : Chain) (hop : Hop) (hops : List Hop) (segment : Segment)
    (segments : List Segment) (levels : List Level) :
    ofHops chain (hop :: hops) (segment :: segments) = .ok levels ↔
      ∃ level rest, ofHop chain hop segment.typeName = .ok level ∧
        ofHops chain hops segments = .ok rest ∧ levels = level :: rest := by
  rw [ofHops, bind_eq_ok_iff]
  constructor
  · rintro ⟨level, hlevel, h⟩
    obtain ⟨rest, hrest, heq⟩ := (bind_pure_eq_ok_iff ..).1 h
    exact ⟨level, rest, hlevel, hrest, heq⟩
  · rintro ⟨level, rest, hlevel, hrest, rfl⟩
    exact ⟨level, hlevel, (bind_pure_eq_ok_iff ..).2 ⟨rest, hrest, rfl⟩⟩

/-- Hops with their choices have levels, as far as the segments go. -/
theorem exists_ofHops {chain : Chain} {hops : List Hop}
    (h : ∀ hop ∈ hops, hop.id ∈ chain.fields.keys ∧ hop.id ∈ chain.filters.keys)
    (segments : List Segment) :
    ∃ levels, ofHops chain hops segments = .ok levels ∧
      levels.length = min hops.length segments.length := by
  induction hops generalizing segments with
  | nil => exact ⟨[], by simp [ofHops], by simp⟩
  | cons hop hops ih =>
    cases segments with
    | nil => exact ⟨[], by simp [ofHops], by simp⟩
    | cons segment segments =>
      obtain ⟨⟨hfields, hfilters⟩, htail⟩ := List.forall_mem_cons.1 h
      obtain ⟨selection, hselection⟩ := (Table.mem_keys_iff _ _).1 hfields
      obtain ⟨values, hvalues⟩ := (Table.mem_keys_iff _ _).1 hfilters
      obtain ⟨rest, hrest, hlength⟩ := ih htail segments
      refine ⟨⟨segment.typeName, values.active, selection.included⟩ :: rest, ?_, ?_⟩
      · exact (ofHops_cons_eq_ok_iff ..).2
          ⟨_, rest, (ofHop_eq_ok_iff ..).2 ⟨_, _, hselection, hvalues, rfl⟩, hrest, rfl⟩
      · simp only [List.length_cons, hlength]
        omega

/-- A level is made of the choices of a hop. -/
theorem exists_hop_of_mem_ofHops {chain : Chain} {hops : List Hop} {segments : List Segment}
    {levels : List Level} (h : ofHops chain hops segments = .ok levels) :
    ∀ level ∈ levels, ∃ hop ∈ hops, ofHop chain hop level.typeName = .ok level := by
  induction hops generalizing segments levels with
  | nil =>
    cases h
    simp
  | cons hop hops ih =>
    cases segments with
    | nil =>
      cases h
      simp
    | cons segment segments =>
      obtain ⟨level, rest, hlevel, hrest, rfl⟩ := (ofHops_cons_eq_ok_iff ..).1 h
      obtain ⟨selection, values, hfields, hfilters, rfl⟩ := (ofHop_eq_ok_iff ..).1 hlevel
      refine List.forall_mem_cons.2 ⟨⟨hop, List.mem_cons_self, hlevel⟩, fun other hother => ?_⟩
      obtain ⟨hop', hmem, hlevel'⟩ := ih hrest other hother
      exact ⟨hop', List.mem_cons_of_mem _ hmem, hlevel'⟩

/-- The types of the levels are those of the segments. -/
theorem map_typeName_of_ofHops {chain : Chain} {hops : List Hop} {segments : List Segment}
    {levels : List Level} (h : ofHops chain hops segments = .ok levels)
    (hlength : segments.length = hops.length) :
    levels.map Level.typeName = segments.map Segment.typeName := by
  induction hops generalizing segments levels with
  | nil =>
    obtain rfl := List.eq_nil_of_length_eq_zero hlength
    cases h
    rfl
  | cons hop hops ih =>
    cases segments with
    | nil => cases hlength
    | cons segment segments =>
      obtain ⟨level, rest, hlevel, hrest, rfl⟩ := (ofHops_cons_eq_ok_iff ..).1 h
      obtain ⟨selection, values, -, -, rfl⟩ := (ofHop_eq_ok_iff ..).1 hlevel
      rw [List.map_cons, List.map_cons, ih hrest (Nat.succ.inj hlength)]

end Level

namespace Selection

theorem ofLevels?_eq_none_iff (levels : List Level) : ofLevels? levels = none ↔ levels = [] := by
  cases levels with
  | nil => simp [ofLevels?]
  | cons level rest =>
    rw [ofLevels?]
    split <;> simp

/-- A selection has the levels that it is made of. -/
theorem levels_of_ofLevels? {levels : List Level} {s : Selection}
    (h : ofLevels? levels = some s) : s.levels = levels := by
  induction levels generalizing s with
  | nil => cases h
  | cons level rest ih =>
    rw [ofLevels?] at h
    split at h
    · next hnone =>
      cases h
      rw [levels, (ofLevels?_eq_none_iff rest).1 hnone]
    · next inner hinner =>
      cases h
      rw [levels, ih hinner]

theorem ofChain_eq_ok_iff (chain : Chain) (path : Path) (s : Selection) :
    ofChain chain path = .ok s ↔
      ∃ levels, Level.ofHops chain chain.hops path.segments = .ok levels ∧
        ofLevels? levels = some s := by
  unfold ofChain
  rw [bind_eq_ok_iff]
  refine exists_congr fun levels => and_congr_right fun _ => ?_
  cases ofLevels? levels with
  | none => simp [throw, throwThe, MonadExceptOf.throw]
  | some s' => simp [pure, Except.pure]

end Selection

namespace Query

theorem compileWithPath_of_hops_eq_nil {chain : Chain} (h : chain.hops = []) (rules : Rules) :
    compileWithPath chain rules = .error .emptyChain := by
  rw [compileWithPath, h]
  rfl

theorem compileWithPath_of_hops_ne_nil {chain : Chain} (h : chain.hops ≠ []) (rules : Rules) :
    compileWithPath chain rules = (Selection.ofChain chain (chain.path rules)).map
      fun s => (⟨s.document⟩, chain.path rules) := by
  have hempty : chain.hops.isEmpty = false := by rwa [List.isEmpty_eq_false_iff]
  simp only [compileWithPath, hempty, Bool.false_eq_true, if_false]
  cases Selection.ofChain chain (chain.path rules) <;> rfl

/-- A chain with a hop has a query if it has a selection along its path. -/
theorem compileWithPath_eq_ok_iff (chain : Chain) (rules : Rules) (query : Query) (path : Path) :
    compileWithPath chain rules = .ok (query, path) ↔
      chain.hops ≠ [] ∧ path = chain.path rules ∧
        ∃ s, Selection.ofChain chain path = .ok s ∧ query = ⟨s.document⟩ := by
  by_cases hhops : chain.hops = []
  · rw [compileWithPath_of_hops_eq_nil hhops]
    simp [hhops]
  · rw [compileWithPath_of_hops_ne_nil hhops, map_eq_ok_iff]
    constructor
    · rintro ⟨s, hs, heq⟩
      cases heq
      exact ⟨hhops, rfl, s, hs, rfl⟩
    · rintro ⟨-, rfl, s, hs, rfl⟩
      exact ⟨s, hs, rfl⟩

theorem compile_eq_ok_iff (chain : Chain) (rules : Rules) (query : Query) :
    compile chain rules = .ok query ↔
      compileWithPath chain rules = .ok (query, chain.path rules) := by
  unfold compile
  rw [map_eq_ok_iff]
  constructor
  · rintro ⟨⟨query', path⟩, h, rfl⟩
    obtain ⟨-, rfl, -⟩ := (compileWithPath_eq_ok_iff ..).1 h
    exact h
  · intro h
    exact ⟨_, h, rfl⟩

end Query

end HopQuery
