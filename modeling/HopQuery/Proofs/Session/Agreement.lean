import HopQuery.Proofs.Session.History

/-!
# The query and the path of a session

A session holds the text of its query, but not the path: that is found anew whenever something is
shown. As long as there is a query, the path is nevertheless the one along which it was made.

* `follow`: what types lead to in data;
* `Session.Agrees`: what a session shares with the one on which its query was made;
* `agrees_of_compiled`: in every run from the start, a session with a query shares all that.
-/

namespace HopQuery

/-! ### Types, without hops -/

/-- What the types lead to in the data, from the root on, each value once. -/
def follow (catalog : Catalog) (data : Json) : List String → List Json
  | [] => []
  | root :: rest =>
    dedupe <| rest.foldl
      (fun working typeName =>
        working.flatMap (Json.project (catalog.isCollection typeName) typeName))
      (rootElements (data.get? root))

/-- The leaves of a path depend on nothing but its types. -/
theorem Path.leaves_eq_follow (path : Path) (catalog : Catalog) (data : Json) :
    path.leaves catalog data = follow catalog data path.typeNames := by
  obtain ⟨segments⟩ := path
  cases segments with
  | nil => rfl
  | cons root rest =>
    simp only [leaves, walk, typeNames, follow, List.map_cons, List.foldl_map]

/-- The flat view of data along a path with a segment. -/
theorem Json.render_flat {path : Path} (h : path.segments ≠ []) (data : Json)
    (catalog : Catalog) : data.render path .flat catalog =
      some (.flat ((follow catalog data path.typeNames).map FlatEntry.ofJson)) := by
  rw [← Path.leaves_eq_follow]
  unfold Json.render
  split
  · next hnil => exact absurd hnil h
  · rfl

/-- A selection of a chain along its path has the types of the path, level by level. -/
theorem Selection.map_typeName_levels {chain : Chain} {rules : Rules} {selection : Selection}
    (h : Selection.ofChain chain (chain.path rules) = .ok selection) :
    selection.levels.map Level.typeName = (chain.path rules).typeNames := by
  obtain ⟨levels, hlevels, hselection⟩ := (ofChain_eq_ok_iff ..).1 h
  rw [levels_of_ofLevels? hselection]
  exact Level.map_typeName_of_ofHops hlevels (Path.length_resolve rules chain.hops)

namespace Session

/-- What a session shares with an earlier one on which its query was made. -/
structure Agrees (rules : Rules) (query : Query) (earlier s : Session) : Prop where
  hops_ne_nil : s.chain.hops ≠ []
  hops_eq : s.chain.hops = earlier.chain.hops
  mode_eq : s.mode = earlier.mode
  /-- The path of today is the one that came with the query. -/
  compileWithPath_eq : Query.compileWithPath earlier.chain rules = .ok (query, s.path)
  /-- The types that the query opens, from the outside in, are those of the path, and what is
  shown as a flat list is what they lead to in the data. -/
  typeNames_eq : ∃ selection, Selection.ofChain earlier.chain s.path = .ok selection ∧
    query.text = selection.document ∧
    selection.levels.map Level.typeName = s.path.typeNames ∧
    ∀ data, s.fetch = .ready data → s.mode = .flat →
      s.render = some (.flat ((follow s.catalog data
        (selection.levels.map Level.typeName)).map FlatEntry.ofJson))

variable {rules : Rules} {calls : List Call} {query : Query} {s : Session}

theorem render_of_ready_flat (hcompiled : s.compiled = some query) (hne : s.chain.hops ≠ [])
    {data : Json} (hfetch : s.fetch = .ready data) (hmode : s.mode = .flat) :
    s.render = some (.flat ((follow s.catalog data s.path.typeNames).map FlatEntry.ofJson)) := by
  have hsegments : s.path.segments ≠ [] :=
    mt (Path.segments_resolve_eq_nil_iff s.rules s.chain.hops).1 hne
  rw [render, hcompiled, hfetch, hmode]
  exact Json.render_flat hsegments data s.catalog

/-- A session that remembers its calls agrees with the session of the last search. -/
theorem Remembers.agrees (h : Remembers rules calls s) (hcompiled : s.compiled = some query) :
    ∃ earlier, lastSearch? (since Operation.invalidates calls) = some earlier ∧
      Agrees rules query earlier s := by
  obtain ⟨earlier, hlast, hquery, hhops, hmode, hne⟩ := h.exists_of_compiled_eq_some hcompiled
  -- a path is made of the hops alone, so choices that differ do no harm
  have hpath : s.path = earlier.chain.path rules := by
    rw [path, h.rules_eq, Chain.path, Chain.path, hhops]
  have hcompile := (Query.compile_eq_ok_iff ..).1 hquery
  obtain ⟨-, -, selection, hselection, htext⟩ := (Query.compileWithPath_eq_ok_iff ..).1 hcompile
  have htypes := Selection.map_typeName_levels hselection
  rw [← hpath] at hcompile hselection htypes
  refine ⟨earlier, hlast, hne, hhops, hmode, hcompile, selection, hselection, ?_, htypes, ?_⟩
  · rw [htext]
  · intro data hfetch hflat
    rw [htypes]
    exact render_of_ready_flat hcompiled hne hfetch hflat

/-- After any run from the start, a session that holds a query has the hops, the path and the mode
of the session on which the last search was made, and shows the data along the types of the
query. -/
theorem agrees_of_compiled (catalog : Catalog) (rules : Rules) (maxHops : Nat) (mode : ShapeMode)
    (ops : List Operation) (query : Query)
    (h : ((start catalog rules maxHops mode).steps ops).compiled = some query) :
    ∃ earlier,
      lastSearch? (since Operation.invalidates ((start catalog rules maxHops mode).calls ops)) =
        some earlier ∧
      Agrees rules query earlier ((start catalog rules maxHops mode).steps ops) :=
  (Remembers.of_trace (trace_calls _ ops)).agrees h

/-- A run that searches, changes choices afterwards, is given data, and fails to add a hop of an
unknown kind. -/
def visit : List Operation :=
  [.addHop "students" ⟨1⟩, .addHop "schools" ⟨2⟩, .search, .toggleField ⟨1⟩ "id",
    .setFilter ⟨2⟩ "name" "North", .record (.ready (.object [])), .addHop "planets" ⟨3⟩]

/-- The query of that run, from before the choices were changed. -/
def visitQuery : Query :=
  ⟨"{students {id firstName lastName userName school {id name}}}"⟩

theorem agrees_of_compiled_visit :
    ((start .school .school 5 .flat).steps visit).compiled = some visitQuery ∧
      ∃ earlier,
        lastSearch? (since Operation.invalidates ((start .school .school 5 .flat).calls visit)) =
          some earlier ∧
        Agrees .school visitQuery earlier ((start .school .school 5 .flat).steps visit) := by
  have h : ((start .school .school 5 .flat).steps visit).compiled = some visitQuery := by
    decide +kernel
  exact ⟨h, agrees_of_compiled .school .school 5 .flat visit visitQuery h⟩

end Session

end HopQuery
