import HopQuery.CommandLine.Outcome
import HopQuery.Proofs.Chain.Consistency
import HopQuery.Proofs.CommandLine.Building
import HopQuery.Proofs.CommandLine.Settings
import HopQuery.Proofs.Selection.Stages

/-!
# Accepted command lines

A command line that is accepted has a session, a chain and a query. The hops of the chain are those
that the options name, and since a hop was added its choices have been changed by the arguments of
`--exclude` and `--filter`, in this order, and by nothing else.

* `Command.chainOptions?`: the chain that a command asks for;
* `Invocation.exists_query_of_run`, `Session.exists_selection_of_search`: what is there when a
  command line is accepted;
* `Session.hops_of_build`, `Session.length_hops_le_of_build`: the hops of the options, for which there
  is room;
* `PlannedStay`, `Session.exists_stays_of_build`: which changes each of them has seen;
* `Session.exists_level_of_stay`, `Session.exists_search_of_build`: its level, and the query.
-/

namespace HopQuery

/-- The chain that the command asks for. -/
def Command.chainOptions? : Command → Option ChainOptions
  | .kinds => none
  | .compile options => some options
  | .run options _ _ => some options

/-! ### What is there -/

/-- A command line that is accepted has a session, and for `compile` and `run` a query. -/
theorem Invocation.exists_query_of_run {invocation : Invocation} {files : Files}
    {environment : Environment} {fresh : Nat → HopId} {text : String} {options : ChainOptions}
    (hoptions : invocation.command.chainOptions? = some options)
    (h : invocation.run files environment fresh = .ok text) :
    ∃ session built query searched, invocation.session files environment = .ok session ∧
      session.build fresh options = .ok built ∧ built.search = .ok (query, searched) ∧
      (invocation.command = .compile options → text = query.text ++ "\n") := by
  obtain ⟨session, hsession, h⟩ := (bind_eq_ok_iff ..).1 h
  obtain ⟨common, command⟩ := invocation
  cases command with
  | kinds => cases hoptions
  | compile options =>
    cases hoptions
    obtain ⟨built, hbuilt, h⟩ := (bind_eq_ok_iff ..).1 h
    obtain ⟨⟨query, searched⟩, hsearch, h⟩ := (bind_eq_ok_iff ..).1 h
    cases h
    exact ⟨session, built, query, searched, hsession, hbuilt, (mapError_eq_ok_iff ..).1 hsearch,
      fun _ => rfl⟩
  | run options response mode =>
    cases hoptions
    obtain ⟨built, hbuilt, h⟩ := (bind_eq_ok_iff ..).1 h
    obtain ⟨asked, hasked, -⟩ := (bind_eq_ok_iff ..).1 h
    obtain ⟨query, searched, hsearch, -⟩ :=
      (Session.run_eq_ok_iff ..).1 ((mapError_eq_ok_iff ..).1 hasked)
    exact ⟨session, built, query, searched, hsession, hbuilt, hsearch, nofun⟩

/-- The chain of an invocation is built from nothing. -/
theorem Invocation.chain_of_session {invocation : Invocation} {files : Files}
    {environment : Environment} {session : Session}
    (h : invocation.session files environment = .ok session) : session.chain = .empty := by
  obtain ⟨base, settings, catalog, rules, -, -, -, -, -, -, rfl⟩ := (session_eq_ok_iff session).1 h
  rfl

theorem Session.exists_selection_of_search {s searched : Session} {query : Query}
    (h : s.search = .ok (query, searched)) : ∃ selection,
      Selection.ofChain s.chain (s.chain.path s.rules) = .ok selection ∧
        query.text = selection.document := by
  obtain ⟨hquery, -⟩ := (search_eq_ok_iff ..).1 h
  obtain ⟨-, -, selection, hselection, rfl⟩ :=
    (Query.compileWithPath_eq_ok_iff ..).1 ((Query.compile_eq_ok_iff ..).1 hquery)
  exact ⟨selection, hselection, rfl⟩

/-! ### The changes that arguments name -/

/-- Where identifiers are different, they stand at different places. -/
theorem HopReference.id_eq_iff {ids : List HopId} (hnodup : ids.Nodup) {index index' : Nat}
    {id id' : HopId} (hid : ids[index]? = some id) (hid' : ids[index']? = some id') :
    id' = id ↔ index' = index := by
  constructor
  · rintro rfl
    have hlt := (List.getElem?_eq_some_iff.1 hid').1
    exact (List.getElem?_inj hlt hnodup).1 (hid'.trans hid.symm)
  · rintro rfl
    exact Option.some.inj (hid'.symm.trans hid)

namespace Edit

variable {ids : List HopId} {argument : String} {e : Edit}

theorem ofExclude?_eq_ok_iff : ofExclude? ids argument = .ok e ↔
    ∃ index id field, HopReference.read? argument = some (index + 1, field) ∧
      ids[index]? = some id ∧ e = .toggleField id field := by
  rw [ofExclude?, map_eq_ok_iff]
  constructor
  · rintro ⟨⟨id, field⟩, hsplit, rfl⟩
    obtain ⟨index, hread, hid⟩ := (HopReference.split_eq_ok_iff ..).1 hsplit
    exact ⟨index, id, field, hread, hid, rfl⟩
  · rintro ⟨index, id, field, hread, hid, rfl⟩
    exact ⟨(id, field), (HopReference.split_eq_ok_iff ..).2 ⟨index, hread, hid⟩, rfl⟩

theorem exists_of_ofFilter? (h : ofFilter? ids argument = .ok e) :
    ∃ id filter value, e = .setFilter id filter value := by
  obtain ⟨⟨id, filter, value⟩, -, rfl⟩ := (map_eq_ok_iff ..).1 h
  exact ⟨id, filter, value, rfl⟩

end Edit

/-! ### The hops of a plan -/

theorem forall_of_forall₂ {α β : Type} {R : α → β → Prop} {p : β → Prop} {xs : List α}
    {ys : List β} (h : List.Forall₂ R xs ys) (hp : ∀ x y, R x y → p y) : ∀ y ∈ ys, p y := by
  induction h with
  | nil => simp
  | cons hxy _ ih => exact List.forall_mem_cons.2 ⟨hp _ _ hxy, ih⟩

/-- The stay of the hop at a place among those of the options: since the hop was added, the fields
and filters have been changed that the arguments name, and no others. -/
structure PlannedStay (catalog : Catalog) (ids : List HopId) (options : ChainOptions) (index : Nat)
    (stay : Stay) : Prop where
  nodup_ids : ids.Nodup
  id_eq : ids[index]? = some stay.hop.id
  kind_eq : options.hops[index]? = some stay.hop.kind
  entity_eq : catalog.entity stay.hop.kind = .ok stay.entity
  since_eq : ∃ begun excludes filters, stay.since = begun ++ (excludes ++ filters) ∧
    (∀ e ∈ begun, e.isAppend = true) ∧
    List.Forall₂ (fun argument e => Edit.ofExclude? ids argument = .ok e) options.excludes excludes ∧
    List.Forall₂ (fun argument e => Edit.ofFilter? ids argument = .ok e) options.filters filters

namespace Session.Planned

variable {catalog : Catalog} {ids : List HopId} {options : ChainOptions}
  {appends excludes filters : List Edit}

/-- Behind the appendings no hop comes or goes. -/
theorem not_moves (h : Planned catalog ids options appends excludes filters) :
    ∀ e ∈ excludes ++ filters, ∀ id, e.moves id = false := by
  refine List.forall_mem_append.2 ⟨?_, ?_⟩
  · refine forall_of_forall₂ h.excludes_read fun argument e hread => ?_
    obtain ⟨index, id, field, -, -, rfl⟩ := Edit.ofExclude?_eq_ok_iff.1 hread
    exact fun _ => rfl
  · refine forall_of_forall₂ h.filters_read fun argument e hread => ?_
    obtain ⟨id, filter, value, rfl⟩ := Edit.exists_of_ofFilter? hread
    exact fun _ => rfl

/-- A hop that is there has the entry of its kind in the catalog, and since it was added there have
been appendings at most, and then the changes that the arguments name. -/
theorem since_of_mem_stays (h : Planned catalog ids options appends excludes filters) {s : Stay}
    (hs : s ∈ stays (appends ++ (excludes ++ filters))) :
    catalog.entity s.hop.kind = .ok s.entity ∧ ∃ begun, s.since = begun ++ (excludes ++ filters) ∧
      ∀ e ∈ begun, e.isAppend = true := by
  rw [stays_append_of_not_moves _ h.not_moves] at hs
  obtain ⟨begun, hbegun, rfl⟩ := List.mem_map.1 hs
  obtain ⟨before, catalog', happends, hentity⟩ := exists_eq_append_of_mem_stays hbegun
  -- everything up to here is an appending from the one catalog
  have hmem : ∀ e ∈ before ++ .append catalog' begun.hop.kind begun.hop.id :: begun.since,
      ∃ kind id, e = .append catalog kind id := by
    rw [← happends, h.appends_eq]
    intro e he
    obtain ⟨⟨kind, id⟩, -, rfl⟩ := List.mem_map.1 he
    exact ⟨kind, id, rfl⟩
  obtain ⟨kind, id, heq⟩ := hmem _ (List.mem_append_right _ List.mem_cons_self)
  cases heq
  refine ⟨hentity, begun.since, rfl, fun e he => ?_⟩
  obtain ⟨kind, id, rfl⟩ := hmem e (List.mem_append_right _ (List.mem_cons_of_mem _ he))
  rfl

end Session.Planned

/-! ### What is built -/

namespace Session

variable {s built : Session} {fresh : Nat → HopId} {options : ChainOptions}

/-- The hops of the options are there, in order. -/
theorem hops_of_build (hchain : s.chain = .empty) (h : s.build fresh options = .ok built) :
    built.chain.hops = (options.hops.zip ((List.range options.hops.length).map fresh)).map
      fun (kind, id) => ⟨id, kind⟩ := by
  obtain ⟨appends, excludes, filters, hplanned, hedited⟩ := edited_of_build h
  have hall := hedited.chain_eq
  rw [List.append_assoc, hchain] at hall
  obtain ⟨appended, happended, hbuilt⟩ := (Chain.editAll?_append_eq_ok_iff ..).1 hall
  rw [hplanned.appends_eq] at happended
  rw [Chain.hops_of_editAll? hplanned.not_moves hbuilt, Chain.hops_of_editAll?_append happended]
  rfl

theorem length_hops_of_build (hchain : s.chain = .empty) (h : s.build fresh options = .ok built) :
    built.chain.hops.length = options.hops.length := by
  rw [hops_of_build hchain h, List.length_map, List.length_zip, List.length_map, List.length_range,
    Nat.min_self]

/-- The hops that are added fit into the chain. -/
theorem length_le_of_addHops {pairs : List (String × HopId)} {next : Session}
    (h : s.addHops pairs = .ok next) (hlength : s.chain.hops.length ≤ s.maxHops) :
    s.chain.hops.length + pairs.length ≤ s.maxHops := by
  induction pairs generalizing s with
  | nil => exact hlength
  | cons pair pairs ih =>
    obtain ⟨kind, id⟩ := pair
    obtain ⟨added, hadded, hrest⟩ := (bind_eq_ok_iff ..).1 h
    obtain ⟨hroom, chain, hchain, rfl⟩ := (addHop_eq_ok_iff ..).1 hadded
    obtain ⟨-, entity, -, rfl⟩ := (Chain.append_eq_ok_iff ..).1 hchain
    have hmore := ih hrest
    simp only [List.length_append, List.length_cons, List.length_nil] at hmore ⊢
    omega

/-- There are no more hops than allowed. -/
theorem length_hops_le_of_build (hchain : s.chain = .empty) (h : s.build fresh options = .ok built) :
    options.hops.length ≤ s.maxHops := by
  obtain ⟨added, hadded, -⟩ := (bind_eq_ok_iff ..).1 h
  have hle := length_le_of_addHops ((mapError_eq_ok_iff ..).1 hadded)
  rw [hchain] at hle
  simpa [Chain.empty] using hle (Nat.zero_le _)

/-- The path follows the hops, whatever their fields and filters are. -/
theorem path_of_build (hchain : s.chain = .empty) (h : s.build fresh options = .ok built) :
    built.chain.path built.rules = .resolve s.rules
      ((options.hops.zip ((List.range options.hops.length).map fresh)).map
        fun (kind, id) => ⟨id, kind⟩) := by
  obtain ⟨appends, excludes, filters, -, hedited⟩ := edited_of_build h
  rw [Chain.path, hops_of_build hchain h, hedited.rules_eq]

/-- The chain that is built has the hops of the options as its stays. -/
theorem exists_stays_of_build (hchain : s.chain = .empty) (h : s.build fresh options = .ok built) :
    ∃ row : List Stay, built.chain.Consists (row.map Stay.stage) ∧
      ∀ index kind, options.hops[index]? = some kind → ∃ stay, row[index]? = some stay ∧
        stay.hop.kind = kind ∧
        PlannedStay s.catalog ((List.range options.hops.length).map fresh) options index stay := by
  have hhops := hops_of_build hchain h
  obtain ⟨appends, excludes, filters, hplanned, hedited⟩ := edited_of_build h
  have hall := hedited.chain_eq
  rw [List.append_assoc, hchain] at hall
  have hconsists := Chain.consists_of_editAll? hall
  refine ⟨_, hconsists, fun index kind hkind => ?_⟩
  have hid : ((List.range options.hops.length).map fresh)[index]? = some (fresh index) := by
    have hlt := (List.getElem?_eq_some_iff.1 hkind).1
    simp [hlt]
  have hlength : ((List.range options.hops.length).map fresh).length = options.hops.length := by
    simp
  generalize (List.range options.hops.length).map fresh = ids at hhops hplanned hid hlength ⊢
  have hhop : built.chain.hops[index]? = some ⟨fresh index, kind⟩ := by
    have hpair : (options.hops.zip ids)[index]? = some (kind, fresh index) :=
      List.getElem?_zip_eq_some.2 ⟨hkind, hid⟩
    rw [hhops, List.getElem?_map, hpair]
    rfl
  obtain ⟨stay, hstay, hstayhop⟩ : ∃ stay, (stays (appends ++ (excludes ++ filters)))[index]? =
      some stay ∧ stay.hop = ⟨fresh index, kind⟩ := by
    rw [hconsists.hops_eq, List.getElem?_map, List.getElem?_map, Option.map_map] at hhop
    exact Option.map_eq_some_iff.1 hhop
  have hnodup : ids.Nodup := by
    have hids : built.chain.ids = ids := by
      rw [Chain.ids, hhops, List.map_map]
      exact List.map_snd_zip (Nat.le_of_eq hlength)
    rw [← hids, hconsists.ids_eq]
    exact hconsists.nodup_ids
  obtain ⟨hentity, begun, hsince, hbegun⟩ := hplanned.since_of_mem_stays (List.mem_of_getElem? hstay)
  refine ⟨stay, hstay, by rw [hstayhop], hnodup, by rw [hstayhop]; exact hid,
    by rw [hstayhop]; exact hkind, hentity, begun, excludes, filters, hsince, hbegun,
    hplanned.excludes_read, hplanned.filters_read⟩

/-- Each hop of the options has a level in the query, written as the type at its place on the path. -/
theorem exists_level_of_stay (hchain : s.chain = .empty) (h : s.build fresh options = .ok built)
    {rules : Rules} {selection : Selection}
    (hselection : Selection.ofChain built.chain (built.chain.path rules) = .ok selection)
    {index : Nat} {kind : String} (hkind : options.hops[index]? = some kind) :
    ∃ stay segment, stay.hop.kind = kind ∧
      PlannedStay s.catalog ((List.range options.hops.length).map fresh) options index stay ∧
      (built.chain.path rules).segments[index]? = some segment ∧
      selection.levels[index]? = some (Level.ofStage stay.stage segment) := by
  obtain ⟨row, hconsists, hrow⟩ := exists_stays_of_build hchain h
  obtain ⟨stay, hstay, hstaykind, hplanned⟩ := hrow index kind hkind
  obtain ⟨segment, hsegment, hlevel⟩ := hconsists.exists_getElem?_levels hselection
    (List.getElem?_map .. ▸ congrArg (Option.map Stay.stage) hstay)
  exact ⟨stay, segment, hstaykind, hplanned, hsegment, hlevel⟩

/-- The query has one level per hop. -/
theorem length_levels_of_build (hchain : s.chain = .empty) (h : s.build fresh options = .ok built)
    {rules : Rules} {selection : Selection}
    (hselection : Selection.ofChain built.chain (built.chain.path rules) = .ok selection) :
    selection.levels.length = options.hops.length := by
  obtain ⟨row, hconsists, -⟩ := exists_stays_of_build hchain h
  rw [hconsists.levels_eq hselection, List.length_zipWith, Chain.path, Path.length_resolve,
    ← length_hops_of_build hchain h, hconsists.hops_eq]
  simp

/-- What is built has a query if there is a hop. -/
theorem exists_search_of_build (hchain : s.chain = .empty) (h : s.build fresh options = .ok built)
    (hne : options.hops ≠ []) : ∃ query searched, built.search = .ok (query, searched) := by
  obtain ⟨appends, excludes, filters, hplanned, hedited⟩ := edited_of_build h
  have hall := hedited.chain_eq
  rw [hchain] at hall
  obtain ⟨-, hedits⟩ := Chain.made_of_editAll? hall
  have hconsistent : built.chain.Consistent := hedits ▸ Chain.Consistent.empty.edits _
  have hhops : built.chain.hops ≠ [] := by
    rwa [← List.length_pos_iff, length_hops_of_build hchain h, List.length_pos_iff]
  cases hquery : Query.compileWithPath built.chain built.rules with
  | error error => exact absurd ((hconsistent.compileWithPath_eq_error_iff _ _).1 hquery).2 hhops
  | ok pair =>
    refine ⟨pair.1, _, (search_eq_ok_iff ..).2 ⟨?_, rfl⟩⟩
    rw [Query.compile, hquery]
    rfl

end Session

end HopQuery
