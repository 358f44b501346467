import HopQuery.Proofs.CommandLine.Assignments
import HopQuery.Proofs.CommandLine.Excludes
import HopQuery.Proofs.LastWrite
import HopQuery.Proofs.Session.Names

/-!
# Filters set on the command line

Of the arguments of `--filter` that name a hop and a filter, the last one gives the value, and where
it gives the empty text the filter is off. A further argument changes one argument of one level of the
query, and nothing else.

* `ChainOptions.assigned?`, with `assigned?_eq_some_iff`: the value that is given last;
* `PlannedStay.value_eq`: which value a filter of a hop has;
* `level_of_build`: the level of each hop in the query;
* `exists_build_withFilter`: one argument more;
* `arguments_eq_assigned`: the query of a command line that is accepted.
-/

namespace HopQuery

/-- What the argument gives to the filter of the hop with the number, if it names both. -/
def Assignment.value? (number : Nat) (filter argument : String) : Option String :=
  (read? argument).bind fun (other, name, value) =>
    if other = number ∧ name = filter then some value else none

theorem Assignment.value?_eq_some_iff (number : Nat) (filter argument value : String) :
    value? number filter argument = some value ↔ Spells argument number filter value := by
  rw [← read?_eq_some_iff, value?, Option.bind_eq_some_iff]
  constructor
  · rintro ⟨⟨other, name, given⟩, hread, h⟩
    obtain ⟨⟨rfl, rfl⟩, heq⟩ := Option.ite_none_right_eq_some.1 h
    cases heq
    exact hread
  · exact fun hread => ⟨_, hread, if_pos ⟨rfl, rfl⟩⟩

theorem Assignment.value?_eq_none_iff (number : Nat) (filter argument : String) :
    value? number filter argument = none ↔ ∀ value, ¬ Spells argument number filter value := by
  rw [Option.eq_none_iff_forall_ne_some]
  exact forall_congr' fun value => not_congr (value?_eq_some_iff ..)

namespace ChainOptions

/-- What the last argument of `--filter` gives that names the hop of the number and the filter. -/
def assigned? (options : ChainOptions) (number : Nat) (filter : String) : Option String :=
  (options.filters.filterMap (Assignment.value? number filter)).getLast?

/-- The options with one more argument of `--filter`. -/
def withFilter (options : ChainOptions) (argument : String) : ChainOptions :=
  { options with filters := options.filters ++ [argument] }

/-- The level of the hop with the number, which is of the kind of the entity and written as the
type. -/
def level (options : ChainOptions) (number : Nat) (entity : Entity) (typeName : String) : Level where
  typeName := typeName
  arguments := entity.filters.filterMap fun filter =>
    ((options.assigned? number filter).filter (· ≠ "")).map (filter, ·)
  fields := entity.fields.filter fun field => options.timesExcluded number field % 2 = 0

@[simp] theorem hops_withFilter (options : ChainOptions) (argument : String) :
    (options.withFilter argument).hops = options.hops := rfl

@[simp] theorem filters_withFilter (options : ChainOptions) (argument : String) :
    (options.withFilter argument).filters = options.filters ++ [argument] := rfl

/-- The value is that of the last argument that names the hop and the filter. -/
theorem assigned?_eq_some_iff (options : ChainOptions) (number : Nat) (filter value : String) :
    options.assigned? number filter = some value ↔ ∃ before argument after,
      options.filters = before ++ argument :: after ∧
      Assignment.Spells argument number filter value ∧
      ∀ later ∈ after, ∀ other, ¬ Assignment.Spells later number filter other := by
  rw [assigned?, getLast?_filterMap_eq_some_iff]
  simp only [Assignment.value?_eq_some_iff, Assignment.value?_eq_none_iff]

/-- One more argument gives its value to the filter that it names, and leaves all others. -/
theorem assigned?_withFilter {argument : String} {number : Nat} {filter value : String}
    (h : Assignment.read? argument = some (number, filter, value)) (options : ChainOptions)
    (other : Nat) (name : String) : (options.withFilter argument).assigned? other name =
      if other = number ∧ name = filter then some value else options.assigned? other name := by
  rw [assigned?, filters_withFilter, List.filterMap_append, List.getLast?_append]
  by_cases hsame : number = other ∧ filter = name
  · simp [Assignment.value?, h, hsame]
  · have hsame' : ¬ (other = number ∧ name = filter) := fun ⟨hother, hname⟩ =>
      hsame ⟨hother.symm, hname.symm⟩
    simp [Assignment.value?, h, hsame, hsame', assigned?]

/-- One more argument leaves the levels of all hops but the one that it names. -/
theorem level_withFilter_of_ne {argument : String} {number : Nat} {filter value : String}
    (h : Assignment.read? argument = some (number, filter, value)) {other : Nat}
    (hne : other ≠ number) (options : ChainOptions) (entity : Entity) (typeName : String) :
    (options.withFilter argument).level other entity typeName =
      options.level other entity typeName := by
  simp only [level, assigned?_withFilter h, hne, false_and, if_false]
  rfl

end ChainOptions

/-! ### What the arguments make of a hop -/

namespace Edit

variable {ids : List HopId} {argument : String} {e : Edit}

theorem ofFilter?_eq_ok_iff : ofFilter? ids argument = .ok e ↔
    ∃ index id filter value, Assignment.read? argument = some (index + 1, filter, value) ∧
      ids[index]? = some id ∧ e = .setFilter id filter value := by
  rw [ofFilter?, map_eq_ok_iff]
  constructor
  · rintro ⟨⟨id, filter, value⟩, hsplit, rfl⟩
    obtain ⟨index, hread, hid⟩ := (Assignment.split_eq_ok_iff ..).1 hsplit
    exact ⟨index, id, filter, value, hread, hid, rfl⟩
  · rintro ⟨index, id, filter, value, hread, hid, rfl⟩
    exact ⟨(id, filter, value), (Assignment.split_eq_ok_iff ..).2 ⟨index, hread, hid⟩, rfl⟩

/-- An argument gives a value to a filter of a hop if it names the number of the hop and the filter. -/
theorem value?_of_ofFilter? (hnodup : ids.Nodup) (he : ofFilter? ids argument = .ok e)
    {index : Nat} {id : HopId} (hid : ids[index]? = some id) (filter : String) :
    e.value? id filter = Assignment.value? (index + 1) filter argument := by
  obtain ⟨index', id', filter', value, hread, hid', rfl⟩ := ofFilter?_eq_ok_iff.1 he
  simp [value?, Assignment.value?, hread, HopReference.id_eq_iff hnodup hid hid']

theorem filterMap_value?_of_filters (hnodup : ids.Nodup) {arguments : List String} {es : List Edit}
    (h : List.Forall₂ (fun argument e => ofFilter? ids argument = .ok e) arguments es) {index : Nat}
    {id : HopId} (hid : ids[index]? = some id) (filter : String) :
    es.filterMap (·.value? id filter) =
      arguments.filterMap (Assignment.value? (index + 1) filter) := by
  induction h with
  | nil => rfl
  | cons he _ ih =>
    rw [List.filterMap_cons, List.filterMap_cons, ih, value?_of_ofFilter? hnodup he hid]

end Edit

/-- Since it was added, a hop has had its filters set by the arguments that name them. -/
theorem PlannedStay.value_eq {catalog : Catalog} {ids : List HopId} {options : ChainOptions}
    {index : Nat} {stay : Stay} (h : PlannedStay catalog ids options index stay) (filter : String) :
    stay.value filter = (options.assigned? (index + 1) filter).getD "" := by
  obtain ⟨begun, excludes, filters, hsince, hbegun, hexcludes, hfilters⟩ := h.since_eq
  have hbegun' : begun.filterMap (·.value? stay.hop.id filter) = [] := by
    refine List.filterMap_eq_nil_iff.2 fun e he => ?_
    have happend := hbegun e he
    cases e <;> simp_all [Edit.isAppend, Edit.value?]
  have hexcludes' : excludes.filterMap (·.value? stay.hop.id filter) = [] := by
    refine List.filterMap_eq_nil_iff.2 (forall_of_forall₂ hexcludes fun argument e hread => ?_)
    obtain ⟨index, id, field, -, -, rfl⟩ := Edit.ofExclude?_eq_ok_iff.1 hread
    rfl
  rw [Stay.value, hsince, List.filterMap_append, List.filterMap_append, hbegun', hexcludes',
    Edit.filterMap_value?_of_filters h.nodup_ids hfilters h.id_eq, List.nil_append, List.nil_append]
  rfl

/-! ### The levels of the query -/

namespace Session

variable {s built : Session} {fresh : Nat → HopId} {options : ChainOptions}

/-- Each argument of `--filter` gives the number of a hop, a filter and a value. -/
theorem spells_of_build (h : s.build fresh options = .ok built) :
    ∀ argument ∈ options.filters, ∃ index filter value,
      Assignment.Spells argument (index + 1) filter value ∧ index < options.hops.length := by
  obtain ⟨appends, excludes, filters, hplanned, -⟩ := edited_of_build h
  refine forall_of_forall₂ hplanned.filters_read.flip fun e argument he => ?_
  obtain ⟨index, id, filter, value, hread, hid, -⟩ := Edit.ofFilter?_eq_ok_iff.1 he
  refine ⟨index, filter, value, (Assignment.read?_eq_some_iff ..).1 hread, ?_⟩
  simpa using (List.getElem?_eq_some_iff.1 hid).1

/-- Each hop has its level in the query, written as the type at its place on the path. -/
theorem level_of_build (hchain : s.chain = .empty) (h : s.build fresh options = .ok built)
    {rules : Rules} {selection : Selection}
    (hselection : Selection.ofChain built.chain (built.chain.path rules) = .ok selection)
    {index : Nat} {kind : String} (hkind : options.hops[index]? = some kind) :
    ∃ entity segment, s.catalog.entity kind = .ok entity ∧
      (built.chain.path rules).segments[index]? = some segment ∧
      selection.levels[index]? = some (options.level (index + 1) entity segment.typeName) := by
  obtain ⟨stay, segment, rfl, hplanned, hsegment, hlevel⟩ :=
    exists_level_of_stay hchain h hselection hkind
  refine ⟨stay.entity, segment, hplanned.entity_eq, hsegment, hlevel.trans (congrArg some ?_)⟩
  rw [Level.ofStage, Stay.stage, FieldSelection.included_map, FilterValues.active_map,
    ChainOptions.level, Level.mk.injEq]
  refine ⟨rfl, List.filterMap_congr fun filter _ => ?_, List.filter_congr fun field _ => ?_⟩
  · rw [hplanned.value_eq]
    cases options.assigned? (index + 1) filter with
    | none => rfl
    | some value => by_cases hvalue : value = "" <;> simp [hvalue, Option.filter_some]
  · exact hplanned.includes_eq field

/-! ### One argument more -/

/-- One argument more of `--filter` is applied when all others are. -/
theorem build_withFilter (h : s.build fresh options = .ok built) {argument : String} {next : Session}
    (hnext : applyFilter ((List.range options.hops.length).map fresh) built argument = .ok next) :
    s.build fresh (options.withFilter argument) = .ok next := by
  obtain ⟨added, hadded, h⟩ := (bind_eq_ok_iff ..).1 h
  obtain ⟨excluded, hexcluded, hfiltered⟩ := (bind_eq_ok_iff ..).1 h
  refine (bind_eq_ok_iff ..).2 ⟨added, hadded, (bind_eq_ok_iff ..).2 ⟨excluded, hexcluded, ?_⟩⟩
  rw [ChainOptions.filters_withFilter, List.foldlM_append]
  refine (bind_eq_ok_iff ..).2 ⟨built, hfiltered, ?_⟩
  rw [List.foldlM_cons, ChainOptions.hops_withFilter, hnext]
  rfl

/-- An argument that names a hop that is there, and a filter of its kind, is not refused. -/
theorem exists_applyFilter (hchain : s.chain = .empty) (h : s.build fresh options = .ok built)
    {argument : String} {index : Nat} {filter value kind : String} {entity : Entity}
    (hread : Assignment.read? argument = some (index + 1, filter, value))
    (hkind : options.hops[index]? = some kind) (hentity : s.catalog.entity kind = .ok entity)
    (hfilter : filter ∈ entity.filters) : ∃ next,
      applyFilter ((List.range options.hops.length).map fresh) built argument = .ok next := by
  obtain ⟨row, hconsists, hrow⟩ := exists_stays_of_build hchain h
  obtain ⟨stay, hstay, rfl, hplanned⟩ := hrow index kind hkind
  obtain rfl : stay.entity = entity := Except.ok.inj (hplanned.entity_eq.symm.trans hentity)
  have hvalues := hconsists.get?_filters
    (List.mem_map_of_mem (f := Stay.stage) (List.mem_of_getElem? hstay))
  have hcontains : stay.stage.values.contains filter = true := by
    simpa [Stay.stage, FilterValues.contains] using hfilter
  obtain ⟨chain, hset⟩ : ∃ chain, built.chain.setFilter stay.hop.id filter value = .ok chain :=
    ⟨_, (Chain.setFilter_eq_ok_iff ..).2 ⟨_, _, hvalues, if_pos hcontains, rfl⟩⟩
  have hsplit := (Assignment.split_eq_ok_iff ..).2 ⟨index, hread, hplanned.id_eq⟩
  exact ⟨{ built with chain := chain }, (bind_eq_ok_iff ..).2 ⟨_, hsplit,
    (mapError_eq_ok_iff ..).2 ((setFilter_eq_ok_iff ..).2 ⟨chain, hset, rfl⟩)⟩⟩

/-- An argument that names a hop that is there, and a filter of its kind, changes the level of this
hop: the filter gets the value. -/
theorem exists_build_withFilter (hchain : s.chain = .empty) (h : s.build fresh options = .ok built)
    {selection : Selection}
    (hselection : Selection.ofChain built.chain (built.chain.path built.rules) = .ok selection)
    {argument : String} {index : Nat} {filter value kind : String} {entity : Entity} {level : Level}
    (hread : Assignment.read? argument = some (index + 1, filter, value))
    (hkind : options.hops[index]? = some kind) (hentity : s.catalog.entity kind = .ok entity)
    (hfilter : filter ∈ entity.filters) (hlevel : selection.levels[index]? = some level) :
    ∃ (next : Session) (query : Query) (searched : Session) (selection' : Selection),
      s.build fresh (options.withFilter argument) = .ok next ∧
      next.search = .ok (query, searched) ∧ query.text = selection'.document ∧
      selection'.levels = selection.levels.set index
        ((options.withFilter argument).level (index + 1) entity level.typeName) := by
  obtain ⟨next, hnext⟩ := exists_applyFilter hchain h hread hkind hentity hfilter
  have hbuild := build_withFilter h hnext
  have hne : (options.withFilter argument).hops ≠ [] := by
    rw [ChainOptions.hops_withFilter]
    exact List.ne_nil_of_mem (List.mem_of_getElem? hkind)
  obtain ⟨query, searched, hsearch⟩ := exists_search_of_build hchain hbuild hne
  obtain ⟨selection', hselection', hdocument⟩ := exists_selection_of_search hsearch
  have hpath : next.chain.path next.rules = built.chain.path built.rules :=
    (path_of_build hchain hbuild).trans (path_of_build hchain h).symm
  refine ⟨next, query, searched, selection', hbuild, hsearch, hdocument, ?_⟩
  refine List.ext_getElem? fun other => ?_
  cases hother : options.hops[other]? with
  | none =>
    have hlength : options.hops.length ≤ other := List.getElem?_eq_none_iff.1 hother
    rw [List.getElem?_eq_none, List.getElem?_eq_none]
    · rwa [List.length_set, length_levels_of_build hchain h hselection]
    · rwa [length_levels_of_build hchain hbuild hselection', ChainOptions.hops_withFilter]
  | some kind' =>
    obtain ⟨entity', segment, hentity', hsegment, hlevel'⟩ :=
      level_of_build hchain h hselection hother
    obtain ⟨entity'', segment', hentity'', hsegment', hlevel''⟩ :=
      level_of_build hchain hbuild hselection' hother
    rw [hpath, hsegment] at hsegment'
    rw [hentity'] at hentity''
    cases hsegment'
    cases hentity''
    rw [hlevel'']
    rcases eq_or_ne index other with rfl | hne
    · obtain rfl := Option.some.inj (hkind.symm.trans hother)
      obtain rfl := Except.ok.inj (hentity.symm.trans hentity')
      obtain rfl := Option.some.inj (hlevel.symm.trans hlevel')
      rw [List.getElem?_set_self (List.getElem?_eq_some_iff.1 hlevel).1]
      rfl
    · rw [List.getElem?_set_ne hne, hlevel', ChainOptions.level_withFilter_of_ne hread]
      exact fun heq => hne (Nat.succ.inj heq).symm

end Session

/-! ### Command lines -/

/-- The session of a command line has a catalog of names, and room for few hops. -/
theorem Invocation.settings_of_session {invocation : Invocation} {files : Files}
    {environment : Environment} {session : Session}
    (h : invocation.session files environment = .ok session) :
    session.catalog.Named ∧ session.maxHops ≤ Settings.largestMaxHops := by
  obtain ⟨base, settings, catalog, rules, -, -, -, hbounds, hcatalog, -, rfl⟩ :=
    (session_eq_ok_iff session).1 h
  exact ⟨Settings.named_of_loadCatalog hcatalog, hbounds.2⟩

/-- In the query of every `compile` or `run` that is accepted, the level of each hop has as arguments
those filters of its kind, in the order of the catalog, to which the last argument of `--filter` that
names them gives a value that is not empty. An argument is split at its first colon and, behind it, at
the first equals sign; it is refused if one of them is missing or if no hop has the number. So one
more argument can set every filter of every hop to every value, and it changes nothing else in the
query. -/
theorem arguments_eq_assigned (arguments : List String) (files : Files)
    (environment : Environment) (fresh : Nat → HopId) (invocation : Invocation)
    (options : ChainOptions) (text : String)
    (hparse : Invocation.parse? arguments = some invocation)
    (hoptions : invocation.command.chainOptions? = some options)
    (haccepted : Outcome.ofArguments arguments files environment fresh = .printed text) :
    (∀ (ids : List HopId) (argument : String) (id : HopId) (filter value : String),
      Assignment.split ids argument = .ok (id, filter, value) ↔
        ∃ index, Assignment.Spells argument (index + 1) filter value ∧ ids[index]? = some id) ∧
    (∀ number filter value, options.assigned? number filter = some value ↔
      ∃ before argument after, options.filters = before ++ argument :: after ∧
        Assignment.Spells argument number filter value ∧
        ∀ later ∈ after, ∀ other, ¬ Assignment.Spells later number filter other) ∧
    ∃ (session built : Session) (query : Query) (searched : Session) (selection : Selection),
      invocation.session files (files.environment environment) = .ok session ∧
      session.catalog.Named ∧ session.build fresh options = .ok built ∧
      built.search = .ok (query, searched) ∧
      (invocation.command = .compile options → text = query.text ++ "\n") ∧
      query.text = selection.document ∧
      (∀ argument ∈ options.filters, ∃ index filter value,
        Assignment.Spells argument (index + 1) filter value ∧ index < options.hops.length) ∧
      ∀ index kind, options.hops[index]? = some kind →
        ∃ (entity : Entity) (level : Level), session.catalog.entity kind = .ok entity ∧
          selection.levels[index]? = some level ∧
          level.arguments = entity.filters.filterMap (fun name =>
            ((options.assigned? (index + 1) name).filter (· ≠ "")).map (name, ·)) ∧
          ∀ filter ∈ entity.filters, ∀ value,
            ∃ (next : Session) (query' : Query) (searched' : Session) (selection' : Selection),
              session.build fresh (options.withFilter
                (toString (index + 1) ++ ":" ++ filter ++ "=" ++ value)) = .ok next ∧
              next.search = .ok (query', searched') ∧ query'.text = selection'.document ∧
              selection'.levels = selection.levels.set index { level with
                arguments := entity.filters.filterMap fun name =>
                  ((if name = filter then some value else options.assigned? (index + 1) name).filter
                    (· ≠ "")).map (name, ·) } := by
  refine ⟨fun ids argument id filter value => ?_, options.assigned?_eq_some_iff, ?_⟩
  · simp only [Assignment.split_eq_ok_iff, Assignment.read?_eq_some_iff]
  have hrun : invocation.run files (files.environment environment) fresh = .ok text := by
    rw [Outcome.ofArguments, hparse] at haccepted
    cases h : invocation.run files (files.environment environment) fresh <;> simp_all
  obtain ⟨session, built, query, searched, hsession, hbuilt, hsearch, htext⟩ :=
    Invocation.exists_query_of_run hoptions hrun
  have hchain := Invocation.chain_of_session hsession
  obtain ⟨hnamed, hroom⟩ := Invocation.settings_of_session hsession
  obtain ⟨selection, hselection, hdocument⟩ := Session.exists_selection_of_search hsearch
  refine ⟨session, built, query, searched, selection, hsession, hnamed, hbuilt, hsearch, htext,
    hdocument, Session.spells_of_build hbuilt, fun index kind hkind => ?_⟩
  obtain ⟨entity, segment, hentity, -, hlevel⟩ :=
    Session.level_of_build hchain hbuilt hselection hkind
  refine ⟨entity, _, hentity, hlevel, rfl, fun filter hfilter value => ?_⟩
  have hnumber : index + 1 < Text.numeralBound := by
    have hlt := (List.getElem?_eq_some_iff.1 hkind).1
    have hle := Session.length_hops_le_of_build hchain hbuilt
    have hbound : Settings.largestMaxHops < Text.numeralBound := by decide
    omega
  have hname : '=' ∉ filter.toList := by
    obtain ⟨-, hnamed'⟩ := hnamed _ _ ((Catalog.entity_eq_ok_iff ..).1 hentity)
    obtain ⟨-, -, -, -, hall⟩ := (Text.isName_eq_true_iff filter).1 (hnamed'.filters filter hfilter)
    exact fun hmem => absurd (hall _ hmem) (by decide)
  have hread := (Assignment.read?_eq_some_iff ..).2 (Assignment.spells_toString hnumber hname value)
  obtain ⟨next, query', searched', selection', hnext, hsearch', hdocument', hlevels⟩ :=
    Session.exists_build_withFilter hchain hbuilt hselection hread hkind hentity hfilter hlevel
  refine ⟨next, query', searched', selection', hnext, hsearch', hdocument', hlevels.trans ?_⟩
  simp only [ChainOptions.level, ChainOptions.assigned?_withFilter hread, true_and]
  rfl

/-- A chain of two hops. A value with marks of both kinds in it is given under one spelling of the
number, an earlier value is replaced under another, and one is taken back. -/
def settingFilters : ChainOptions :=
  ⟨["schools", "groups"], [],
    ["1:id=7", "2:name=", "+2:id=a:b=\"c\"\n", "01:id=8", "1:name=x", "1:name="]⟩

theorem arguments_eq_assigned_marks :
    let arguments := ["compile", "--hop", "schools", "--filter", "1:id=7", "--filter", "2:name=",
      "--hop", "groups", "--filter=+2:id=a:b=\"c\"\n", "--filter", "01:id=8", "--filter", "1:name=x",
      "--filter", "1:name="]
    let fresh : Nat → HopId := fun n => ⟨BitVec.ofNat 128 n⟩
    let text := "\x7bschools(id: \"8\") \x7bid name groups(id: \"a:b=\\\"c\\\"\\n\") " ++
      "\x7bid name\x7d\x7d\x7d\n"
    Invocation.parse? arguments = some ⟨⟨none, none, none, none⟩, .compile settingFilters⟩ ∧
      Outcome.ofArguments arguments (.ofList []) .empty fresh = .printed text ∧
      ∃ (selection : Selection) (level : Level), text = selection.document ++ "\n" ∧
        selection.levels[1]? = some level ∧ level.arguments = [("id", "a:b=\"c\"\n")] := by
  intro arguments fresh text
  have hparse : Invocation.parse? arguments =
      some ⟨⟨none, none, none, none⟩, .compile settingFilters⟩ := by decide +kernel
  have haccepted : Outcome.ofArguments arguments (.ofList []) .empty fresh = .printed text := by
    decide +kernel
  have hcatalog : (Invocation.session ⟨⟨none, none, none, none⟩, .compile settingFilters⟩
      (.ofList []) ((Files.ofList []).environment .empty)).map Session.catalog = .ok .school := by
    decide +kernel
  obtain ⟨-, -, session, built, query, searched, selection, hsession, -, -, -, htext, hdocument, -,
    hlevels⟩ := arguments_eq_assigned arguments (.ofList []) .empty fresh _ settingFilters _ hparse rfl
      haccepted
  rw [hsession] at hcatalog
  have hschool : session.catalog = .school := Except.ok.inj hcatalog
  obtain ⟨entity, level, hentity, hlevel, harguments, -⟩ := hlevels 1 "groups" rfl
  have hplace : Catalog.school.entity "groups" =
      .ok ⟨"groups", ["id", "name"], ["id", "name"], true⟩ := by decide +kernel
  rw [hschool, hplace] at hentity
  obtain rfl := Except.ok.inj hentity
  refine ⟨hparse, haccepted, selection, level, ?_, hlevel, harguments.trans (by decide +kernel)⟩
  rw [← hdocument, ← htext rfl]

end HopQuery
