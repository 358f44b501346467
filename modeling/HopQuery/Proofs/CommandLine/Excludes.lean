import HopQuery.Proofs.CommandLine.Accepted

/-!
# Fields left out on the command line

Each `--exclude` flips its field once more, so a field is left out if it was named an odd number
of times. A field that is named twice is back again.

* `ChainOptions.timesExcluded`: how often a field of a hop is named;
* `PlannedStay.includes_eq`: which fields of a hop are included;
* `exists_level_of_build`: the fields of each level of the query;
* `selects_iff_timesExcluded_even`: the query of a command line that is accepted;
* `selects_excluded_twice`: a field that is left out twice.
-/

namespace HopQuery

/-- How many arguments of `--exclude` name the hop of the number and the field. -/
def ChainOptions.timesExcluded (options : ChainOptions) (number : Nat) (field : String) : Nat :=
  options.excludes.countP fun argument => HopReference.read? argument = some (number, field)

/-! ### The changes that arguments name -/

namespace Edit

variable {ids : List HopId} {argument : String} {e : Edit}

/-- An argument flips a field of a hop if it names the number of the hop and the field. -/
theorem toggles_iff_of_ofExclude? (hnodup : ids.Nodup) (he : ofExclude? ids argument = .ok e)
    {index : Nat} {id : HopId} (hid : ids[index]? = some id) (field : String) :
    e.toggles id field = true ↔ HopReference.read? argument = some (index + 1, field) := by
  obtain ⟨index', id', field', hread, hid', rfl⟩ := ofExclude?_eq_ok_iff.1 he
  simp [toggles, hread, HopReference.id_eq_iff hnodup hid hid']

theorem countP_toggles_of_excludes (hnodup : ids.Nodup) {arguments : List String}
    {es : List Edit} (h : List.Forall₂ (fun argument e => ofExclude? ids argument = .ok e)
      arguments es) {index : Nat} {id : HopId} (hid : ids[index]? = some id) (field : String) :
    es.countP (·.toggles id field) =
      arguments.countP fun argument => HopReference.read? argument = some (index + 1, field) := by
  induction h with
  | nil => rfl
  | cons he _ ih =>
    rw [List.countP_cons, List.countP_cons, ih]
    simp only [toggles_iff_of_ofExclude? hnodup he hid, decide_eq_true_eq]

end Edit

/-- Since it was added, a hop has had its fields flipped by the arguments that name them. -/
theorem PlannedStay.includes_eq {catalog : Catalog} {ids : List HopId} {options : ChainOptions}
    {index : Nat} {stay : Stay} (h : PlannedStay catalog ids options index stay) (field : String) :
    stay.includes field = decide (options.timesExcluded (index + 1) field % 2 = 0) := by
  obtain ⟨begun, excludes, filters, hsince, hbegun, hexcludes, hfilters⟩ := h.since_eq
  have hbegun' : begun.countP (·.toggles stay.hop.id field) = 0 := by
    refine List.countP_eq_zero.2 fun e he => ?_
    have happend := hbegun e he
    cases e <;> simp_all [Edit.isAppend, Edit.toggles]
  have hfilters' : filters.countP (·.toggles stay.hop.id field) = 0 := by
    refine List.countP_eq_zero.2 (forall_of_forall₂ hfilters fun argument e hread => ?_)
    obtain ⟨id, filter, value, rfl⟩ := Edit.exists_of_ofFilter? hread
    exact Bool.false_ne_true
  rw [Stay.includes, hsince, List.countP_append, List.countP_append, hbegun', hfilters',
    Edit.countP_toggles_of_excludes h.nodup_ids hexcludes h.id_eq, Nat.zero_add, Nat.add_zero]
  rfl

/-! ### The levels of the query -/

namespace Session

variable {s built : Session} {fresh : Nat → HopId} {options : ChainOptions}

/-- Each hop has a level in the query, with those fields of its kind that are named an even number
of times. -/
theorem exists_level_of_build (hchain : s.chain = .empty) (h : s.build fresh options = .ok built)
    {rules : Rules} {selection : Selection}
    (hselection : Selection.ofChain built.chain (built.chain.path rules) = .ok selection)
    {index : Nat} {kind : String} (hkind : options.hops[index]? = some kind) :
    ∃ entity level, s.catalog.entity kind = .ok entity ∧
      selection.levels[index]? = some level ∧
      level.fields = entity.fields.filter fun field =>
        options.timesExcluded (index + 1) field % 2 = 0 := by
  obtain ⟨stay, segment, rfl, hplanned, -, hlevel⟩ := exists_level_of_stay hchain h hselection hkind
  refine ⟨stay.entity, _, hplanned.entity_eq, hlevel, ?_⟩
  rw [Level.ofStage, Stay.stage, FieldSelection.included_map]
  exact List.filter_congr fun field _ => hplanned.includes_eq field

end Session

/-! ### Command lines -/

/-- Every `compile` or `run` that is accepted makes a query in which the level of each hop selects
those fields of its kind that the arguments of `--exclude` name an even number of times, whatever
their order is. So a field that is named once at most is selected if no argument names it. -/
theorem selects_iff_timesExcluded_even (arguments : List String) (files : Files)
    (environment : Environment) (fresh : Nat → HopId) (invocation : Invocation)
    (options : ChainOptions) (text : String)
    (hparse : Invocation.parse? arguments = some invocation)
    (hoptions : invocation.command.chainOptions? = some options)
    (haccepted : Outcome.ofArguments arguments files environment fresh = .printed text) :
    ∃ (session built : Session) (query : Query) (searched : Session) (selection : Selection),
      invocation.session files (files.environment environment) = .ok session ∧
      session.build fresh options = .ok built ∧ built.search = .ok (query, searched) ∧
      (invocation.command = .compile options → text = query.text ++ "\n") ∧
      query.text = selection.document ∧
      ∀ index kind, options.hops[index]? = some kind →
        ∃ (entity : Entity) (level : Level), session.catalog.entity kind = .ok entity ∧
          selection.levels[index]? = some level ∧ ∀ field ∈ entity.fields,
            (field ∈ level.fields ↔ options.timesExcluded (index + 1) field % 2 = 0) ∧
            (options.timesExcluded (index + 1) field ≤ 1 →
              (field ∈ level.fields ↔ ¬ ∃ argument ∈ options.excludes,
                HopReference.read? argument = some (index + 1, field))) := by
  have hrun : invocation.run files (files.environment environment) fresh = .ok text := by
    rw [Outcome.ofArguments, hparse] at haccepted
    cases h : invocation.run files (files.environment environment) fresh <;> simp_all
  obtain ⟨session, built, query, searched, hsession, hbuilt, hsearch, htext⟩ :=
    Invocation.exists_query_of_run hoptions hrun
  obtain ⟨selection, hselection, hdocument⟩ := Session.exists_selection_of_search hsearch
  refine ⟨session, built, query, searched, selection, hsession, hbuilt, hsearch, htext, hdocument,
    fun index kind hkind => ?_⟩
  obtain ⟨entity, level, hentity, hlevel, hfields⟩ :=
    Session.exists_level_of_build (Invocation.chain_of_session hsession) hbuilt hselection hkind
  refine ⟨entity, level, hentity, hlevel, fun field hfield => ?_⟩
  have heven : field ∈ level.fields ↔ options.timesExcluded (index + 1) field % 2 = 0 := by
    simp [hfields, hfield]
  refine ⟨heven, fun honce => heven.trans ?_⟩
  have hzero : options.timesExcluded (index + 1) field = 0 ↔ ¬ ∃ argument ∈ options.excludes,
      HopReference.read? argument = some (index + 1, field) := by
    simp [ChainOptions.timesExcluded, List.countP_eq_zero]
  rw [← hzero]
  omega

/-- A chain of two hops of one kind. A field of the first one is left out under three spellings of
its number, the fields of the second one are left out once each. -/
def leavingOut : ChainOptions :=
  ⟨["schools", "schools"], ["2:name", "1:id", "+1:id", "02:id", "01:id"], []⟩

theorem selects_iff_timesExcluded_even_spelled :
    let arguments := ["compile", "--hop", "schools", "--exclude", "2:name", "--exclude", "1:id",
      "--hop", "schools", "--exclude=+1:id", "--exclude", "02:id", "--exclude", "01:id"]
    let fresh : Nat → HopId := fun n => ⟨BitVec.ofNat 128 n⟩
    Invocation.parse? arguments = some ⟨⟨none, none, none, none⟩, .compile leavingOut⟩ ∧
      Outcome.ofArguments arguments (.ofList []) .empty fresh =
        .printed "{schools {name schools {}}}\n" ∧
      ∃ (selection : Selection) (level : Level),
        "{schools {name schools {}}}\n" = selection.document ++ "\n" ∧
          selection.levels[0]? = some level ∧ "id" ∉ level.fields ∧ "name" ∈ level.fields := by
  intro arguments fresh
  have hparse : Invocation.parse? arguments =
      some ⟨⟨none, none, none, none⟩, .compile leavingOut⟩ := by decide +kernel
  have haccepted : Outcome.ofArguments arguments (.ofList []) .empty fresh =
      .printed "{schools {name schools {}}}\n" := by decide +kernel
  have hcatalog : (Invocation.session ⟨⟨none, none, none, none⟩, .compile leavingOut⟩ (.ofList [])
      ((Files.ofList []).environment .empty)).map Session.catalog = .ok .school := by
    decide +kernel
  obtain ⟨session, built, query, searched, selection, hsession, -, -, htext, hdocument, hlevels⟩ :=
    selects_iff_timesExcluded_even arguments (.ofList []) .empty fresh _ leavingOut _ hparse rfl
      haccepted
  rw [hsession] at hcatalog
  have hschool : session.catalog = .school := Except.ok.inj hcatalog
  obtain ⟨entity, level, hentity, hlevel, hfields⟩ := hlevels 0 "schools" rfl
  have hplace : Catalog.school.entity "schools" =
      .ok ⟨"schools", ["id", "name"], ["id", "name"], true⟩ := by decide +kernel
  rw [hschool, hplace] at hentity
  obtain rfl := Except.ok.inj hentity
  obtain ⟨hid, -⟩ := hfields "id" (by simp)
  obtain ⟨hname, -⟩ := hfields "name" (by simp)
  refine ⟨hparse, haccepted, selection, level, ?_, hlevel, fun hmem => ?_, hname.2 ?_⟩
  · rw [← hdocument, ← htext rfl]
  · exact absurd (hid.1 hmem) (by decide +kernel)
  · decide +kernel

/-- A field that is left out twice is selected, although an argument names it. -/
theorem selects_excluded_twice :
    let fresh : Nat → HopId := fun n => ⟨BitVec.ofNat 128 n⟩
    HopReference.read? "1:name" = some (1, "name") ∧
      Outcome.ofArguments ["compile", "--hop", "schools", "--exclude", "1:name"] (.ofList []) .empty
        fresh = .printed "{schools {id}}\n" ∧
      Outcome.ofArguments ["compile", "--hop", "schools", "--exclude", "1:name",
        "--exclude", "1:name"] (.ofList []) .empty fresh = .printed "{schools {id name}}\n" := by
  decide +kernel

end HopQuery
