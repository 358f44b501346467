import HopQuery.Proofs.Catalog.Listing
import HopQuery.Proofs.Chain.Path
import HopQuery.Proofs.Rules
import HopQuery.Proofs.Selection.Reading
import HopQuery.Proofs.Session.Agreement
import HopQuery.Proofs.Session.Change
import HopQuery.Settings.Basic

/-!
# Names in queries

Kinds, fields and filters come from a catalog that has been checked, so they are names wherever they
stand in a query. Types come also from the rules, and a file of rules is not checked: its types are
written as they are.

* `Settings.FileRule`: what a file of rules tells;
* `Settings.named_of_loadCatalog`, `Settings.isName_or_fileRule`: what the settings lead to;
* `Selection.NamedBut`: names everywhere, but for types that are told;
* `named_of_compiled`: so it is with every query that a session holds, and such a query follows the
  grammar if the types that the file tells are names;
* `not_isDocument_unnamed`: where the file tells something else, a query may spell no selection.
-/

namespace HopQuery

namespace Settings

variable {settings : Settings} {files : Files} {catalog : Catalog} {rules : Rules}

/-- The file of rules tells to write the type for the kind after the preceding type. -/
def FileRule (settings : Settings) (files : Files) (previous kind typeName : String) : Prop :=
  ∃ path rules, settings.rulesPath = some path ∧ rulesOfFile files path = .ok rules ∧
    rules.get? previous kind = some typeName

/-- A catalog is made of names, wherever it comes from. -/
theorem named_of_loadCatalog (h : settings.loadCatalog files = .ok catalog) : catalog.Named := by
  unfold loadCatalog at h
  split at h
  · cases h
    exact .school
  · next path _ =>
    obtain ⟨text, -, hlisting⟩ := (bind_eq_ok_iff ..).1 ((mapError_eq_ok_iff ..).1 h)
    obtain ⟨listing, -, hcatalog⟩ := (bind_eq_ok_iff ..).1 hlisting
    exact Catalog.named_of_toCatalog hcatalog

/-- A rule that is no rule of the file is one of the school catalog, so its type is a name. -/
theorem isName_or_fileRule (h : settings.loadRules files = .ok rules)
    {previous kind typeName : String} (hget : rules.get? previous kind = some typeName) :
    Text.isName typeName = true ∨ settings.FileRule files previous kind typeName := by
  unfold loadRules at h
  split at h
  · cases h
    exact .inl (Rules.Named.school previous kind typeName hget)
  · next path hpath =>
    obtain ⟨upper, hupper, rfl⟩ := (map_eq_ok_iff ..).1 ((mapError_eq_ok_iff ..).1 h)
    rw [Rules.get?_extend, Option.or_eq_some_iff] at hget
    rcases hget with hget | ⟨-, hget⟩
    · exact .inr ⟨path, upper, hpath, hupper, hget⟩
    · exact .inl (Rules.Named.school previous kind typeName hget)

/-- A kind that is a name is written as a name, unless the file tells another type. -/
theorem isName_resolve_or_fileRule (h : settings.loadRules files = .ok rules) (previous : String)
    {kind : String} (hkind : Text.isName kind = true) :
    Text.isName (rules.resolve previous kind) = true ∨
      settings.FileRule files previous kind (rules.resolve previous kind) := by
  unfold Rules.resolve
  cases hget : rules.get? previous kind with
  | none => exact .inl hkind
  | some typeName => exact isName_or_fileRule h hget

end Settings

/-! ### Names in selections -/

namespace Selection

/-- The types of a selection, from the outside in. -/
def typeNames (s : Selection) : List String :=
  s.levels.map Level.typeName

/-- Arguments and fields bear names, and so does the outermost type. A type further inside is a name,
or it is what is told for one of the kinds after the type around it. -/
structure NamedBut (kinds : List String) (told : String → String → String → Prop)
    (s : Selection) : Prop where
  arguments : ∀ level ∈ s.levels, ∀ argument ∈ level.arguments, Text.isName argument.1 = true
  fields : ∀ level ∈ s.levels, ∀ field ∈ level.fields, Text.isName field = true
  outermost : ∀ typeName ∈ s.typeNames.head?, Text.isName typeName = true
  inner : s.typeNames.IsChain fun outer inner =>
    Text.isName inner = true ∨ ∃ kind ∈ kinds, told outer kind inner

variable {kinds : List String} {told : String → String → String → Prop} {s : Selection}

/-- Then nothing but the types can keep the selection from being written as a document. -/
theorem NamedBut.isDocument_iff (h : s.NamedBut kinds told) :
    IsDocument s.document.toList s ↔ ∀ typeName ∈ s.typeNames, Text.isName typeName = true := by
  rw [isDocument_document_iff, typeNames, List.forall_mem_map]
  constructor
  · exact fun hnamed level hlevel => (hnamed level hlevel).typeName
  · exact fun htypes level hlevel =>
      ⟨htypes level hlevel, h.arguments level hlevel, h.fields level hlevel⟩

/-- If names are told, all types are names. -/
theorem NamedBut.isName_of_mem_typeNames (h : s.NamedBut kinds told)
    (htold : ∀ outer kind inner, told outer kind inner → Text.isName inner = true) :
    ∀ typeName ∈ s.typeNames, Text.isName typeName = true := by
  refine h.inner.induction (fun typeName => Text.isName typeName = true) _ ?_ ?_
  · rintro outer inner (hname | ⟨kind, -, hrule⟩) -
    · exact hname
    · exact htold outer kind inner hrule
  · exact fun hne => h.outermost _ (List.head?_eq_some_head hne)

end Selection

/-! ### Names in a session -/

/-- The kinds of the hops of a chain are kinds of its catalog. -/
theorem Chain.Listed.exists_entity {catalog : Catalog} {chain : Chain} (h : chain.Listed catalog)
    {hop : Hop} (hhop : hop ∈ chain.hops) : ∃ entity, catalog.entity hop.kind = .ok entity := by
  obtain ⟨⟨selection, -, hfields⟩, -⟩ := h.exists_choices hhop
  obtain ⟨entity, hentity, -⟩ := (catalog.fields_eq_ok_iff ..).1 hfields
  exact ⟨entity, hentity⟩

section Chain

variable {settings : Settings} {files : Files} {catalog : Catalog} {rules : Rules} {chain : Chain}
  {selection : Selection}

/-- Choices that the catalog lists bear names if the catalog is made of names. -/
theorem Chain.Listed.isName_choices (h : chain.Listed catalog) (hcatalog : catalog.Named) {hop : Hop}
    (hhop : hop ∈ chain.hops) {typeName : String} {level : Level}
    (hlevel : Level.ofHop chain hop typeName = .ok level) :
    (∀ argument ∈ level.arguments, Text.isName argument.1 = true) ∧
      ∀ field ∈ level.fields, Text.isName field = true := by
  obtain ⟨selection, values, hselection, hvalues, rfl⟩ := (Level.ofHop_eq_ok_iff ..).1 hlevel
  obtain ⟨⟨selection', hselection', hfields⟩, values', hvalues', hfilters⟩ := h.exists_choices hhop
  obtain rfl := Option.some.inj (hselection.symm.trans hselection')
  obtain rfl := Option.some.inj (hvalues.symm.trans hvalues')
  obtain ⟨entity, hentity, hnames⟩ := (catalog.fields_eq_ok_iff ..).1 hfields
  obtain ⟨entity', hentity', hnames'⟩ := (catalog.filters_eq_ok_iff ..).1 hfilters
  obtain ⟨-, hnamed⟩ := hcatalog _ _ ((catalog.entity_eq_ok_iff ..).1 hentity)
  obtain ⟨-, hnamed'⟩ := hcatalog _ _ ((catalog.entity_eq_ok_iff ..).1 hentity')
  constructor
  · intro argument hargument
    exact hnamed'.filters _ (hnames' ▸ values.active_subset_names argument hargument)
  · intro field hfield
    exact hnamed.fields _ (hnames ▸ selection.included_subset_names field hfield)

/-- The selection of a chain of hops from the catalog, along the path that the rules tell. -/
theorem Chain.Listed.namedBut (h : chain.Listed catalog)
    (hcatalog : settings.loadCatalog files = .ok catalog)
    (hrules : settings.loadRules files = .ok rules)
    (hselection : Selection.ofChain chain (chain.path rules) = .ok selection) :
    selection.NamedBut catalog.kinds (settings.FileRule files) := by
  have hnamed := Settings.named_of_loadCatalog hcatalog
  -- hops bear kinds of the catalog, so renaming starts from names, at the root and at every hop
  have hkind : ∀ hop ∈ chain.hops, hop.kind ∈ catalog.kinds ∧ Text.isName hop.kind = true := by
    intro hop hhop
    obtain ⟨entity, hentity⟩ := h.exists_entity hhop
    obtain ⟨heq, hentity'⟩ := hnamed _ _ ((catalog.entity_eq_ok_iff ..).1 hentity)
    exact ⟨(catalog.exists_entity_iff _).1 ⟨entity, hentity⟩, heq ▸ hentity'.kind⟩
  have hchoices : ∀ level ∈ selection.levels,
      (∀ argument ∈ level.arguments, Text.isName argument.1 = true) ∧
        ∀ field ∈ level.fields, Text.isName field = true := by
    obtain ⟨levels, hlevels, hlevels'⟩ := (Selection.ofChain_eq_ok_iff ..).1 hselection
    rw [Selection.levels_of_ofLevels? hlevels']
    intro level hlevel
    obtain ⟨hop, hhop, hlevel'⟩ := Level.exists_hop_of_mem_ofHops hlevels level hlevel
    exact h.isName_choices hnamed hhop hlevel'
  have htypes : selection.typeNames = (Path.resolve rules chain.hops).typeNames :=
    Selection.map_typeName_levels hselection
  refine ⟨fun level hlevel => (hchoices level hlevel).1, fun level hlevel => (hchoices level hlevel).2,
    ?_, ?_⟩
  · rw [htypes, Path.head?_typeNames_resolve]
    intro typeName hhead
    obtain ⟨hop, hhop, rfl⟩ := Option.map_eq_some_iff.1 hhead
    exact (hkind hop (List.mem_of_mem_head? hhop)).2
  · rw [htypes]
    refine (Path.isChain_typeNames_resolve rules chain.hops).imp ?_
    rintro outer inner ⟨hop, hhop, rfl⟩
    obtain ⟨hmem, hname⟩ := hkind hop hhop
    exact (Settings.isName_resolve_or_fileRule hrules outer hname).imp_right
      fun hrule => ⟨hop.kind, hmem, hrule⟩

end Chain

namespace Session

theorem exists_call_of_lastSearch?_since {p : Operation → Bool} {calls : List Call} {t : Session}
    (h : lastSearch? (since p calls) = some t) : ∃ call ∈ calls, call.session = t := by
  obtain ⟨call, hlast, rfl⟩ := Option.map_eq_some_iff.1 h
  have hmem := List.mem_of_mem_filter (List.mem_of_getLast? hlast)
  exact ⟨call, (List.rtakeWhile_suffix _ _).subset hmem, rfl⟩

/-- After any run with a catalog and rules that the settings lead to, the query that the session
holds is the document of a selection whose arguments and fields bear names, and whose types are names
or told by the file of rules. It follows the grammar exactly if all its types are names; so it does
whenever the file tells names only, or there is no file. -/
theorem named_of_compiled {settings : Settings} {files : Files} {catalog : Catalog} {rules : Rules}
    (hcatalog : settings.loadCatalog files = .ok catalog)
    (hrules : settings.loadRules files = .ok rules) (maxHops : Nat) (mode : ShapeMode)
    (ops : List Operation) (query : Query)
    (hquery : ((start catalog rules maxHops mode).steps ops).compiled = some query) :
    ∃ earlier selection,
      lastSearch? (since Operation.invalidates ((start catalog rules maxHops mode).calls ops)) =
        some earlier ∧
      Selection.ofChain earlier.chain earlier.path = .ok selection ∧
      query.text = selection.document ∧
      selection.NamedBut catalog.kinds (settings.FileRule files) ∧
      (Selection.IsDocument query.text.toList selection ↔
        ∀ typeName ∈ selection.typeNames, Text.isName typeName = true) ∧
      ((∀ previous kind typeName, settings.FileRule files previous kind typeName →
          Text.isName typeName = true) →
        selection.Named ∧ Selection.IsDocument query.text.toList selection) := by
  have htrace := trace_calls (start catalog rules maxHops mode) ops
  obtain ⟨earlier, hlast, hcompile, -⟩ :=
    (Remembers.of_trace htrace).exists_of_compiled_eq_some hquery
  -- the session of the last search is one of those along the run
  obtain ⟨-, hsessions⟩ := htrace.forall_sessions
    (motive := fun t => (t.catalog = catalog ∧ t.rules = rules) ∧ t.chain.Listed t.catalog)
    ⟨⟨rfl, rfl⟩, .empty catalog⟩ fun t op next ht hchange => by
      obtain ⟨hcatalog', hrules', -⟩ := hchange.settings
      exact ⟨⟨hcatalog'.trans ht.1.1, hrules'.trans ht.1.2⟩, hchange.listed ht.2⟩
  obtain ⟨call, hcall, rfl⟩ := exists_call_of_lastSearch?_since hlast
  obtain ⟨⟨hcatalog', hrules'⟩, hlisted⟩ := hsessions call hcall
  rw [hcatalog'] at hlisted
  obtain ⟨-, -, selection, hselection, rfl⟩ :=
    (Query.compileWithPath_eq_ok_iff ..).1 ((Query.compile_eq_ok_iff ..).1 hcompile)
  have hbut := hlisted.namedBut hcatalog hrules hselection
  refine ⟨call.session, selection, hlast, ?_, rfl, hbut, hbut.isDocument_iff, fun htold => ?_⟩
  · rw [path, hrules', hselection]
  · have hdocument := hbut.isDocument_iff.2 (hbut.isName_of_mem_typeNames htold)
    exact ⟨(Selection.isDocument_document_iff selection).1 hdocument, hdocument⟩

/-- Files with a catalog of planets and their moons, and with a rule for the moon of a planet. -/
def orbitFiles : Files :=
  .ofList
    [("sky.yaml", .ok ("entities:\n  - kind: planets\n    fields: [id]\n" ++
        "  - kind: moons\n    fields: [id, name]\n    filters: [name]\n").toUTF8),
      ("moon.yaml", .ok "planets:\n  moons: moon\n".toUTF8)]

/-- The settings that lead to these files. -/
def orbit : Settings :=
  ⟨some "sky.yaml", some "moon.yaml", .flat, 4⟩

/-- With such files the query of a planet and its moon follows the grammar. -/
theorem named_of_compiled_orbit :
    let catalog := Catalog.ofList [⟨"planets", ["id"], ["id"], true⟩,
      ⟨"moons", ["id", "name"], ["name"], true⟩]
    let rules := Rules.school.insert "planets" "moons" "moon"
    let ops := [.addHop "planets" ⟨1⟩, .addHop "moons" ⟨2⟩, .setFilter ⟨2⟩ "name" "Io", .search,
      .toggleField ⟨2⟩ "id"]
    let query : Query := ⟨"\x7bplanets \x7bid moon(name: \"Io\") \x7bid name\x7d\x7d\x7d"⟩
    orbit.loadCatalog orbitFiles = .ok catalog ∧ orbit.loadRules orbitFiles = .ok rules ∧
      ((start catalog rules orbit.maxHops orbit.mode).steps ops).compiled = some query ∧
      ∃ selection, Selection.IsDocument query.text.toList selection := by
  intro catalog rules ops query
  have hcatalog : orbit.loadCatalog orbitFiles = .ok catalog := by decide +kernel
  have hrules : orbit.loadRules orbitFiles = .ok rules := by decide +kernel
  have hquery : ((start catalog rules orbit.maxHops orbit.mode).steps ops).compiled = some query := by
    decide +kernel
  have hfile : Settings.rulesOfFile orbitFiles "moon.yaml" =
      .ok (Rules.empty.insert "planets" "moons" "moon") := by
    decide +kernel
  obtain ⟨-, selection, -, -, -, -, -, hfollows⟩ :=
    named_of_compiled hcatalog hrules orbit.maxHops orbit.mode ops query hquery
  refine ⟨hcatalog, hrules, hquery, selection, (hfollows ?_).2⟩
  rintro previous kind typeName ⟨path, fileRules, hpath, hread, hget⟩
  cases hpath
  obtain rfl := Except.ok.inj (hfile.symm.trans hread)
  exact Rules.Named.empty.insert "planets" "moons" (by decide +kernel) previous kind typeName hget

/-- A file with a rule whose type is no name. -/
def looseFiles : Files :=
  .ofList [("rules.yaml", .ok "students:\n  schools: the-school\n".toUTF8)]

/-- The school catalog, with the rules of that file. -/
def loose : Settings :=
  ⟨none, some "rules.yaml", .nested, 16⟩

/-- The file is taken as it is, and the query that a search makes and stores bears its type. No
selection is spelled by the text of that query. -/
theorem not_isDocument_unnamed :
    let rules := Rules.school.insert "students" "schools" "the-school"
    let s := (start .school rules loose.maxHops loose.mode).steps
      [.addHop "students" ⟨1⟩, .addHop "schools" ⟨2⟩]
    let query : Query :=
      ⟨"\x7bstudents \x7bid firstName lastName userName the-school \x7bid name\x7d\x7d\x7d"⟩
    loose.loadCatalog looseFiles = .ok .school ∧ loose.loadRules looseFiles = .ok rules ∧
      s.search = .ok (query, (s.step .search)) ∧ (s.step .search).compiled = some query ∧
      (Selection.ofChain s.chain s.path).map Selection.typeNames =
        .ok ["students", "the-school"] ∧
      Text.isName "the-school" = false ∧
      ∀ selection, ¬ Selection.IsDocument query.text.toList selection := by
  intro rules s query
  have hcompile : Query.compile s.chain s.rules = .ok query := by decide +kernel
  have hsearch := (search_eq_ok_iff s _ query).2 ⟨hcompile, rfl⟩
  have hstep : s.step .search = { s with compiled := some query, fetch := .pending } := by
    rw [step, perform, hsearch]
    rfl
  have hread : Selection.read? query.text = none := by decide +kernel
  refine ⟨rfl, by decide +kernel, hstep ▸ hsearch, by rw [hstep], by decide +kernel, by decide +kernel,
    fun selection hdocument => ?_⟩
  rw [(Selection.read?_eq_some_iff _ _).2 hdocument] at hread
  cases hread

end Session

end HopQuery
