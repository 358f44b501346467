import HopQuery.Proofs.Outcome
import HopQuery.Proofs.Yaml.Fields
import HopQuery.Settings.Basic
import Mathlib.Control.Monad.Basic

/-!
# Sources of settings

Settings come from several sources, and each source may leave some of them open. What a file
provides is told by the fields of its document, and what the environment provides by the variables;
either is settings on its own, if everything in it can be read and the number of hops is within its
bounds.

* `Environment.Unread`: a variable that is set and from which nothing is read;
* `Source`, `Settings.ofSources`: what a source provides, and the settings of several sources, of
  which the first counts;
* `Source.OfEnvironment`, `Source.OfDocument`, `Source.OfFile`: the sources;
* `Settings.ofSources_cons`: one more source is laid over the settings of the others;
* `Settings.sets_catalogPath`, `sets_rulesPath`, `sets_mode`, `sets_maxHops`: the keys of a file;
* `Settings.ofFile_eq_ok_iff`, `Settings.ofEnvironment_eq_ok_iff`: the settings of a source.
-/

namespace HopQuery

open Yaml.Decoding

/-- Nothing is read from a variable, although it is set: its value is no text, or the text cannot be
read. -/
inductive Environment.Unread {ε α : Type} (environment : Environment) (name : String)
    (read : String → Except ε α) : Prop
  | notText : environment.text name = .error .notText → Unread environment name read
  | notRead (text : String) (error : ε) : environment.text name = .ok text →
      read text = .error error → Unread environment name read

/-! ### Sources -/

/-- What a source provides of the settings, `none` for what it leaves open. -/
structure Source where
  catalogPath : Option String
  rulesPath : Option String
  mode : Option ShapeMode
  maxHops : Option Nat

/-- Each setting as the first of the sources has it that provides it, or as when nothing is
set. -/
def Settings.ofSources (sources : List Source) : Settings where
  catalogPath := sources.findSome? Source.catalogPath
  rulesPath := sources.findSome? Source.rulesPath
  mode := (sources.findSome? Source.mode).getD standardMode
  maxHops := (sources.findSome? Source.maxHops).getD standardMaxHops

namespace Source

/-- The source provides what the texts of the variables have. A variable whose value is no text
provides nothing, like one that is not set. -/
structure OfEnvironment (environment : Environment) (source : Source) : Prop where
  catalogPath : source.catalogPath = environment.text? "GLUI_CATALOG"
  rulesPath : source.rulesPath = environment.text? "GLUI_SANITIZER_RULES"
  mode : (environment.text? "GLUI_MODE").mapM ShapeMode.read = .ok source.mode
  maxHops : (environment.text? "GLUI_MAX_CHAIN_LENGTH").mapM Text.readNumeral = .ok source.maxHops

/-- The source provides what the fields of the document have; a path that is null is none. -/
structure OfDocument (document : Yaml.Document) (source : Source) : Prop where
  catalogPath : ∀ path, source.catalogPath = some path ↔
    ∃ value, document.HasField "catalog_path" value ∧
      document.Gives (optional text value) (some path)
  rulesPath : ∀ path, source.rulesPath = some path ↔
    ∃ value, document.HasField "sanitizer_rules_path" value ∧
      document.Gives (optional text value) (some path)
  mode : ∀ mode, source.mode = some mode ↔
    ∃ value, document.HasField "default_mode" value ∧
      document.Gives (Yaml.Decoding.mode value) mode
  maxHops : ∀ maxHops, source.maxHops = some maxHops ↔
    ∃ value, document.HasField "max_chain_length" value ∧ document.Gives (count value) maxHops

theorem OfEnvironment.unique {environment : Environment} {source other : Source}
    (h : source.OfEnvironment environment) (hother : other.OfEnvironment environment) :
    source = other := by
  obtain ⟨catalogPath, rulesPath, mode, maxHops⟩ := source
  obtain ⟨catalogPath', rulesPath', mode', maxHops'⟩ := other
  congr
  · exact h.catalogPath.trans hother.catalogPath.symm
  · exact h.rulesPath.trans hother.rulesPath.symm
  · exact Except.ok.inj (h.mode.symm.trans hother.mode)
  · exact Except.ok.inj (h.maxHops.symm.trans hother.maxHops)

theorem OfDocument.unique {document : Yaml.Document} {source other : Source}
    (h : source.OfDocument document) (hother : other.OfDocument document) : source = other := by
  obtain ⟨catalogPath, rulesPath, mode, maxHops⟩ := source
  obtain ⟨catalogPath', rulesPath', mode', maxHops'⟩ := other
  congr
  · exact Option.ext fun path => (h.catalogPath path).trans (hother.catalogPath path).symm
  · exact Option.ext fun path => (h.rulesPath path).trans (hother.rulesPath path).symm
  · exact Option.ext fun mode => (h.mode mode).trans (hother.mode mode).symm
  · exact Option.ext fun maxHops => (h.maxHops maxHops).trans (hother.maxHops maxHops).symm

end Source

/-- The file holds the document and nothing else. -/
def Files.HoldsDocument (files : Files) (name : String) (document : Yaml.Document) : Prop :=
  ∃ text, files.text name = .ok text ∧ Yaml.Document.read? text = some document

theorem Files.HoldsDocument.unique {files : Files} {name : String}
    {document other : Yaml.Document} (h : files.HoldsDocument name document)
    (hother : files.HoldsDocument name other) : document = other := by
  obtain ⟨text, htext, hread⟩ := h
  obtain ⟨text', htext', hread'⟩ := hother
  cases htext.symm.trans htext'
  exact Option.some.inj (hread.symm.trans hread')

/-- The settings in the file can be read, and the source provides what their fields have. -/
def Source.OfFile (files : Files) (name : String) (source : Source) : Prop :=
  ∃ document, files.HoldsDocument name document ∧
    (document.decode? Settings.decode).isSome ∧ source.OfDocument document

namespace Settings

/-- With one more source in front, what it provides is laid over the settings of the others. -/
theorem ofSources_cons (source : Source) (sources : List Source) :
    ofSources (source :: sources) = (ofSources sources).merge
      { catalogPath := source.catalogPath
        rulesPath := source.rulesPath
        mode := source.mode.getD (ofSources sources).mode
        maxHops := source.maxHops.getD (ofSources sources).maxHops } := by
  obtain ⟨catalogPath, rulesPath, mode, maxHops⟩ := source
  simp only [ofSources, merge, List.findSome?_cons]
  congr 1
  · cases catalogPath <;> rfl
  · cases rulesPath <;> rfl
  · cases mode <;> rfl
  · cases maxHops <;> rfl

theorem ofSources_singleton (source : Source) :
    ofSources [source] = ⟨source.catalogPath, source.rulesPath, source.mode.getD standardMode,
      source.maxHops.getD standardMaxHops⟩ := by
  simp only [ofSources, List.findSome?_singleton]

theorem check_eq_ok_iff (settings checked : Settings) :
    settings.check = .ok checked ↔ checked = settings ∧ checked.InBounds := by
  unfold check
  split
  · next h =>
    constructor
    · rintro ⟨⟩
      exact ⟨rfl, h⟩
    · rintro ⟨rfl, -⟩
      rfl
  · next h =>
    constructor
    · rintro ⟨⟩
    · rintro ⟨rfl, hbounds⟩
      exact absurd hbounds h

/-! ### Settings of a file -/

/-- A field that is read changes no part but its own. -/
theorem field_keeps {anchored : List (Nat × Yaml.Node)} {gathered next : PartialSettings}
    {name : String} {value : Yaml.Node}
    (h : Gives anchored (PartialSettings.field gathered name value) next) :
    (name ≠ "catalog_path" → next.catalogPath = gathered.catalogPath) ∧
      (name ≠ "sanitizer_rules_path" → next.rulesPath = gathered.rulesPath) ∧
      (name ≠ "default_mode" → next.mode = gathered.mode) ∧
      (name ≠ "max_chain_length" → next.maxHops = gathered.maxHops) := by
  unfold PartialSettings.field at h
  -- one case per key, and one for the keys that are passed over
  split at h
  · obtain ⟨-, _, -, rfl⟩ := gives_once_bind h
    simp
  · obtain ⟨-, _, -, rfl⟩ := gives_once_bind h
    simp
  · obtain ⟨-, _, -, rfl⟩ := gives_once_bind h
    simp
  · obtain ⟨-, _, -, rfl⟩ := gives_once_bind h
    simp
  · rw [(gives_pure_iff ..).1 h]
    simp

theorem sets_catalogPath :
    Sets PartialSettings.field "catalog_path" PartialSettings.catalogPath (optional text) :=
  .of_once (fun _ _ => rfl) (fun _ _ => rfl) fun _ _ _ _ _ hne h => (field_keeps h).1 hne

theorem sets_rulesPath :
    Sets PartialSettings.field "sanitizer_rules_path" PartialSettings.rulesPath
      (optional text) :=
  .of_once (fun _ _ => rfl) (fun _ _ => rfl) fun _ _ _ _ _ hne h => (field_keeps h).2.1 hne

theorem sets_mode :
    Sets PartialSettings.field "default_mode" PartialSettings.mode Yaml.Decoding.mode :=
  .of_once (fun _ _ => rfl) (fun _ _ => rfl) fun _ _ _ _ _ hne h => (field_keeps h).2.2.1 hne

theorem sets_maxHops :
    Sets PartialSettings.field "max_chain_length" PartialSettings.maxHops count :=
  .of_once (fun _ _ => rfl) (fun _ _ => rfl) fun _ _ _ _ _ hne h => (field_keeps h).2.2.2 hne

/-- What has been read, as a source. -/
def PartialSettings.source (settings : PartialSettings) : Source where
  catalogPath := settings.catalogPath.join
  rulesPath := settings.rulesPath.join
  mode := settings.mode
  maxHops := settings.maxHops

theorem PartialSettings.complete_eq (settings : PartialSettings) :
    settings.complete = ofSources [settings.source] := by
  obtain ⟨catalogPath, rulesPath, mode, maxHops⟩ := settings
  rw [ofSources_singleton]
  cases catalogPath <;> cases rulesPath <;> rfl

theorem PartialSettings.source_ofDocument {document : Yaml.Document} {settings : PartialSettings}
    (h : document.Gives (record ⟨none, none, none, none⟩ PartialSettings.field document.root)
      settings) :
    settings.source.OfDocument document where
  catalogPath path := Option.join_eq_some_iff.trans
    (sets_catalogPath.part_eq_some_iff rfl (optional_single text_single) h (some path))
  rulesPath path := Option.join_eq_some_iff.trans
    (sets_rulesPath.part_eq_some_iff rfl (optional_single text_single) h (some path))
  mode := sets_mode.part_eq_some_iff rfl mode_single h
  maxHops := sets_maxHops.part_eq_some_iff rfl count_single h

theorem exists_record_of_decode? {document : Yaml.Document} {read : Settings}
    (h : document.decode? decode = some read) :
    ∃ settings, document.Gives
      (record ⟨none, none, none, none⟩ PartialSettings.field document.root) settings ∧
      read = settings.complete := by
  obtain ⟨settings, hsettings, hread⟩ := gives_bind (Yaml.Document.gives_of_decode? h)
  exact ⟨settings, hsettings, (gives_pure_iff ..).1 hread⟩

theorem ofFile_eq_ok_iff_decode (files : Files) (name : String) (settings : Settings) :
    ofFile files name = .ok settings ↔ settings.InBounds ∧
      ∃ document, files.HoldsDocument name document ∧ document.decode? decode = some settings := by
  simp only [ofFile, bind_eq_ok_iff, mapError_eq_ok_iff]
  constructor
  · rintro ⟨text, htext, h⟩
    split at h
    · next read hread =>
      obtain ⟨rfl, hbounds⟩ := (check_eq_ok_iff ..).1 h
      obtain ⟨document, hdocument, hread⟩ := Option.bind_eq_some_iff.1 hread
      exact ⟨hbounds, document, ⟨text, htext, hdocument⟩, hread⟩
    · cases h
  · rintro ⟨hbounds, document, ⟨text, htext, hdocument⟩, hread⟩
    have hdecode : Yaml.decodeText? text decode = some settings :=
      Option.bind_eq_some_iff.2 ⟨document, hdocument, hread⟩
    refine ⟨text, htext, ?_⟩
    rw [hdecode]
    exact (check_eq_ok_iff ..).2 ⟨rfl, hbounds⟩

theorem ofFile_eq_ok_iff (files : Files) (name : String) (settings : Settings) :
    ofFile files name = .ok settings ↔
      ∃ source : Source, source.OfFile files name ∧ settings = ofSources [source] ∧
        settings.InBounds := by
  rw [ofFile_eq_ok_iff_decode]
  constructor
  · rintro ⟨hbounds, document, hholds, hread⟩
    obtain ⟨read, hgives, rfl⟩ := exists_record_of_decode? hread
    exact ⟨read.source, ⟨document, hholds, Option.isSome_of_eq_some hread,
      PartialSettings.source_ofDocument hgives⟩, read.complete_eq, hbounds⟩
  · rintro ⟨source, ⟨document, hholds, hsome, hsource⟩, rfl, hbounds⟩
    obtain ⟨settings, hread⟩ := Option.isSome_iff_exists.1 hsome
    obtain ⟨read, hgives, rfl⟩ := exists_record_of_decode? hread
    -- the fields leave no choice, so the source is what has been read
    cases hsource.unique (PartialSettings.source_ofDocument hgives)
    exact ⟨hbounds, document, hholds, hread.trans (congrArg some read.complete_eq)⟩

/-! ### Settings of the environment -/

/-- What a variable gives is read from its text, if it has one, or else it is what is read from the
standard text. -/
theorem ofVariable_eq_ok_iff {ε α : Type} {read : String → Except ε α} {standard : String}
    {standing : α} (hstandard : read standard = .ok standing) (environment : Environment)
    (name : String) (wrong : String → ε → SettingsError) (a : α) :
    ofVariable environment name standard read wrong = .ok a ↔
      ∃ provided, (environment.text? name).mapM read = .ok provided ∧
        a = provided.getD standing := by
  rw [ofVariable, mapError_eq_ok_iff]
  cases environment.text? name with
  | none =>
    constructor
    · intro h
      exact ⟨none, rfl, Except.ok.inj (h.symm.trans hstandard)⟩
    · rintro ⟨provided, ⟨⟩, rfl⟩
      exact hstandard
  | some text =>
    simp only [Option.mapM_some, map_eq_pure_bind]
    constructor
    · intro h
      exact ⟨some a, (bind_pure_eq_ok_iff ..).2 ⟨a, h, rfl⟩, rfl⟩
    · rintro ⟨provided, h, rfl⟩
      obtain ⟨a, ha, rfl⟩ := (bind_pure_eq_ok_iff ..).1 h
      exact ha

theorem read_standardMode : ShapeMode.read "nested" = .ok standardMode := by
  decide +kernel

theorem readNumeral_standardMaxHops : Text.readNumeral "16" = .ok standardMaxHops := by
  decide +kernel

theorem ofEnvironment_eq_ok_iff (environment : Environment) (settings : Settings) :
    ofEnvironment environment = .ok settings ↔
      ∃ source : Source, source.OfEnvironment environment ∧ settings = ofSources [source] ∧
        settings.InBounds := by
  simp only [ofEnvironment, bind_eq_ok_iff, ofVariable_eq_ok_iff read_standardMode,
    ofVariable_eq_ok_iff readNumeral_standardMaxHops, check_eq_ok_iff]
  constructor
  · rintro ⟨_, ⟨mode, hmode, rfl⟩, _, ⟨maxHops, hmaxHops, rfl⟩, rfl, hbounds⟩
    let source : Source :=
      ⟨environment.text? "GLUI_CATALOG", environment.text? "GLUI_SANITIZER_RULES", mode, maxHops⟩
    exact ⟨source, ⟨rfl, rfl, hmode, hmaxHops⟩, (ofSources_singleton source).symm, hbounds⟩
  · rintro ⟨source, ⟨hcatalog, hrules, hmode, hmaxHops⟩, rfl, hbounds⟩
    refine ⟨_, ⟨_, hmode, rfl⟩, _, ⟨_, hmaxHops, rfl⟩, ?_, hbounds⟩
    rw [ofSources_singleton, hcatalog, hrules]

end Settings

/-- A variable that is set and from which nothing is read does no harm only if its value is no
text. -/
theorem Environment.Unread.text_eq {ε α : Type} {environment : Environment} {name : String}
    {read : String → Except ε α} (h : environment.Unread name read) {provided : Option α}
    (hprovided : (environment.text? name).mapM read = .ok provided) :
    environment.text name = .error .notText := by
  cases h with
  | notText htext => exact htext
  | notRead text error htext hread =>
    rw [Environment.text?_eq_some_iff.2 htext, Option.mapM_some, map_eq_pure_bind] at hprovided
    obtain ⟨a, ha, -⟩ := (bind_pure_eq_ok_iff ..).1 hprovided
    cases hread.symm.trans ha

/-- Where the settings in a file are read, the value of every field is. -/
theorem Source.OfFile.exists_gives {β : Type} {key : String}
    {part : Settings.PartialSettings → Option β} {reading : Yaml.Node → Yaml.Decoding β}
    {files : Files} {name : String} {source : Source} {document : Yaml.Document}
    {value : Yaml.Node} (h : source.OfFile files name)
    (hsets : Sets Settings.PartialSettings.field key part reading)
    (hholds : files.HoldsDocument name document) (hfield : document.HasField key value) :
    ∃ b, document.Gives (reading value) b := by
  obtain ⟨document', hholds', hsome, -⟩ := h
  cases hholds.unique hholds'
  obtain ⟨complete, hread⟩ := Option.isSome_iff_exists.1 hsome
  obtain ⟨settings, hgives, -⟩ := Settings.exists_record_of_decode? hread
  obtain ⟨b, hb, -⟩ := hsets.part_of_hasField hgives hfield
  exact ⟨b, hb⟩

end HopQuery
