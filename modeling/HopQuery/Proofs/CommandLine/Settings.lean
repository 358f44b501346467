import HopQuery.CommandLine.Outcome
import HopQuery.Proofs.Settings.Sources
import Mathlib.Control.Monad.Basic

/-!
# The settings of an invocation

Every setting comes from the command line, or else from the source behind it, or else it is as when
nothing is set. Behind the command line stands the file of settings that it names, or else the
environment; this source has to be sound on its own, but for variables whose value is no text, which
count as not set.

* `Invocation.source`, `Invocation.Base`: the two sources;
* `Invocation.BaseFault`: what is wrong with the source behind the command line;
* `baseSettings_eq_ok_iff`, `settings_eq_ok_iff`, `session_eq_ok_iff`: the outcomes, one after
  another;
* `Invocation.PassesOver`: a variable whose value is no text;
* `BaseFault.exists_session_eq_error`, `baseFault_iff_of_session`: a fault behind the command line
  is not made good by it;
* `baseSettings_eq_of_config`, `baseSettings_erase`: where the environment does not count;
* `session_from_sources`: where the settings of a session come from, and when there is none;
* `session_despite_stray_mode`: a mode of the environment that is passed over.
-/

namespace HopQuery

open Yaml.Decoding

namespace Invocation

/-! ### The session of an invocation -/

/-- What the command line provides. -/
def source (invocation : Invocation) : Source where
  catalogPath := invocation.options.catalog
  rulesPath := invocation.options.rules
  mode := invocation.mode?
  maxHops := invocation.options.maxHops

/-- The source behind the command line: the file of the settings, if the command line names one,
or else the environment. -/
def Base (invocation : Invocation) (files : Files) (environment : Environment) (base : Source) :
    Prop :=
  match invocation.options.config with
  | some name => base.OfFile files name
  | none => base.OfEnvironment environment

/-- What is wrong with the source behind the command line. -/
inductive BaseFault (invocation : Invocation) (files : Files) (environment : Environment) : Prop
  | variableMode : invocation.options.config = none →
      environment.Unread "GLUI_MODE" ShapeMode.read → BaseFault invocation files environment
  | variableMaxHops : invocation.options.config = none →
      environment.Unread "GLUI_MAX_CHAIN_LENGTH" Text.readNumeral →
      BaseFault invocation files environment
  | fieldMode (name : String) (document : Yaml.Document) (value : Yaml.Node) :
      invocation.options.config = some name → files.HoldsDocument name document →
      document.HasField "default_mode" value →
      (∀ mode, ¬ document.Gives (Yaml.Decoding.mode value) mode) →
      BaseFault invocation files environment
  | fieldMaxHops (name : String) (document : Yaml.Document) (value : Yaml.Node) :
      invocation.options.config = some name → files.HoldsDocument name document →
      document.HasField "max_chain_length" value →
      (∀ maxHops, ¬ document.Gives (count value) maxHops) →
      BaseFault invocation files environment
  | outOfBounds (base : Source) : invocation.Base files environment base →
      ¬ (Settings.ofSources [base]).InBounds → BaseFault invocation files environment

/-- The variable would count, as there is no file of settings, but its value is no text. -/
def PassesOver (invocation : Invocation) (environment : Environment) (name : String) : Prop :=
  invocation.options.config = none ∧ environment.text name = .error .notText

variable {invocation : Invocation} {files : Files} {environment : Environment}

theorem baseSettings_eq_ok_iff (settings : Settings) :
    invocation.baseSettings files environment = .ok settings ↔
      ∃ base, invocation.Base files environment base ∧ settings = Settings.ofSources [base] ∧
        settings.InBounds := by
  unfold baseSettings Base
  cases invocation.options.config with
  | some name => exact Settings.ofFile_eq_ok_iff ..
  | none => exact Settings.ofEnvironment_eq_ok_iff ..

theorem settings_eq_ok_iff (settings : Settings) :
    invocation.settings files environment = .ok settings ↔
      ∃ base, invocation.Base files environment base ∧ (Settings.ofSources [base]).InBounds ∧
        settings = Settings.ofSources [invocation.source, base] ∧ settings.InBounds := by
  -- the options are laid over the base as one more source in front of it
  have hmerge (base : Source) :
      (Settings.ofSources [base]).merge
        { catalogPath := invocation.options.catalog
          rulesPath := invocation.options.rules
          mode := invocation.mode?.getD (Settings.ofSources [base]).mode
          maxHops := invocation.options.maxHops.getD (Settings.ofSources [base]).maxHops } =
      Settings.ofSources [invocation.source, base] :=
    (Settings.ofSources_cons invocation.source [base]).symm
  simp only [Invocation.settings, bind_eq_ok_iff, mapError_eq_ok_iff, baseSettings_eq_ok_iff]
  constructor
  · rintro ⟨_, ⟨base, hbase, rfl, hbounds⟩, h⟩
    rw [hmerge] at h
    split at h
    · next hmerged =>
      cases h
      exact ⟨base, hbase, hbounds, rfl, hmerged⟩
    · cases h
  · rintro ⟨base, hbase, hbounds, rfl, hmerged⟩
    refine ⟨_, ⟨base, hbase, rfl, hbounds⟩, ?_⟩
    rw [hmerge, if_pos hmerged]
    rfl

/-- There is a session if both the source behind the command line and the settings of all sources
are within the bounds, and the paths lead to a catalog and to rules. -/
theorem session_eq_ok_iff (session : Session) :
    invocation.session files environment = .ok session ↔
      ∃ base settings catalog rules, invocation.Base files environment base ∧
        (Settings.ofSources [base]).InBounds ∧
        settings = Settings.ofSources [invocation.source, base] ∧ settings.InBounds ∧
        settings.loadCatalog files = .ok catalog ∧ settings.loadRules files = .ok rules ∧
        session = .start catalog rules settings.maxHops settings.mode := by
  simp only [Invocation.session, bind_eq_ok_iff, mapError_eq_ok_iff, settings_eq_ok_iff]
  constructor
  · rintro ⟨settings, ⟨base, hbase, hbounds, hsettings, hmerged⟩, catalog, hcatalog, rules, hrules,
      ⟨⟩⟩
    exact ⟨base, settings, catalog, rules, hbase, hbounds, hsettings, hmerged, hcatalog, hrules,
      rfl⟩
  · rintro ⟨base, settings, catalog, rules, hbase, hbounds, hsettings, hmerged, hcatalog, hrules,
      rfl⟩
    exact ⟨settings, ⟨base, hbase, hbounds, hsettings, hmerged⟩, catalog, hcatalog, rules, hrules,
      rfl⟩

/-! ### Faults behind the command line -/

theorem base_iff_ofFile {name : String} (hconfig : invocation.options.config = some name)
    (base : Source) : invocation.Base files environment base ↔ base.OfFile files name := by
  rw [Base, hconfig]

theorem base_iff_ofEnvironment (hconfig : invocation.options.config = none) (base : Source) :
    invocation.Base files environment base ↔ base.OfEnvironment environment := by
  rw [Base, hconfig]

theorem Base.unique {base other : Source} (h : invocation.Base files environment base)
    (hother : invocation.Base files environment other) : base = other := by
  cases hconfig : invocation.options.config with
  | some name =>
    obtain ⟨document, hholds, -, hbase⟩ := (base_iff_ofFile hconfig base).1 h
    obtain ⟨document', hholds', -, hother⟩ := (base_iff_ofFile hconfig other).1 hother
    -- one file holds one document
    cases hholds.unique hholds'
    exact hbase.unique hother
  | none =>
    exact ((base_iff_ofEnvironment hconfig base).1 h).unique
      ((base_iff_ofEnvironment hconfig other).1 hother)

/-- Where something is wrong with the source behind the command line, there are no settings, and
the command line has no say in it. The one exception is a variable that is passed over. -/
theorem BaseFault.baseSettings_ne (fault : invocation.BaseFault files environment)
    (hmode : ¬ invocation.PassesOver environment "GLUI_MODE")
    (hmaxHops : ¬ invocation.PassesOver environment "GLUI_MAX_CHAIN_LENGTH")
    (settings : Settings) : invocation.baseSettings files environment ≠ .ok settings := by
  intro h
  obtain ⟨base, hbase, rfl, hbounds⟩ := (baseSettings_eq_ok_iff settings).1 h
  cases fault with
  | variableMode hconfig hunread =>
    exact hmode ⟨hconfig, hunread.text_eq ((base_iff_ofEnvironment hconfig base).1 hbase).mode⟩
  | variableMaxHops hconfig hunread =>
    exact hmaxHops
      ⟨hconfig, hunread.text_eq ((base_iff_ofEnvironment hconfig base).1 hbase).maxHops⟩
  | fieldMode name document value hconfig hholds hfield hnone =>
    obtain ⟨mode, hmode⟩ :=
      ((base_iff_ofFile hconfig base).1 hbase).exists_gives Settings.sets_mode hholds hfield
    exact hnone mode hmode
  | fieldMaxHops name document value hconfig hholds hfield hnone =>
    obtain ⟨maxHops, hmaxHops⟩ :=
      ((base_iff_ofFile hconfig base).1 hbase).exists_gives Settings.sets_maxHops hholds hfield
    exact hnone maxHops hmaxHops
  | outOfBounds other hother houtside =>
    cases hbase.unique hother
    exact houtside hbounds

/-- So there is no session either, whatever the command line says. -/
theorem BaseFault.exists_session_eq_error (fault : invocation.BaseFault files environment)
    (hmode : ¬ invocation.PassesOver environment "GLUI_MODE")
    (hmaxHops : ¬ invocation.PassesOver environment "GLUI_MAX_CHAIN_LENGTH") :
    ∃ error, invocation.session files environment = .error (.settings error) := by
  cases hbase : invocation.baseSettings files environment with
  | ok settings => exact absurd hbase (fault.baseSettings_ne hmode hmaxHops settings)
  | error error =>
    refine ⟨error, ?_⟩
    rw [Invocation.session, Invocation.settings, hbase]
    rfl

/-- A fault of a source from which a session has come is that of a variable that is passed over. -/
theorem baseFault_iff_of_session {session : Session}
    (h : invocation.session files environment = .ok session) :
    invocation.BaseFault files environment ↔
      invocation.PassesOver environment "GLUI_MODE" ∨
        invocation.PassesOver environment "GLUI_MAX_CHAIN_LENGTH" := by
  constructor
  · intro fault
    by_contra hnot
    obtain ⟨hmode, hmaxHops⟩ := not_or.1 hnot
    obtain ⟨error, herror⟩ := fault.exists_session_eq_error hmode hmaxHops
    cases h.symm.trans herror
  · rintro (⟨hconfig, htext⟩ | ⟨hconfig, htext⟩)
    · exact .variableMode hconfig (.notText htext)
    · exact .variableMaxHops hconfig (.notText htext)

/-! ### What does not count -/

/-- The environment counts by the settings behind the command line alone. -/
theorem session_and_run_eq {other : Environment}
    (h : invocation.baseSettings files other = invocation.baseSettings files environment)
    (fresh : Nat → HopId) :
    invocation.session files other = invocation.session files environment ∧
      invocation.run files other fresh = invocation.run files environment fresh := by
  have hsession : invocation.session files other = invocation.session files environment := by
    simp only [Invocation.session, Invocation.settings, h]
  exact ⟨hsession, by rw [run, run, hsession]⟩

theorem baseSettings_eq_of_config (h : invocation.options.config ≠ none) (other : Environment) :
    invocation.baseSettings files other = invocation.baseSettings files environment := by
  obtain ⟨name, hname⟩ := Option.ne_none_iff_exists'.1 h
  simp only [baseSettings, hname]

theorem baseSettings_erase {name : String} (h : environment.text name = .error .notText) :
    invocation.baseSettings files (environment.erase name) =
      invocation.baseSettings files environment := by
  unfold baseSettings
  cases invocation.options.config with
  | some file => rfl
  | none =>
    simp only [Settings.ofEnvironment, Settings.ofVariable, Environment.text?_erase h]

/-- A session starts with every setting as the command line has it, or else as the source behind
the command line has it, or else as when nothing is set, and its chain may hold one to sixty-four
hops. A fault of the source behind the command line leaves no session, even where the command line
would have the setting, unless the fault is a variable whose value is no text: such a variable is
passed over as if it were not set, whether it has a mode, a number of hops or a path. With a file of
settings the environment does not count; and without a session the run fails as the session did. -/
theorem session_from_sources (invocation : Invocation) (files : Files)
    (environment : Environment) :
    (∀ session, invocation.session files environment = .ok session ↔
      ∃ base settings catalog rules, invocation.Base files environment base ∧
        (Settings.ofSources [base]).InBounds ∧
        settings = Settings.ofSources [invocation.source, base] ∧ settings.InBounds ∧
        settings.loadCatalog files = .ok catalog ∧ settings.loadRules files = .ok rules ∧
        session = .start catalog rules settings.maxHops settings.mode) ∧
    (∀ session, invocation.session files environment = .ok session →
      (1 ≤ session.maxHops ∧ session.maxHops ≤ 64) ∧
      (invocation.BaseFault files environment ↔
        invocation.PassesOver environment "GLUI_MODE" ∨
          invocation.PassesOver environment "GLUI_MAX_CHAIN_LENGTH")) ∧
    (invocation.BaseFault files environment →
      ¬ invocation.PassesOver environment "GLUI_MODE" →
      ¬ invocation.PassesOver environment "GLUI_MAX_CHAIN_LENGTH" →
      ∃ error, invocation.session files environment = .error (.settings error)) ∧
    (∀ name, environment.text name = .error .notText → ∀ fresh,
      invocation.session files (environment.erase name) = invocation.session files environment ∧
      invocation.run files (environment.erase name) fresh =
        invocation.run files environment fresh) ∧
    (invocation.options.config ≠ none → ∀ other fresh,
      invocation.session files other = invocation.session files environment ∧
      invocation.run files other fresh = invocation.run files environment fresh) ∧
    ∀ error, invocation.session files environment = .error error →
      ∀ fresh, invocation.run files environment fresh = .error error := by
  refine ⟨session_eq_ok_iff, fun session h => ⟨?_, baseFault_iff_of_session h⟩,
    fun fault hmode hmaxHops => fault.exists_session_eq_error hmode hmaxHops,
    fun name h fresh => session_and_run_eq (baseSettings_erase h) fresh,
    fun hconfig other fresh => session_and_run_eq (baseSettings_eq_of_config hconfig other) fresh,
    fun error h fresh => ?_⟩
  · obtain ⟨base, settings, catalog, rules, -, -, -, hbounds, -, -, rfl⟩ :=
      (session_eq_ok_iff session).1 h
    exact hbounds
  · rw [run, h]
    rfl

/-- A file of settings, with a mode and a number of hops. -/
def flatOfEight : Files :=
  .ofList [("glui.yaml", .ok "default_mode: flat\nmax_chain_length: 8\n".toUTF8)]

/-- A variable with too large a number of hops. -/
def manyHops : Environment :=
  .ofList [("GLUI_MAX_CHAIN_LENGTH", "99".toUTF8)]

/-- The listing of the kinds, with chains of three hops. -/
def kindsOfThree (config : Option String) : Invocation :=
  ⟨⟨config, none, none, some 3⟩, .kinds⟩

/-- With the file the mode is the one of the file, the number of hops is the one of the command
line, and the variable does no harm; without the file it does, though the command line has a number
of its own. -/
theorem session_from_sources_kindsOfThree :
    (∃ base : Source, base.OfFile flatOfEight "glui.yaml" ∧
      (Settings.ofSources [(kindsOfThree (some "glui.yaml")).source, base]).mode = .flat ∧
      (Settings.ofSources [(kindsOfThree (some "glui.yaml")).source, base]).maxHops = 3) ∧
    ∃ error, (kindsOfThree none).session flatOfEight manyHops =
      .error (.settings error) := by
  constructor
  · have hsettings : (kindsOfThree (some "glui.yaml")).settings flatOfEight manyHops =
        .ok ⟨none, none, .flat, 3⟩ := by
      decide +kernel
    have hsession : (kindsOfThree (some "glui.yaml")).session flatOfEight manyHops =
        .ok (.start .school .school 3 .flat) := by
      rw [Invocation.session, hsettings]
      rfl
    obtain ⟨base, settings, catalog, rules, hbase, -, rfl, -, -, -, hstart⟩ :=
      ((session_from_sources ..).1 _).1 hsession
    exact ⟨base, hbase, (congrArg Session.mode hstart).symm, (congrArg Session.maxHops hstart).symm⟩
  · have hbase : (kindsOfThree none).Base flatOfEight manyHops ⟨none, none, none, some 99⟩ :=
      (base_iff_ofEnvironment rfl _).2
        ⟨by decide +kernel, by decide +kernel, by decide +kernel, by decide +kernel⟩
    refine (session_from_sources (kindsOfThree none) flatOfEight manyHops).2.2.1
      (.outOfBounds _ hbase (by decide)) ?_ ?_
    · rintro ⟨-, h⟩
      exact absurd h (by decide +kernel)
    · rintro ⟨-, h⟩
      exact absurd h (by decide +kernel)

/-- A variable for the mode, whose value is a byte that no text begins with. -/
def strayMode : Environment :=
  .ofList [("GLUI_MODE", ⟨#[0xFF]⟩)]

/-- The mode of the environment cannot be read, and yet there is a session, in the mode that holds
when nothing is set, and a query is printed. -/
theorem session_despite_stray_mode :
    let arguments := ["compile", "--hop", "schools"]
    let invocation : Invocation :=
      ⟨⟨none, none, none, none⟩, .compile ⟨["schools"], [], []⟩⟩
    Invocation.parse? arguments = some invocation ∧
      invocation.BaseFault (.ofList []) strayMode ∧
      invocation.session (.ofList []) strayMode = .ok (.start .school .school 16 .nested) ∧
      Outcome.ofArguments arguments (.ofList []) strayMode (fun n => ⟨BitVec.ofNat 128 n⟩) =
        .printed "{schools {id name}}\n" := by
  intro arguments invocation
  have hsettings : invocation.settings (.ofList []) strayMode = .ok ⟨none, none, .nested, 16⟩ := by
    decide +kernel
  refine ⟨by decide +kernel, .variableMode rfl (.notText (by decide +kernel)), ?_,
    by decide +kernel⟩
  rw [Invocation.session, hsettings]
  rfl

end Invocation

end HopQuery
