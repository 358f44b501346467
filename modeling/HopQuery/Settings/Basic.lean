import HopQuery.Catalog.Reading
import HopQuery.Settings.Files
import HopQuery.Text.Numeral

/-!
# Settings

Where the catalog and the renaming rules are found, the shape mode to start with, and how many
hops a chain may hold. Settings come from environment variables or from a file, and those of the
command line are laid over them.

* `Environment`, `Environment.text`: variables, and their texts as far as they have one, with
  `Environment.text?_erase`;
* `Settings`, `SettingsError`: the data and what can be wrong with them;
* `Settings.check`: the bounds of the number of hops;
* `Settings.ofEnvironment`, `Settings.ofFile`: the two sources;
* `Settings.merge`: one setting over another;
* `Settings.loadCatalog`, `Settings.loadRules`: what the paths lead to.
-/

namespace HopQuery

/-! ### Variables -/

/-- Variables with their values. A value is bytes, which need not be a text; a variable whose name
is no text is left out, as nothing asks for it. -/
abbrev Environment := Table String ByteArray

/-- Why a variable has no text. -/
inductive VariableError
  /-- There is no variable of the name. -/
  | notSet
  /-- The value is no text. -/
  | notText
  deriving DecidableEq, Repr

/-- The text of a variable. -/
def Environment.text (environment : Environment) (name : String) : Except VariableError String :=
  match environment.get? name with
  | none => .error .notSet
  | some value =>
    match String.fromUTF8? value with
    | none => .error .notText
    | some text => .ok text

/-- The text of a variable, if it has one, whatever the reason is why it may have none. -/
def Environment.text? (environment : Environment) (name : String) : Option String :=
  (environment.text name).toOption

theorem Environment.text?_eq_some_iff {environment : Environment} {name text : String} :
    environment.text? name = some text ↔ environment.text name = .ok text := by
  unfold text?
  cases environment.text name <;> simp [Except.toOption]

/-- A variable whose value is no text may as well not be there. -/
theorem Environment.text?_erase {environment : Environment} {name : String}
    (h : environment.text name = .error .notText) (other : String) :
    Environment.text? (environment.erase name) other = environment.text? other := by
  by_cases hother : name = other
  · subst hother
    rw [text?, text?, h, text, Table.get?_erase, if_pos rfl]
    rfl
  · simp only [text?, text, Table.get?_erase, if_neg hother]

/-! ### The data -/

/-- The settings of a run. -/
structure Settings where
  /-- The file of the catalog; the school catalog is used without one. -/
  catalogPath : Option String
  /-- The file of the renaming rules that are laid over those of the school catalog. -/
  rulesPath : Option String
  /-- The mode in which a session starts. -/
  mode : ShapeMode
  /-- The number of hops that a chain may hold. -/
  maxHops : Nat
  deriving DecidableEq, Repr

/-- What can be wrong with settings. -/
inductive SettingsError
  /-- The variable names no mode. -/
  | badMode (name : String) (error : ShapeModeError)
  /-- The value of the variable is no number. -/
  | badNumber (name value : String) (error : Text.NumeralError)
  /-- The file cannot be read. -/
  | unreadable (error : FileError)
  /-- The text of the file holds no settings. -/
  | malformed
  /-- The number of hops is out of bounds. -/
  | outOfBounds
  /-- The catalog or the rules cannot be had. -/
  | catalog (error : CatalogError)
  deriving DecidableEq, Repr

namespace SettingsError

/-- What is said of a number of hops that is out of bounds. -/
def boundsText : String :=
  "max_chain_length: Max chain length must be between 1 and 64"

/-- The wording of what lies behind the error, if anything does. -/
def cause? : SettingsError → Option String
  | .badMode _ error => some error.message
  | .badNumber _ _ error => some error.message
  | .unreadable error => some error.message
  | .malformed => none
  | .outOfBounds => some boundsText
  | .catalog _ => none

/-- The wording of a settings error. -/
def message : SettingsError → String
  | .badMode name error => s!"Parse error for {name}: {error.text} - {error.message}"
  | .badNumber name value error => s!"Parse error for {name}: {value} - {error.message}"
  | .unreadable error => s!"Parse error for yaml_file: file read failed - {error.message}"
  | .malformed => "Parse error for yaml_content"
  | .outOfBounds => s!"Validation error: {boundsText}"
  | .catalog error => error.message

end SettingsError

namespace Settings

/-- The mode when none is set. -/
def standardMode : ShapeMode := .nested

/-- The number of hops when none is set. -/
def standardMaxHops : Nat := 16

/-- The settings when nothing is set. -/
def standard : Settings :=
  ⟨none, none, standardMode, standardMaxHops⟩

/-- The number of hops is from one to this. -/
def largestMaxHops : Nat := 64

/-- Whether the number of hops is within its bounds. -/
def InBounds (settings : Settings) : Prop :=
  1 ≤ settings.maxHops ∧ settings.maxHops ≤ largestMaxHops

instance (settings : Settings) : Decidable settings.InBounds :=
  inferInstanceAs (Decidable (_ ∧ _))

/-- The settings, if the number of hops is within its bounds. -/
def check (settings : Settings) : Except SettingsError Settings :=
  if settings.InBounds then .ok settings else .error .outOfBounds

/-- The settings with the others laid over them: a path only if there is one, mode and number of
hops always. -/
def merge (settings others : Settings) : Settings where
  catalogPath := others.catalogPath.or settings.catalogPath
  rulesPath := others.rulesPath.or settings.rulesPath
  mode := others.mode
  maxHops := others.maxHops

/-! ### Sources -/

/-- What is read from the text of a variable, or from the standard text where it has none: it may
not be set, or its value may be no text. -/
def ofVariable {ε α : Type} (environment : Environment) (name standard : String)
    (read : String → Except ε α) (wrong : String → ε → SettingsError) : Except SettingsError α :=
  let value := (environment.text? name).getD standard
  (read value).mapError (wrong value)

/-- The settings of the environment. -/
def ofEnvironment (environment : Environment) : Except SettingsError Settings := do
  let mode ← ofVariable environment "GLUI_MODE" "nested" ShapeMode.read
    fun _ => .badMode "GLUI_MODE"
  let maxHops ← ofVariable environment "GLUI_MAX_CHAIN_LENGTH" "16" Text.readNumeral
    (.badNumber "GLUI_MAX_CHAIN_LENGTH")
  check
    { catalogPath := environment.text? "GLUI_CATALOG"
      rulesPath := environment.text? "GLUI_SANITIZER_RULES"
      mode := mode
      maxHops := maxHops }

/-- Settings of which some have been read. -/
structure PartialSettings where
  catalogPath : Option (Option String)
  rulesPath : Option (Option String)
  mode : Option ShapeMode
  maxHops : Option Nat

/-- The partial settings with one more read. -/
def PartialSettings.field (settings : PartialSettings) (name : String) (value : Yaml.Node) :
    Yaml.Decoding PartialSettings :=
  match name with
  | "catalog_path" => do
    let path ← Yaml.Decoding.once settings.catalogPath
      (Yaml.Decoding.optional Yaml.Decoding.text value)
    return { settings with catalogPath := path }
  | "sanitizer_rules_path" => do
    let path ← Yaml.Decoding.once settings.rulesPath
      (Yaml.Decoding.optional Yaml.Decoding.text value)
    return { settings with rulesPath := path }
  | "default_mode" => do
    let mode ← Yaml.Decoding.once settings.mode (Yaml.Decoding.mode value)
    return { settings with mode := mode }
  | "max_chain_length" => do
    let maxHops ← Yaml.Decoding.once settings.maxHops (Yaml.Decoding.count value)
    return { settings with maxHops := maxHops }
  | _ => return settings

/-- The settings that were read, the others as when nothing is set. -/
def PartialSettings.complete (settings : PartialSettings) : Settings where
  catalogPath := settings.catalogPath.getD none
  rulesPath := settings.rulesPath.getD none
  mode := settings.mode.getD standardMode
  maxHops := settings.maxHops.getD standardMaxHops

/-- Reads settings. -/
def decode (node : Yaml.Node) : Yaml.Decoding Settings := do
  let settings ← Yaml.Decoding.record ⟨none, none, none, none⟩ PartialSettings.field node
  return settings.complete

/-- The settings of a file. -/
def ofFile (files : Files) (name : String) : Except SettingsError Settings := do
  let text ← (files.text name).mapError .unreadable
  match Yaml.decodeText? text decode with
  | some settings => check settings
  | none => throw .malformed

/-! ### What the paths lead to -/

/-- The text of a file that describes names. -/
def describedText (files : Files) (path : String) : Except CatalogError String :=
  (files.text path).mapError (fun error => .unreadable (path ++ ": " ++ error.message))

/-- The catalog of a file. -/
def catalogOfFile (files : Files) (path : String) : Except CatalogError Catalog := do
  let text ← describedText files path
  let listing ← Listing.read text
  listing.toCatalog

/-- The rules of a file. -/
def rulesOfFile (files : Files) (path : String) : Except CatalogError Rules := do
  let text ← describedText files path
  Rules.read text

/-- The catalog of the settings. -/
def loadCatalog (settings : Settings) (files : Files) : Except SettingsError Catalog :=
  match settings.catalogPath with
  | none => .ok .school
  | some path => (catalogOfFile files path).mapError .catalog

/-- The rules of the settings: those of the school catalog, with those of the file over them. -/
def loadRules (settings : Settings) (files : Files) : Except SettingsError Rules :=
  match settings.rulesPath with
  | none => .ok .school
  | some path => ((rulesOfFile files path).map Rules.school.extend).mapError .catalog

end Settings

end HopQuery
