import HopQuery.CommandLine.Arguments
import HopQuery.Session
import HopQuery.Settings.Basic

/-!
# Running a command

What a command prints, given the files, the environment and identifiers for new hops. The settings
of the command line are laid over those of the settings file, or of the environment without one.
The chain is built hop by hop; then fields are flipped and filters are set, in the order given.

* `CommandError`: why a command fails, with `CommandError.texts`;
* `HopReference.split`, `Assignment.split`: the arguments of `--exclude` and `--filter`;
* `Session.build`: the session with the chain that the options describe;
* `Invocation.settings`, `Invocation.run`: the settings of an invocation and what it prints.
-/

namespace HopQuery

/-- Why a command fails. -/
inductive CommandError
  /-- The settings cannot be had. -/
  | settings (error : SettingsError)
  /-- The number of hops is out of bounds once the command line is taken into account. -/
  | outOfBounds
  /-- The argument has no colon behind the number of a hop. -/
  | noHopNumber (argument : String)
  /-- What stands before the colon is no number. -/
  | badHopNumber (argument : String) (error : Text.NumeralError)
  /-- The chain has no hop of the number. -/
  | noSuchHop (number count : Nat)
  /-- The argument has no equals sign behind the name of a filter. -/
  | noAssignment (argument : String)
  /-- The chain cannot be changed. -/
  | chain (error : ChainError)
  /-- The chain has no query. -/
  | query (error : QueryError)
  deriving DecidableEq, Repr

namespace CommandError

/-- The wording of the error and of what lies behind it, with identifiers shown by `name`. -/
def texts (name : HopId → String) : CommandError → List String
  | .settings error => error.message :: error.cause?.toList
  | .outOfBounds => [SettingsError.boundsText]
  | .noHopNumber argument => [s!"expected `<hop>:...`, got `{argument}`"]
  | .badHopNumber argument error => [s!"invalid hop number in `{argument}`", error.message]
  | .noSuchHop number count => [s!"hop {number} out of range (chain has {count} hops)"]
  | .noAssignment argument => [s!"expected `<hop>:<filter>=<value>`, got `{argument}`"]
  | .chain error => [error.message name]
  | .query error => [error.message name]

/-- The line that tells of the error. -/
def line (name : HopId → String) (error : CommandError) : String :=
  "Error: " ++ ": ".intercalate (error.texts name)

end CommandError

/-- The text before the first character of that kind and the text after it. -/
def splitAtFirst (mark : Char) (text : String) : Option (String × String) :=
  let cs := text.toList
  match cs.dropWhile (· ≠ mark) with
  | [] => none
  | _ :: after => some (String.ofList (cs.takeWhile (· ≠ mark)), String.ofList after)

/-- The hop that an argument refers to, by its number from one on before the first colon, and the
text behind the colon. -/
def HopReference.split (ids : List HopId) (argument : String) :
    Except CommandError (HopId × String) :=
  match splitAtFirst ':' argument with
  | none => .error (.noHopNumber argument)
  | some (digits, rest) =>
    match Text.readNumeral digits with
    | .error error => .error (.badHopNumber argument error)
    | .ok 0 => .error (.noSuchHop 0 ids.length)
    | .ok (index + 1) =>
      match ids[index]? with
      | none => .error (.noSuchHop (index + 1) ids.length)
      | some id => .ok (id, rest)

/-- The hop, the filter and the value that an argument names: the value stands behind the first
equals sign after the first colon. -/
def Assignment.split (ids : List HopId) (argument : String) :
    Except CommandError (HopId × String × String) := do
  let (id, assignment) ← HopReference.split ids argument
  match splitAtFirst '=' assignment with
  | none => throw (.noAssignment argument)
  | some (filter, value) => return (id, filter, value)

namespace Session

/-- The session with hops of the kinds added, under the identifiers. -/
def addHops (s : Session) : List (String × HopId) → Except ChainError Session
  | [] => .ok s
  | (kind, id) :: rest => do
    let next ← s.addHop kind id
    next.addHops rest

/-- The session with the field flipped that the argument names. -/
def applyExclude (ids : List HopId) (s : Session) (argument : String) :
    Except CommandError Session := do
  let (id, field) ← HopReference.split ids argument
  (s.toggleField id field).mapError .chain

/-- The session with the filter set that the argument names. -/
def applyFilter (ids : List HopId) (s : Session) (argument : String) :
    Except CommandError Session := do
  let (id, filter, value) ← Assignment.split ids argument
  (s.setFilter id filter value).mapError .chain

/-- The session with the chain that the options describe. The hops get the identifiers from
`fresh` in order. -/
def build (s : Session) (fresh : Nat → HopId) (options : ChainOptions) :
    Except CommandError Session := do
  let ids := (List.range options.hops.length).map fresh
  let added ← (s.addHops (options.hops.zip ids)).mapError .chain
  let excluded ← options.excludes.foldlM (applyExclude ids) added
  options.filters.foldlM (applyFilter ids) excluded

end Session

/-- What becomes of any query when the response is in a file: the outcome of its text, or a
failure without one. -/
def Fetch.ofFile (files : Files) (name : String) : Fetch :=
  match files.text name with
  | .ok body => .ofBody body
  | .error _ => .failed

namespace Invocation

/-- The settings that the options are laid over: those of the settings file, or of the environment
without one. -/
def baseSettings (invocation : Invocation) (files : Files) (environment : Environment) :
    Except SettingsError Settings :=
  match invocation.options.config with
  | some name => Settings.ofFile files name
  | none => Settings.ofEnvironment environment

/-- The mode that the command asks for. -/
def mode? (invocation : Invocation) : Option ShapeMode :=
  match invocation.command with
  | .run _ _ mode => mode
  | _ => none

/-- The settings of the invocation. -/
def settings (invocation : Invocation) (files : Files) (environment : Environment) :
    Except CommandError Settings := do
  let base ← (invocation.baseSettings files environment).mapError .settings
  let merged := base.merge
    { catalogPath := invocation.options.catalog
      rulesPath := invocation.options.rules
      mode := invocation.mode?.getD base.mode
      maxHops := invocation.options.maxHops.getD base.maxHops }
  if merged.InBounds then return merged else throw .outOfBounds

/-- The session of the invocation, before its chain is built. -/
def session (invocation : Invocation) (files : Files) (environment : Environment) :
    Except CommandError Session := do
  let settings ← invocation.settings files environment
  let catalog ← (settings.loadCatalog files).mapError .settings
  let rules ← (settings.loadRules files).mapError .settings
  return .start catalog rules settings.maxHops settings.mode

/-- The lines about an entity. -/
def entityText (entity : Entity) : String :=
  entity.kind ++ "\n  fields:  " ++ " ".intercalate entity.fields ++ "\n  filters: " ++
    " ".intercalate entity.filters ++ "\n"

/-- What the invocation prints. -/
def run (invocation : Invocation) (files : Files) (environment : Environment)
    (fresh : Nat → HopId) : Except CommandError String := do
  let session ← invocation.session files environment
  match invocation.command with
  | .kinds => return String.join (session.catalog.toList.map entityText)
  | .compile chain =>
    let built ← session.build fresh chain
    let (query, _) ← built.search.mapError .query
    return query.text ++ "\n"
  | .run chain response _ =>
    let built ← session.build fresh chain
    let asked ← (built.run fun _ => .ofFile files response).mapError .query
    return match asked.render with
      | some view => view.text
      | none => ""

end Invocation

end HopQuery
