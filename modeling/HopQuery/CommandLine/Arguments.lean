import HopQuery.Shape.Mode
import HopQuery.Text.Numeral

/-!
# Arguments

The grammar of the command line: options that hold for every command, one of three commands, and
the options of the command. The value of an option stands behind an equals sign or is the next
argument, which then begins with no dash unless it is a lone dash. An option that is not a list
may come once on each side of the command; if it comes on both, the one behind the command counts.

* `CommonOptions`, `ChainOptions`, `Command`, `Invocation`: what a command line says;
* `Invocation.parse?`: the reading of the arguments, `none` if they are refused.
-/

namespace HopQuery

/-- The options that hold for every command. -/
structure CommonOptions where
  /-- The file of the settings. -/
  config : Option String
  /-- The file of the catalog. -/
  catalog : Option String
  /-- The file of the renaming rules. -/
  rules : Option String
  /-- The number of hops that a chain may hold. -/
  maxHops : Option Nat
  deriving DecidableEq, Repr

/-- The options that describe a chain. -/
structure ChainOptions where
  /-- The kinds of the hops, outermost first. -/
  hops : List String
  /-- The fields to leave out, each behind the number of its hop. -/
  excludes : List String
  /-- The filters to set, each behind the number of its hop and before its value. -/
  filters : List String
  deriving DecidableEq, Repr

/-- What is to be done. -/
inductive Command
  /-- List the kinds of the catalog. -/
  | kinds
  /-- Print the query of a chain. -/
  | compile (chain : ChainOptions)
  /-- Print the view of the response in a file, in the mode if one is given. -/
  | run (chain : ChainOptions) (response : String) (mode : Option ShapeMode)
  deriving DecidableEq, Repr

/-- What a command line says. -/
structure Invocation where
  options : CommonOptions
  command : Command
  deriving DecidableEq, Repr

/-- The names of the options. -/
inductive OptionName
  | config
  | catalog
  | rules
  | maxHops
  | hop
  | exclude
  | filter
  | response
  | mode
  deriving DecidableEq, Repr

namespace OptionName

/-- How the name of an option is written. -/
def text : OptionName → String
  | .config => "--config"
  | .catalog => "--catalog"
  | .rules => "--rules"
  | .maxHops => "--max-chain-length"
  | .hop => "--hop"
  | .exclude => "--exclude"
  | .filter => "--filter"
  | .response => "--response"
  | .mode => "--mode"

/-- The options that hold for every command. -/
def common : List OptionName :=
  [.config, .catalog, .rules, .maxHops]

/-- The options that describe a chain. -/
def chain : List OptionName :=
  [.hop, .exclude, .filter]

/-- Whether the option is a list of all its values. -/
def isList : OptionName → Bool
  | .hop => true
  | .exclude => true
  | .filter => true
  | _ => false

/-- Whether the option takes the value: files have a name, numbers and modes are readable. -/
def accepts (name : OptionName) (value : String) : Bool :=
  match name with
  | .config => value ≠ ""
  | .catalog => value ≠ ""
  | .rules => value ≠ ""
  | .response => value ≠ ""
  | .maxHops => (Text.readNumeral value).toOption.isSome
  | .mode => (ShapeMode.read value).toOption.isSome
  | .hop => true
  | .exclude => true
  | .filter => true

end OptionName

/-- Options with their values, in order. -/
abbrev Given := List (OptionName × String)

namespace Given

/-- All values of an option. -/
def values (given : Given) (name : OptionName) : List String :=
  given.filterMap (fun (option, value) => if option = name then some value else none)

/-- The value of an option that comes once. -/
def value? (given : Given) (name : OptionName) : Option String :=
  given.lookup name

/-- Whether no option but a list comes twice, and each takes its value. -/
def isSound (given : Given) : Bool :=
  given.all (fun (name, value) =>
    (name.isList || (given.values name).length == 1) && name.accepts value)

/-- The options that hold for every command, with those of the others before them. -/
def commonOptions (given before : Given) : CommonOptions where
  config := (given.value? .config).or (before.value? .config)
  catalog := (given.value? .catalog).or (before.value? .catalog)
  rules := (given.value? .rules).or (before.value? .rules)
  maxHops := ((given.value? .maxHops).or (before.value? .maxHops)).bind
    (fun text => (Text.readNumeral text).toOption)

/-- The options that describe a chain, which has a hop at least. -/
def chainOptions? (given : Given) : Option ChainOptions :=
  let hops := given.values .hop
  if hops.isEmpty then none else some ⟨hops, given.values .exclude, given.values .filter⟩

end Given

namespace Invocation

/-- Whether an argument can be the value of the option before it. -/
def isValue (argument : String) : Bool :=
  !argument.startsWith "-" || argument == "-"

/-- The name of an option and the value behind its equals sign. -/
def splitOption (argument : String) : String × Option String :=
  let cs := argument.toList
  match cs.dropWhile (· ≠ '=') with
  | [] => (argument, none)
  | _ :: value => (String.ofList (cs.takeWhile (· ≠ '=')), some (String.ofList value))

/-- The option with the name, among those that are allowed. -/
def option? (allowed : List OptionName) (text : String) : Option OptionName :=
  allowed.find? (·.text == text)

/-- Reads options up to the first argument that is none, which is given back with what follows. -/
def options? (allowed : List OptionName) : List String → Option (Given × List String)
  | [] => some ([], [])
  | argument :: rest =>
    if argument == "--" || isValue argument then some ([], argument :: rest)
    else
      let (text, attached) := splitOption argument
      match option? allowed text, attached, rest with
      | some name, some value, rest => do
        let (given, after) ← options? allowed rest
        return ((name, value) :: given, after)
      | some name, none, value :: rest =>
        if isValue value then do
          let (given, after) ← options? allowed rest
          return ((name, value) :: given, after)
        else none
      | _, _, _ => none

/-- The options of a command: nothing but a lone double dash may follow them. -/
def commandOptions? (allowed : List OptionName) (arguments : List String) : Option Given := do
  let (given, rest) ← options? (OptionName.common ++ allowed) arguments
  if (rest = [] || rest = ["--"]) && given.isSound then some given else none

/-- The command of the name, and its options. -/
def command? (name : String) (arguments : List String) : Option (Command × Given) :=
  match name with
  | "kinds" => (commandOptions? [] arguments).map (.kinds, ·)
  | "compile" => do
    let given ← commandOptions? OptionName.chain arguments
    return (.compile (← given.chainOptions?), given)
  | "run" => do
    let given ← commandOptions? (OptionName.chain ++ [.response, .mode]) arguments
    let mode := (given.value? .mode).bind (fun text => (ShapeMode.read text).toOption)
    return (.run (← given.chainOptions?) (← given.value? .response) mode, given)
  | _ => none

/-- What the arguments say. -/
def parse? (arguments : List String) : Option Invocation := do
  let (before, rest) ← options? OptionName.common arguments
  match rest with
  | [] => none
  | name :: commandArguments =>
    let (command, given) ← command? name commandArguments
    if before.isSound then some ⟨given.commonOptions before, command⟩ else none

end Invocation

end HopQuery
