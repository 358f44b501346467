import HopQuery.CommandLine.Run
import HopQuery.Settings.Assignments

/-!
# Outcomes of a command line

A whole command line, from its arguments to what it prints. Before all else the file `.env` that is
the nearest, from the working directory upwards, gives values to variables that have no text.

* `Outcome`: what becomes of a command line;
* `Outcome.ofArguments`: the outcome of the arguments;
* `Invocation.filesNeeded`: the files that it looks at.
-/

namespace HopQuery

/-- What becomes of a command line. -/
inductive Outcome
  /-- The command has printed the text. -/
  | printed (text : String)
  /-- The command has failed, and has printed nothing. -/
  | failed (error : CommandError)
  /-- The arguments are refused. -/
  | refused
  deriving DecidableEq, Repr

/-- The name of the file of assignments. -/
def assignmentsFile : String := ".env"

/-- The environment with the assignments of their file, if there is one in the working directory or
in one above it. -/
def Files.environment (files : Files) (environment : Environment) : Environment :=
  match files.nearest? assignmentsFile with
  | some bytes => environment.withAssignments bytes
  | none => environment

/-- The outcome of the arguments. -/
def Outcome.ofArguments (arguments : List String) (files : Files) (environment : Environment)
    (fresh : Nat → HopId) : Outcome :=
  match Invocation.parse? arguments with
  | none => .refused
  | some invocation =>
    match invocation.run files (files.environment environment) fresh with
    | .ok text => .printed text
    | .error error => .failed error

/-- The files that the invocation looks at, as far as the files that are known tell. -/
def Invocation.filesNeeded (invocation : Invocation) (files : Files) (environment : Environment) :
    List String :=
  let response := match invocation.command with
    | .run _ response _ => [response]
    | _ => []
  let described := match invocation.settings files (files.environment environment) with
    | .ok settings => settings.catalogPath.toList ++ settings.rulesPath.toList
    | .error _ => []
  files.upward assignmentsFile ++ invocation.options.config.toList ++ response ++ described

end HopQuery
