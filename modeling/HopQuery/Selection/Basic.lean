import HopQuery.Text.Literal

/-!
# Selections

A query is one selection inside another, one level per hop. A level names a type, the arguments
that filter it and the fields that are selected; the next level stands after the fields.

* `Level`, `Selection`: the data;
* `Selection.ofLevels?`, `Selection.levels`: a selection as the list of its levels;
* `Selection.text`, `Selection.document`: how it is written.
-/

namespace HopQuery

/-- One level of a selection. -/
structure Level where
  typeName : String
  /-- The names of the arguments with their values, in order. -/
  arguments : List (String × String)
  /-- The selected fields, in order. -/
  fields : List String
  deriving DecidableEq, Repr

/-- Nested levels, at least one. -/
inductive Selection
  /-- The level that has none inside it. -/
  | innermost (level : Level)
  /-- A level around a selection. -/
  | around (level : Level) (inner : Selection)
  deriving DecidableEq, Repr

namespace Selection

/-- The levels, outermost first. -/
def levels : Selection → List Level
  | .innermost level => [level]
  | .around level inner => level :: inner.levels

/-- The number of levels. -/
def depth : Selection → Nat
  | .innermost _ => 1
  | .around _ inner => inner.depth + 1

/-- The selection with the given levels, outermost first. -/
def ofLevels? : List Level → Option Selection
  | [] => none
  | level :: rest =>
    match ofLevels? rest with
    | none => some (.innermost level)
    | some inner => some (.around level inner)

/-- How an argument is written: its name, and its value as a literal. -/
def argumentText (argument : String × String) : String :=
  argument.1 ++ ": " ++ Text.quote argument.2

/-- How the head of a level is written: the type, then the arguments in parentheses if any. -/
def headText (level : Level) : String :=
  if level.arguments.isEmpty then level.typeName
  else level.typeName ++ "(" ++ ", ".intercalate (level.arguments.map argumentText) ++ ")"

/-- How a level is written, given the texts of what is selected in it. -/
def bodyText (level : Level) (selected : List String) : String :=
  headText level ++ " \x7b" ++ " ".intercalate selected ++ "\x7d"

/-- How a selection is written: the next level follows the fields. -/
def text : Selection → String
  | .innermost level => bodyText level level.fields
  | .around level inner => bodyText level (level.fields ++ [inner.text])

/-- How the whole query is written. -/
def document (selection : Selection) : String :=
  "\x7b" ++ selection.text ++ "\x7d"

end Selection

end HopQuery
