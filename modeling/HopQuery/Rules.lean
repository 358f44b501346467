import HopQuery.Table

/-!
# Renaming rules

The type that is written for a hop can depend on the hop before it: a relation to one entity is
named in the singular although the kind is plural. The rules tell, for a preceding type and a
kind, the type to write; without a rule the kind stands for itself.

* `Rules`: the table;
* `Rules.insert`, `Rules.extend`: adding a rule and laying one table over another;
* `Rules.resolve`: the type to write;
* `Rules.school`: the rules of the school catalog.
-/

namespace HopQuery

/-- For a preceding type and a kind, the type to write. -/
structure Rules where
  /-- The preceding types, each with its table from kinds to types. -/
  byPrevious : Table String (Table String String)
  deriving DecidableEq

namespace Rules

/-- No rules. -/
def empty : Rules :=
  ⟨.empty⟩

/-- The table from kinds to types after the preceding type. -/
def after (rules : Rules) (previous : String) : Table String String :=
  (rules.byPrevious.get? previous).getD .empty

/-- The rule for the kind after the preceding type. -/
def get? (rules : Rules) (previous current : String) : Option String :=
  (rules.after previous).get? current

/-- The rules with one more, in place of an earlier one for the same pair. -/
def insert (rules : Rules) (previous current resolved : String) : Rules :=
  ⟨rules.byPrevious.insert previous ((rules.after previous).insert current resolved)⟩

/-- The rules of `upper` laid over those of `lower`: entry by entry, not table by table. -/
def extend (lower upper : Rules) : Rules :=
  upper.byPrevious.entries.foldl
    (fun rules (previous, table) =>
      ⟨rules.byPrevious.insert previous
        (table.entries.foldl (fun under (current, resolved) => under.insert current resolved)
          (rules.after previous))⟩)
    lower

/-- The type to write for the kind after the preceding type. -/
def resolve (rules : Rules) (previous current : String) : String :=
  (rules.get? previous current).getD current

/-- The rules of the school catalog: a school after students or groups is one school. -/
def school : Rules :=
  ["student", "students", "group", "groups"].foldl
    (fun rules previous => rules.insert previous "schools" "school") empty

end Rules

end HopQuery
