import HopQuery.Catalog.Basic
import HopQuery.Chain.Path
import HopQuery.Json.Writer
import Std.Data.HashSet

/-!
# Flat lists

The flat view of a response follows the path from the root down to the last hop and lists what it
finds there, each value once.

* `rootElements`: where the walk starts;
* `Path.walk`: one step down per type, spreading the lists of collection kinds;
* `dedupe`: the first of each row of equal values;
* `Path.leaves`: the three together;
* `FlatEntry`, `FlatEntry.ofJson`: how a found value is shown.
-/

namespace HopQuery

/-- The elements of the root: the items of an array, or one lone value; none without a value. -/
def rootElements : Option Json → List Json
  | some (.array items) => items
  | some .null => []
  | none => []
  | some value => [value]

/-- What a value holds under a type: nothing if the member is missing or null, the items of an
array if the type names a collection, otherwise the member itself. -/
def Json.project (collection : Bool) (typeName : String) (value : Json) : List Json :=
  match value.get? typeName with
  | none => []
  | some .null => []
  | some (.array items) => if collection then items else [.array items]
  | some member => [member]

/-- Goes down from the elements, one step per segment. -/
def walk (catalog : Catalog) (elements : List Json) (segments : List Segment) : List Json :=
  segments.foldl
    (fun working segment =>
      working.flatMap (Json.project (catalog.isCollection segment.typeName) segment.typeName))
    elements

/-- The values whose canonical texts are neither in the set nor among those before them. -/
def dedupeBeyond (seen : Std.HashSet String) : List Json → List Json
  | [] => []
  | value :: rest =>
    let key := value.canonicalText
    if seen.contains key then dedupeBeyond seen rest
    else value :: dedupeBeyond (seen.insert key) rest

/-- The first of each row of values with one canonical text, in order. -/
def dedupe (values : List Json) : List Json :=
  dedupeBeyond ∅ values

/-- What the path leads to in the data, each value once. -/
def Path.leaves (path : Path) (catalog : Catalog) (data : Json) : List Json :=
  match path.segments with
  | [] => []
  | root :: rest => dedupe (walk catalog (rootElements (data.get? root.typeName)) rest)

/-- One entry of a flat list. -/
structure FlatEntry where
  primary : String
  secondary : String
  deriving DecidableEq, Repr

namespace FlatEntry

/-- Stands below an entry of which nothing more is known. -/
def noAdditionalInfo : String := "no additional info"

/-- The text of a value that has one: null and the empty string have none, other strings stand
for themselves. -/
def text? : Json → Option String
  | .null => none
  | .string s => if s = "" then none else some s
  | value => some value.text

/-- The text of a member. -/
def memberText? (value : Json) (name : String) : Option String :=
  (value.get? name).bind text?

/-- The entry of a value: an object is named by its name or else its user name, with first and
last name below; any other value is its own name. -/
def ofJson (value : Json) : FlatEntry :=
  if value.isObject then
    let primary := (memberText? value "name").orElse fun _ => memberText? value "userName"
    let parts := ["firstName", "lastName"].filterMap (memberText? value)
    { primary := primary.getD ""
      secondary := if parts.isEmpty then noAdditionalInfo else " ".intercalate parts }
  else
    { primary := (text? value).getD "", secondary := noAdditionalInfo }

/-- The two lines of an entry. -/
def text (entry : FlatEntry) : String :=
  entry.primary ++ "\n  " ++ entry.secondary

end FlatEntry

end HopQuery
