import HopQuery.Decimal.Shortest
import HopQuery.Table

/-!
# JSON values

Values as responses hold them. A whole number that fits in 64 bits, with a sign or without, stays
a whole number; every other number is held in double precision. The members of an object keep the
order in which their names first came, and no name occurs twice in a value that was read.

* `Json.Number`, `Json`: the data;
* `Json.get?`: the member of an object;
* `Json.WellFormed`: no object has a name twice;
* `Json.same`: deep equality, which does not look at the order of members.
-/

namespace HopQuery

/-- A number of a JSON value. -/
inductive Json.Number
  /-- A whole number from `-2 ^ 63` to `2 ^ 64 - 1`. -/
  | whole (n : Int)
  /-- Any other number. -/
  | real (x : Binary64)
  deriving DecidableEq

/-- A JSON value. -/
inductive Json
  | null
  | bool (b : Bool)
  | number (n : Json.Number)
  | string (s : String)
  | array (items : List Json)
  | object (members : List (String × Json))

namespace Json

/-- The member of the name, if the value is an object that has one. -/
def get? (name : String) : Json → Option Json
  | .object members => Table.lookup name members
  | _ => none

/-- Whether the value is an object. -/
def isObject : Json → Bool
  | .object _ => true
  | _ => false

/-- Whether two numbers are equal: whole numbers by value and real ones by value, a whole number
never with a real one. -/
def Number.same : Number → Number → Bool
  | .whole a, .whole b => a == b
  | .real x, .real y => x.sameNumber y
  | _, _ => false

mutual

/-- No object in the value has a name twice. -/
def WellFormed : Json → Prop
  | .array items => ItemsWellFormed items
  | .object members => (members.map Prod.fst).Nodup ∧ MembersWellFormed members
  | _ => True

/-- No object in any of the items has a name twice. -/
def ItemsWellFormed : List Json → Prop
  | [] => True
  | item :: rest => WellFormed item ∧ ItemsWellFormed rest

/-- No object in the value of any of the members has a name twice. -/
def MembersWellFormed : List (String × Json) → Prop
  | [] => True
  | (_, value) :: rest => WellFormed value ∧ MembersWellFormed rest

end

mutual

/-- Deep equality: arrays item by item, objects as maps from names to values. -/
def same : Json → Json → Bool
  | .null, .null => true
  | .bool a, .bool b => a == b
  | .number a, .number b => a.same b
  | .string a, .string b => a == b
  | .array a, .array b => sameItems a b
  | .object a, .object b => a.length == b.length && sameMembers a b
  | _, _ => false

/-- Deep equality of items, one by one. -/
def sameItems : List Json → List Json → Bool
  | [], [] => true
  | a :: restA, b :: restB => same a b && sameItems restA restB
  | _, _ => false

/-- Whether each of the members on the left has an equal value under its name on the right. -/
def sameMembers : List (String × Json) → List (String × Json) → Bool
  | [], _ => true
  | (name, value) :: rest, others =>
    (match Table.lookup name others with
      | some other => same value other
      | none => false) && sameMembers rest others

end

end Json

end HopQuery
