import HopQuery.Json.Value
import HopQuery.Text.Hex

/-!
# Writing JSON

The compact text of a value, without spaces, members in their order. In strings the quote, the
backslash and the characters below `U+0020` are escaped, nothing else.

* `Json.text`: the text of a value;
* `Json.canonicalText`: the same with the members of each object sorted by name, so that two
  values share it exactly when they differ in the order of members only.
-/

namespace HopQuery.Json

/-- How one character is written in a string. -/
def charText (c : Char) : List Char :=
  if c = '"' then ['\\', '"']
  else if c = '\\' then ['\\', '\\']
  else if c = '\x08' then ['\\', 'b']
  else if c = '\x0C' then ['\\', 'f']
  else if c = '\n' then ['\\', 'n']
  else if c = '\r' then ['\\', 'r']
  else if c = '\t' then ['\\', 't']
  else if c.toNat < 0x20 then ['\\', 'u', '0', '0', Text.hexLower (c.toNat / 16), Text.hexLower c.toNat]
  else [c]

/-- How a string is written. -/
def stringText (s : String) : List Char :=
  '"' :: s.toList.flatMap charText ++ ['"']

/-- How a number is written. -/
def Number.text : Number → String
  | .whole n => toString n
  | .real x => x.text

/-- Texts with a comma between each two. -/
def commaSeparated : List (List Char) → List Char
  | [] => []
  | [text] => text
  | text :: rest => text ++ ',' :: commaSeparated rest

/-- How a value without parts is written. -/
def scalarText : Json → List Char
  | .null => "null".toList
  | .bool true => "true".toList
  | .bool false => "false".toList
  | .number n => n.text.toList
  | .string s => stringText s
  | .array _ => []
  | .object _ => []

/-- How an array of written items is written. -/
def arrayText (items : List (List Char)) : List Char :=
  '[' :: commaSeparated items ++ [']']

/-- How an object is written, given the names and the written values of its members. -/
def objectText (members : List (String × List Char)) : List Char :=
  '\x7b' :: commaSeparated (members.map (fun (name, value) => stringText name ++ ':' :: value)) ++
    ['\x7d']

mutual

/-- The characters of the compact text. -/
def write : Json → List Char
  | .array items => arrayText (writeItems items)
  | .object members => objectText (writeMembers members)
  | scalar => scalarText scalar

/-- The compact texts of the items. -/
def writeItems : List Json → List (List Char)
  | [] => []
  | item :: rest => write item :: writeItems rest

/-- The names of the members with the compact texts of their values. -/
def writeMembers : List (String × Json) → List (String × List Char)
  | [] => []
  | (name, value) :: rest => (name, write value) :: writeMembers rest

end

/-- The compact text of a value. -/
def text (value : Json) : String :=
  String.ofList (write value)

/-- Members in the order of their names, by code points. -/
def sortMembers (members : List (String × List Char)) : List (String × List Char) :=
  members.mergeSort (fun a b => decide (a.1 ≤ b.1))

mutual

/-- The characters of the canonical text. -/
def canonical : Json → List Char
  | .array items => arrayText (canonicalItems items)
  | .object members => objectText (sortMembers (canonicalMembers members))
  | scalar => scalarText scalar

/-- The canonical texts of the items. -/
def canonicalItems : List Json → List (List Char)
  | [] => []
  | item :: rest => canonical item :: canonicalItems rest

/-- The names of the members with the canonical texts of their values. -/
def canonicalMembers : List (String × Json) → List (String × List Char)
  | [] => []
  | (name, value) :: rest => (name, canonical value) :: canonicalMembers rest

end

/-- The text of a value with the members of each object sorted by name. -/
def canonicalText (value : Json) : String :=
  String.ofList (canonical value)

end HopQuery.Json
