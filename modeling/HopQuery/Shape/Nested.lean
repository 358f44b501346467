import HopQuery.Json.Writer

/-!
# Nested items

The nested view of a response shows the data as they are: each object is an item, its scalar
members are leaves and its other members are branches with items of their own. An element that is
no object is an item with one leaf without a key.

* `NestedEntry`, `NestedItem`: the data of the view;
* `NestedItem.ofCollection`: the items of a value;
* `NestedItem.text`: the lines of an item.
-/

namespace HopQuery

/-- One entry of an item. The items of a branch are lists of entries themselves. -/
inductive NestedEntry
  | leaf (key value : String)
  | branch (key : String) (items : List (List NestedEntry))

/-- What is shown of one element of a collection. -/
abbrev NestedItem := List NestedEntry

namespace NestedItem

/-- The member that tells the type of an object. It is not shown. -/
def typeMember : String := "__typename"

/-- The text of a leaf: a string stands for itself, all else is written as JSON. -/
def leafText : Json → String
  | .string s => s
  | value => value.text

mutual

/-- The items of the elements. -/
def ofElements : List Json → List NestedItem
  | [] => []
  | element :: rest => ofElement element :: ofElements rest

/-- The item of an element. -/
def ofElement : Json → NestedItem
  | .object members => ofMembers members
  | value => [.leaf "" (leafText value)]

/-- The entries of the members that are shown. -/
def ofMembers : List (String × Json) → List NestedEntry
  | [] => []
  | (name, value) :: rest =>
    if name = typeMember then ofMembers rest else ofMember name value :: ofMembers rest

/-- The entry of a member: a branch for an array or an object, a leaf otherwise. -/
def ofMember (name : String) : Json → NestedEntry
  | .array items => .branch name (ofElements items)
  | .object members => .branch name [ofMembers members]
  | value => .leaf name (leafText value)

end

/-- The items of a value; one that is no array counts as a collection of one. -/
def ofCollection : Json → List NestedItem
  | .array items => ofElements items
  | value => [ofElement value]

/-- Stands behind the key of a branch. -/
def more : String := "More"

/-- Two spaces per enclosing branch. -/
def indentation (depth : Nat) : String :=
  String.ofList (List.replicate (2 * depth) ' ')

mutual

/-- The lines of an entry inside `depth` branches. -/
def entryText (depth : Nat) : NestedEntry → String
  | .leaf key value =>
    if key = "" then indentation depth ++ value ++ "\n"
    else indentation depth ++ key ++ " - " ++ value ++ "\n"
  | .branch key items =>
    indentation depth ++ key ++ " (" ++ more ++ ")\n" ++ itemsText (depth + 1) items

/-- The lines of the entries, one after the other. -/
def entriesText (depth : Nat) : List NestedEntry → String
  | [] => ""
  | entry :: rest => entryText depth entry ++ entriesText depth rest

/-- The lines of the items, one after the other. -/
def itemsText (depth : Nat) : List (List NestedEntry) → String
  | [] => ""
  | item :: rest => entriesText depth item ++ itemsText depth rest

end

/-- The lines of an item. -/
def text (item : NestedItem) : String :=
  entriesText 0 item

end NestedItem

end HopQuery
