import HopQuery.Shape.Mode
import HopQuery.Yaml.Node

/-!
# Reading values out of documents

How the nodes of a document are taken for texts, numbers, lists and records. What a plain scalar
stands for depends on what is asked for: a text takes any scalar as it is written. At most a
hundred aliases per step of the document are followed, so that a short text cannot unfold into
long work.

* `Decoding`: the reading of a value;
* `Decoding.text`, `flag`, `count`, `mode`, `list`, `optional`, `pairs`: the values;
* `Document.decode?`, `decodeText?`: the value of a document and of a text.
-/

namespace HopQuery.Yaml

/-- The reading of a value: it may look at what aliases stand for, counts down the aliases that
may still be followed, and may fail. -/
abbrev Decoding (α : Type) := ReaderT (List (Nat × Node)) (StateT Nat Option) α

namespace Decoding

variable {α : Type}

/-- The node does not fit. -/
def fail : Decoding α :=
  fun _ _ => none

/-- The node itself, or the one that an alias stands for. -/
def follow : Node → Decoding Node
  | .alias anchor => fun anchored left =>
    match left, anchored.lookup anchor with
    | left + 1, some node => some (node, left)
    | _, _ => none
  | node => return node

/-- The value of an optional result. -/
def ofOption : Option α → Decoding α
  | none => fail
  | some value => return value

/-- Whether nothing is written in the place of the node. -/
def isBlankNode : Node → Bool
  | .void => true
  | .scalar style _ text => style == .plain && text == ""
  | _ => false

/-- The spellings of null. -/
def isNull (text : String) : Bool :=
  ["null", "Null", "NULL", "~"].contains text

/-- Whether a scalar may stand for a value of a core type: it is plain, or a literal block with
the tag of the type. -/
def mayStandFor (core : String) (style : ScalarStyle) (tag : Option Tag) : Bool :=
  style == .plain || (style == .literal && tag == some (.core core))

/-- A text: any scalar, as written. -/
def text (node : Node) : Decoding String := do
  match ← follow node with
  | .scalar _ _ text => return text
  | _ => fail

/-- The spellings of a truth value. -/
def flag? (text : String) : Option Bool :=
  if ["true", "True", "TRUE"].contains text then some true
  else if ["false", "False", "FALSE"].contains text then some false
  else none

/-- A truth value. -/
def flag (node : Node) : Decoding Bool := do
  match ← follow node with
  | .scalar style tag text => if mayStandFor "bool" style tag then ofOption (flag? text) else fail
  | _ => fail

/-- The number of digits in a base, below `2 ^ 64`; none without digits. -/
def numberInBase? (base : Nat) (digits : List Char) : Option Nat :=
  if digits.isEmpty then none
  else digits.foldlM (fun n c => do
    let digit ← Text.hexValue? c
    let next := n * base + digit
    if digit < base ∧ next < Nat.pow 2 64 then some next else none) 0

/-- A number: a plus sign if any, then digits in base sixteen, eight or two behind their mark, or
decimal digits that do not begin with a superfluous zero. -/
def count? (text : String) : Option Nat :=
  let unsigned := match text.toList with
    | '+' :: rest => rest
    | cs => cs
  match unsigned with
  | '0' :: 'x' :: digits => numberInBase? 16 digits
  | '0' :: 'o' :: digits => numberInBase? 8 digits
  | '0' :: 'b' :: digits => numberInBase? 2 digits
  | '0' :: _ :: _ => none
  | digits => numberInBase? 10 digits

/-- A number without sign. -/
def count (node : Node) : Decoding Nat := do
  match ← follow node with
  | .scalar style tag text => if mayStandFor "int" style tag then ofOption (count? text) else fail
  | _ => fail

/-- Whether a scalar is null or has nothing written in its place. -/
def isNothing (style : ScalarStyle) (text : String) : Bool :=
  style == .plain && (text == "" || isNull text)

/-- A shape mode: a scalar with its name, or nothing under a tag with its name. -/
def mode (node : Node) : Decoding ShapeMode := do
  match ← follow node with
  | .scalar style tag text =>
    match tag.bind Tag.localName? with
    | some name => if isNothing style text then ofOption (ShapeMode.ofName? name) else fail
    | none => ofOption (ShapeMode.ofName? text)
  | _ => fail

/-- The values of the items of a sequence; none where nothing is written. -/
def list (item : Node → Decoding α) (node : Node) : Decoding (List α) := do
  match ← follow node with
  | .sequence _ items => items.mapM item
  | other => if isBlankNode other then return [] else fail

/-- A value, or none where null or nothing is written. -/
def optional (value : Node → Decoding α) (node : Node) : Decoding (Option α) := do
  let target ← follow node
  match target with
  | .void => return none
  | .scalar .plain tag text =>
    match tag with
    | none => if isNothing .plain text then return none else return some (← value target)
    | some tag =>
      if tag ≠ .core "null" then return some (← value target)
      else if isNull text then return none
      else fail
  | _ => return some (← value target)

/-- The pairs of a mapping; none where nothing is written. -/
def pairs (node : Node) : Decoding (List (Node × Node)) := do
  match ← follow node with
  | .mapping _ pairs => return pairs
  | other => if isBlankNode other then return [] else fail

/-- A field of a record: the value of a key, which may come once. -/
def once (present : Option α) (value : Decoding α) : Decoding (Option α) :=
  match present with
  | some _ => fail
  | none => some <$> value

/-- A record whose fields are gathered from the pairs of a mapping, each by the text of its
key. -/
def record (start : α) (field : α → String → Node → Decoding α) (node : Node) : Decoding α := do
  (← pairs node).foldlM (fun gathered (key, value) => do
    let name ← text key
    field gathered name value) start

end Decoding

/-- The aliases that may be followed per step of a document. -/
def aliasesPerEvent : Nat := 100

/-- The value of a document. -/
def Document.decode? {α : Type} (document : Document) (value : Node → Decoding α) : Option α :=
  ((value document.root).run document.anchored |>.run (document.root.events * aliasesPerEvent)).map
    Prod.fst

/-- The value of a text that holds one document. -/
def decodeText? {α : Type} (text : String) (value : Node → Decoding α) : Option α := do
  let document ← Document.read? text
  document.decode? value

end HopQuery.Yaml
