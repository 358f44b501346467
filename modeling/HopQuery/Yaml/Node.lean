import HopQuery.Yaml.Token

/-!
# Nodes

A YAML document as a tree of scalars, sequences and mappings. A node may carry an anchor, and an
alias stands for the node of its anchor. What an alias stands for is settled at the end of the
document: anchors are numbered by how many names there are when they come, and the last node with
a number is the one that is meant.

* `Node`: the tree, with `Node.events`, the number of steps that describe it;
* `Anchors`, `Building`: what is known of anchors while a tree is built;
* `Node.build`: the tree that a row of tokens begins with;
* `Document`, `Document.read?`: the only document of a text.
-/

namespace HopQuery.Yaml

/-- A node of a document. -/
inductive Node
  /-- The place of a document that has none. -/
  | void
  | scalar (style : ScalarStyle) (tag : Option Tag) (text : String)
  | sequence (tag : Option Tag) (items : List Node)
  | mapping (tag : Option Tag) (pairs : List (Node × Node))
  /-- The node of the anchor with the number. -/
  | alias (anchor : Nat)

namespace Node

mutual

/-- The number of steps that describe the node: one for a leaf, two around a collection. -/
def events : Node → Nat
  | .sequence _ items => itemsEvents items + 2
  | .mapping _ pairs => pairsEvents pairs + 2
  | _ => 1

/-- The number of steps that describe the items. -/
def itemsEvents : List Node → Nat
  | [] => 0
  | item :: rest => item.events + itemsEvents rest

/-- The number of steps that describe the pairs. -/
def pairsEvents : List (Node × Node) → Nat
  | [] => 0
  | (key, value) :: rest => key.events + value.events + pairsEvents rest

end

/-- The scalar that stands where nothing is written. -/
def blank : Node :=
  .scalar .plain none ""

end Node

/-- What is known of anchors while a tree is built. -/
structure Anchors where
  /-- The names with their numbers, the latest first. -/
  names : List (String × Nat)
  /-- The numbers, each with the place in the document of a node that carries it, the latest
  first. -/
  places : List (Nat × Nat)
  /-- The places with their nodes. -/
  nodes : List (Nat × Node)
  /-- The next place. -/
  next : Nat

/-- The construction of a part of a tree. -/
abbrev Building := StateT Anchors Option

namespace Building

/-- Gives up. -/
def fail {α : Type} : Building α :=
  fun _ => none

/-- The number of a name that has come before. -/
def anchorNumber (name : String) : Building Nat :=
  fun anchors => (anchors.names.lookup name).map (·, anchors)

/-- Registers the name of an anchor, and gives the place of the node that carries it. A new name
gets as its number how many names there are, and so does a name that comes again. -/
def register (name : String) : Building Nat :=
  fun anchors =>
    let number := anchors.names.length
    let others := anchors.names.filter (fun entry => entry.1 ≠ name)
    some (anchors.next,
      { anchors with
        names := (name, number) :: others
        places := (number, anchors.next) :: anchors.places
        next := anchors.next + 1 })

/-- Notes the node at a place. -/
def settle (place : Option Nat) (node : Node) : Building Node :=
  fun anchors =>
    match place with
    | none => some (node, anchors)
    | some place => some (node, { anchors with nodes := (place, node) :: anchors.nodes })

end Building

namespace Node

/-- The handles of tags with what they stand for. -/
abbrev Handles := List (String × Tag)

/-- The handles that need no directive. -/
def defaultHandles : Handles :=
  [("!", .lone), ("!!", .core "")]

/-- The tag with the handle replaced by what it stands for; a tag without handle is whole. -/
def resolveTag (handles : Handles) (handle : String) (suffix : Tag) : Building Tag :=
  if handle = "" then return suffix
  else match handles.lookup handle with
    | none => Building.fail
    | some stem => return stem.append suffix

/-- The anchor and the tag before a node, in either order. -/
def properties (handles : Handles) :
    List Token → Building (Option String × Option Tag × List Token)
  | .anchor name :: .tag handle suffix :: rest => do
    return (some name, some (← resolveTag handles handle suffix), rest)
  | .tag handle suffix :: .anchor name :: rest => do
    return (some name, some (← resolveTag handles handle suffix), rest)
  | .anchor name :: rest => return (some name, none, rest)
  | .tag handle suffix :: rest => do
    return (none, some (← resolveTag handles handle suffix), rest)
  | tokens => return (none, none, tokens)

/-- Whether the row begins with one of the tokens or is at its end. -/
def beginsWith (tokens : List Token) : List Token → Bool
  | [] => false
  | token :: _ => tokens.contains token

mutual

/-- The node that a row of tokens begins with, and the tokens after it. Only in a block may it be
a block itself, and only where `dashes` says so may it be a sequence that is not indented. -/
def build (handles : Handles) (inBlock dashes : Bool) :
    Nat → List Token → Building (Node × List Token)
  | 0, _ => Building.fail
  | _ + 1, .alias name :: rest => do
    return (.alias (← Building.anchorNumber name), rest)
  | fuel + 1, tokens => do
    let (anchor, tag, content) ← properties handles tokens
    let enter : Building (Option Nat) := match anchor with
      | none => pure none
      | some name => some <$> Building.register name
    match content with
    | .scalar style text :: rest =>
      let place ← enter
      return (← Building.settle place (.scalar style tag text), rest)
    | .flowSequenceStart :: rest =>
      let place ← enter
      let (items, after) ← flowItems handles true fuel rest
      return (← Building.settle place (.sequence tag items), after)
    | .flowMappingStart :: rest =>
      let place ← enter
      let (pairs, after) ← flowPairs handles true fuel rest
      return (← Building.settle place (.mapping tag pairs), after)
    | .blockEntry :: rest =>
      if !dashes then nothing anchor tag content
      else
        let place ← enter
        let (items, after) ← dashItems handles fuel (.blockEntry :: rest)
        return (← Building.settle place (.sequence tag items), after)
    | .blockSequenceStart :: rest =>
      if !inBlock then nothing anchor tag content
      else
        let place ← enter
        let (items, after) ← blockItems handles fuel rest
        return (← Building.settle place (.sequence tag items), after)
    | .blockMappingStart :: rest =>
      if !inBlock then nothing anchor tag content
      else
        let place ← enter
        let (pairs, after) ← blockPairs handles fuel rest
        return (← Building.settle place (.mapping tag pairs), after)
    | _ => nothing anchor tag content

/-- The node where none is written: an empty scalar if an anchor or a tag stands there. -/
def nothing (anchor : Option String) (tag : Option Tag) (content : List Token) :
    Building (Node × List Token) := do
  match anchor, tag with
  | none, none => Building.fail
  | none, some _ => return (.scalar .plain tag "", content)
  | some name, _ =>
    let place ← Building.register name
    return (← Building.settle (some place) (.scalar .plain tag ""), content)

/-- The node before one of the tokens: an empty scalar if that token comes at once. -/
def buildBefore (handles : Handles) (inBlock dashes : Bool) (stops : List Token) :
    Nat → List Token → Building (Node × List Token)
  | 0, _ => Building.fail
  | fuel + 1, tokens =>
    if beginsWith stops tokens then return (blank, tokens)
    else build handles inBlock dashes fuel tokens

/-- The items of an indented sequence. -/
def blockItems (handles : Handles) : Nat → List Token → Building (List Node × List Token)
  | fuel + 1, .blockEntry :: rest => do
    let (item, after) ← buildBefore handles true false [.blockEntry, .blockEnd] fuel rest
    let (items, last) ← blockItems handles fuel after
    return (item :: items, last)
  | _ + 1, .blockEnd :: rest => return ([], rest)
  | _, _ => Building.fail

/-- The items of a sequence that is indented no more than the mapping around it. -/
def dashItems (handles : Handles) : Nat → List Token → Building (List Node × List Token)
  | fuel + 1, .blockEntry :: rest => do
    let (item, after) ←
      buildBefore handles true false [.blockEntry, .key, .value, .blockEnd] fuel rest
    let (items, last) ← dashItems handles fuel after
    return (item :: items, last)
  | _, tokens => return ([], tokens)

/-- The pairs of an indented mapping. -/
def blockPairs (handles : Handles) : Nat → List Token → Building (List (Node × Node) × List Token)
  | fuel + 1, .key :: rest => do
    let (key, after) ← buildBefore handles true true [.key, .value, .blockEnd] fuel rest
    let (value, below) ← blockValue handles fuel after
    let (pairs, last) ← blockPairs handles fuel below
    return ((key, value) :: pairs, last)
  | _ + 1, .blockEnd :: rest => return ([], rest)
  | _, _ => Building.fail

/-- The value behind a key of an indented mapping; an empty scalar without a colon. -/
def blockValue (handles : Handles) : Nat → List Token → Building (Node × List Token)
  | fuel + 1, .value :: rest => buildBefore handles true true [.key, .value, .blockEnd] fuel rest
  | _, tokens => return (blank, tokens)

/-- The items up to the closing bracket; those after the first one follow a comma. -/
def flowItems (handles : Handles) (first : Bool) :
    Nat → List Token → Building (List Node × List Token)
  | 0, _ => Building.fail
  | _ + 1, .flowSequenceEnd :: rest => return ([], rest)
  | fuel + 1, tokens => do
    let content ← match first, tokens with
      | true, _ => pure tokens
      | false, .flowEntry :: rest => pure rest
      | false, _ => Building.fail
    match content with
    | .flowSequenceEnd :: rest => return ([], rest)
    | .key :: rest =>
      let (pair, after) ← flowItemPair handles fuel rest
      let (items, last) ← flowItems handles false fuel after
      return (.mapping none [pair] :: items, last)
    | _ =>
      let (item, after) ← build handles false false fuel content
      let (items, last) ← flowItems handles false fuel after
      return (item :: items, last)

/-- An item that is a single pair, behind the mark of its key. A token that stands in place of the
key is passed over with it. -/
def flowItemPair (handles : Handles) : Nat → List Token → Building ((Node × Node) × List Token)
  | 0, _ => Building.fail
  | fuel + 1, tokens => do
    let (key, after) ←
      if beginsWith [.value, .flowEntry, .flowSequenceEnd] tokens then
        pure (blank, tokens.drop 1)
      else build handles false false fuel tokens
    let (value, last) ← flowValue handles [.flowEntry, .flowSequenceEnd] fuel after
    return ((key, value), last)

/-- The value behind a key between brackets or braces; an empty scalar without a colon. -/
def flowValue (handles : Handles) (stops : List Token) :
    Nat → List Token → Building (Node × List Token)
  | fuel + 1, .value :: rest => buildBefore handles false false stops fuel rest
  | _, tokens => return (blank, tokens)

/-- The pairs up to the closing brace; those after the first one follow a comma. A node without
the mark of a key is a key without value. -/
def flowPairs (handles : Handles) (first : Bool) :
    Nat → List Token → Building (List (Node × Node) × List Token)
  | 0, _ => Building.fail
  | _ + 1, .flowMappingEnd :: rest => return ([], rest)
  | fuel + 1, tokens => do
    let content ← match first, tokens with
      | true, _ => pure tokens
      | false, .flowEntry :: rest => pure rest
      | false, _ => Building.fail
    match content with
    | .flowMappingEnd :: rest => return ([], rest)
    | .key :: rest =>
      let (key, after) ←
        buildBefore handles false false [.value, .flowEntry, .flowMappingEnd] fuel rest
      let (value, below) ← flowValue handles [.flowEntry, .flowMappingEnd] fuel after
      let (pairs, last) ← flowPairs handles false fuel below
      return ((key, value) :: pairs, last)
    | _ =>
      let (key, after) ← build handles false false fuel content
      let (pairs, last) ← flowPairs handles false fuel after
      return ((key, blank) :: pairs, last)

end

end Node

/-- A document: its tree, and what its aliases stand for. -/
structure Document where
  root : Node
  /-- The numbers of anchors with their nodes. -/
  anchored : List (Nat × Node)

namespace Document

/-- The directives before a document, and the tokens after them. A document has one version at
most, which has to be 1.1 or 1.2, and no handle is given twice. -/
def directives? (version : Bool) (handles : Node.Handles) :
    List Token → Option (Node.Handles × List Token)
  | .version major minor :: rest =>
    if version || major ≠ 1 || (minor ≠ 1 && minor ≠ 2) then none
    else directives? true handles rest
  | .tagHandle handle stem :: rest =>
    if (handles.lookup handle).isSome then none
    else directives? version ((handle, stem) :: handles) rest
  | tokens => some (handles, tokens)

/-- Whether the token ends the content of a document. -/
def endsContent : Token → Bool
  | .version _ _ => true
  | .tagHandle _ _ => true
  | .documentStart => true
  | .documentEnd => true
  | _ => false

/-- Builds the content of a document. -/
def content (handles : Node.Handles) (tokens : List Token) : Building (Node × List Token) :=
  match tokens with
  | [] => return (.blank, [])
  | token :: _ =>
    if endsContent token then return (.blank, tokens)
    else Node.build handles true false (4 * tokens.length + 4) tokens

/-- Builds the first document of a text; a text without tokens has a void one. -/
def first (tokens : List Token) : Building (Node × List Token) :=
  match tokens with
  | [] => return (.void, [])
  | token :: _ =>
    if endsContent token && token != .documentEnd then
      match directives? false [] tokens with
      | some (handles, .documentStart :: rest) =>
        let missing := Node.defaultHandles.filter (fun entry => (handles.lookup entry.1).isNone)
        content (handles ++ missing) rest
      | _ => Building.fail
    else Node.build Node.defaultHandles true false (4 * tokens.length + 4) tokens

/-- The only document of a row of tokens. Marks of a document's end may follow it, nothing else. -/
def ofTokens? (tokens : List Token) : Option Document := do
  let ((root, rest), anchors) ← (first tokens).run ⟨[], [], [], 0⟩
  if !rest.all (· == .documentEnd) then none
  let anchored := anchors.places.filterMap (fun (number, place) =>
    (anchors.nodes.lookup place).map (number, ·))
  return ⟨root, anchored⟩

/-- The only document of a text. -/
def read? (text : String) : Option Document := do
  let row ← Spot.ofText? text
  let tokens ← Token.ofRow? row
  ofTokens? tokens

end Document

end HopQuery.Yaml
