import HopQuery.Yaml.Scalar
import HopQuery.Yaml.Tag

/-!
# Tokens

A YAML text as a row of tokens. Blocks have no brackets of their own: their start and end follow
from the indentation. That a scalar is a key is known only from the colon behind it, so a place
where a key may begin is remembered, and the tokens for the key and for the start of its mapping
are put in at that place when the colon comes.

* `Token`: the tokens;
* `Scan`: what is known at a place of the text, with the changes of it;
* `Token.ofRow?`: the tokens of a text.
-/

namespace HopQuery.Yaml

/-- The ways to write a scalar. -/
inductive ScalarStyle
  | plain
  | singleQuoted
  | doubleQuoted
  | literal
  | folded
  deriving DecidableEq, Repr

/-- A token of a YAML text. -/
inductive Token
  | version (major minor : Nat)
  | tagHandle (handle : String) (stem : Tag)
  | documentStart
  | documentEnd
  | blockSequenceStart
  | blockMappingStart
  | blockEnd
  | flowSequenceStart
  | flowSequenceEnd
  | flowMappingStart
  | flowMappingEnd
  | blockEntry
  | flowEntry
  | key
  | value
  | alias (name : String)
  | anchor (name : String)
  | tag (handle : String) (suffix : Tag)
  | scalar (style : ScalarStyle) (text : String)
  deriving DecidableEq, Repr

/-- A place where a key may begin. -/
structure KeyPlace where
  /-- Whether nothing but a key can stand there. -/
  required : Bool
  /-- The number of tokens before it. -/
  tokensBefore : Nat
  line : Nat
  column : Nat
  index : Nat

/-- What is known at a place of the text. -/
structure Scan where
  /-- The tokens so far. -/
  tokens : Array Token
  /-- The column of the innermost block, -1 outside of all. -/
  indent : Int
  /-- The columns of the blocks around it. -/
  outer : List Int
  /-- Whether a key may begin here. -/
  keyAllowed : Bool
  /-- The place of a possible key on each level of brackets, the innermost level first. -/
  keys : List (Option KeyPlace)

namespace Scan

/-- The start of a text. -/
def start : Scan :=
  ⟨#[], -1, [], true, [none]⟩

/-- Whether the place is inside of brackets or braces. -/
def inFlow (scan : Scan) : Bool :=
  1 < scan.keys.length

/-- One more token. -/
def push (scan : Scan) (token : Token) : Scan :=
  { scan with tokens := scan.tokens.push token }

/-- A token put in after the first `place` tokens. -/
def putAt (scan : Scan) (place : Nat) (token : Token) : Scan :=
  let tokens := scan.tokens
  { scan with tokens := (tokens.extract 0 place).push token ++ tokens.extract place tokens.size }

/-- Allows or forbids a key to begin next. -/
def allowKey (scan : Scan) (allowed : Bool) : Scan :=
  { scan with keyAllowed := allowed }

/-- A key takes at most this many bytes. -/
def keyLimit : Nat := 1024

/-- Whether the key that may begin at the place cannot reach as far as here. -/
def isStale (here : Spot) (place : KeyPlace) : Bool :=
  place.line < here.line || place.index + keyLimit < here.index

/-- Forgets the places whose keys would be too long or go over a line; an error if one is
required. -/
def dropStaleKeys? (scan : Scan) (here : Spot) : Option Scan := do
  let keys ← scan.keys.mapM (fun key => match key with
    | none => some none
    | some place =>
      if isStale here place then (if place.required then none else some none) else some key)
  return { scan with keys := keys }

/-- Forgets the innermost place of a possible key; an error if it is required. -/
def dropKey? (scan : Scan) : Option Scan :=
  match scan.keys with
  | some place :: rest => if place.required then none else some { scan with keys := none :: rest }
  | _ => some scan

/-- Remembers that a key may begin here, if one is allowed. -/
def saveKey? (scan : Scan) (here : Spot) : Option Scan :=
  if scan.keyAllowed then do
    let place : KeyPlace :=
      { required := !scan.inFlow && scan.indent == here.column
        tokensBefore := scan.tokens.size
        line := here.line
        column := here.column
        index := here.index }
    let dropped ← scan.dropKey?
    return { dropped with keys := some place :: dropped.keys.tail }
  else some scan

/-- Ends the blocks that are indented by more than the column. -/
def closeBlocks (scan : Scan) (column : Int) : Scan :=
  if scan.inFlow then scan
  else
    let columns := scan.indent :: scan.outer
    let closed := columns.takeWhile (column < ·)
    let ends := List.replicate closed.length Token.blockEnd
    match columns.drop closed.length with
    | [] => { scan with tokens := scan.tokens ++ ends, indent := -1, outer := [] }
    | indent :: outer =>
      { scan with tokens := scan.tokens ++ ends, indent := indent, outer := outer }

/-- Begins a block at the column if that is more than the present indentation; the token goes
after the first `place` tokens. -/
def openBlockAt (scan : Scan) (column : Nat) (place : Nat) (token : Token) : Scan :=
  if !scan.inFlow && scan.indent < column then
    { scan.putAt place token with indent := column, outer := scan.indent :: scan.outer }
  else scan

/-- Begins a block here. -/
def openBlock (scan : Scan) (here : Spot) (token : Token) : Scan :=
  scan.openBlockAt here.column scan.tokens.size token

/-- Ends all blocks before a directive, the mark of a document or the end of the text. -/
def closeAll? (scan : Scan) : Option Scan := do
  let closed ← (scan.closeBlocks (-1)).dropKey?
  return closed.allowKey false

/-- Goes into brackets or braces. -/
def openFlow? (scan : Scan) (here : Spot) (token : Token) : Option Scan := do
  let saved ← scan.saveKey? here
  return { saved with keys := none :: saved.keys, keyAllowed := true }.push token

/-- Comes out of brackets or braces. -/
def closeFlow? (scan : Scan) (token : Token) : Option Scan := do
  let dropped ← scan.dropKey?
  let keys := if dropped.inFlow then dropped.keys.tail else dropped.keys
  return { dropped with keys := keys, keyAllowed := false }.push token

/-- A comma. -/
def flowEntry? (scan : Scan) : Option Scan := do
  let dropped ← scan.dropKey?
  return (dropped.allowKey true).push .flowEntry

/-- The dash before an item. -/
def blockEntry? (scan : Scan) (here : Spot) : Option Scan := do
  if !scan.inFlow && !scan.keyAllowed then none
  let dropped ← (scan.openBlock here .blockSequenceStart).dropKey?
  return (dropped.allowKey true).push .blockEntry

/-- The question mark before a key. -/
def key? (scan : Scan) (here : Spot) : Option Scan := do
  if !scan.inFlow && !scan.keyAllowed then none
  let dropped ← (scan.openBlock here .blockMappingStart).dropKey?
  return (dropped.allowKey (!dropped.inFlow)).push .key

/-- The colon before a value: behind a possible key it makes it one. -/
def value? (scan : Scan) (here : Spot) : Option Scan :=
  match scan.keys with
  | some place :: rest =>
    let keyed := { scan with keys := none :: rest }.putAt place.tokensBefore .key
    let opened := keyed.openBlockAt place.column place.tokensBefore .blockMappingStart
    some ((opened.allowKey false).push .value)
  | _ =>
    if !scan.inFlow && !scan.keyAllowed then none
    else some (((scan.openBlock here .blockMappingStart).allowKey (!scan.inFlow)).push .value)

end Scan

namespace Token

/-! ### Tags, anchors and directives -/

/-- The tag that the row begins with: in angle brackets, with a handle of its own, or with the
handle of one mark. A lone mark is a tag by itself. -/
def tag? (inFlow : Bool) (row : List Spot) : Option (Token × List Spot) := do
  let (token, after) ← match row with
    | mark :: bracket :: rest =>
      if bracket.char = '<' then do
        let (whole, after) ← Tag.suffix? true [] rest
        if Spot.headChar after ≠ '>' then none
        some (Token.tag "" whole, after.drop 1)
      else do
        let (handle, below) ← Tag.handle? (mark :: bracket :: rest)
        if handle.length > 1 ∧ handle.getLast? = some '!' then
          let (suffix, after) ← Tag.suffix? false [] below
          some (Token.tag (String.ofList handle) suffix, after)
        else
          let (suffix, after) ← Tag.suffix? false handle below
          if suffix.bytes.isEmpty then some (Token.tag "" .lone, after)
          else some (Token.tag "!" suffix, after)
    | _ => none
  let next := Spot.headChar after
  if endsWord next || (inFlow && next == ',') then some (token, after) else none

/-- The characters that may follow an anchor or alias directly. -/
def endsAnchor (c : Char) : Bool :=
  endsWord c || "?:,]\x7d%@`".toList.contains c

/-- The name of the anchor or alias whose mark stands before the row. -/
def anchorName? (row : List Spot) : Option (String × List Spot) :=
  let (name, after) := Spot.span isWordChar row
  if name.isEmpty || !endsAnchor (Spot.headChar after) then none
  else some (String.ofList name, after)

/-- A number of a version, of nine digits at most. -/
def versionNumber? (row : List Spot) : Option (Nat × List Spot) :=
  let (digits, after) := Spot.span Char.isDigit row
  if digits.isEmpty || 9 < digits.length then none
  else some (digits.foldl (fun n c => n * 10 + (c.toNat - 0x30)) 0, after)

/-- The directive whose mark stands before the row. -/
def directive? (row : List Spot) : Option (Token × List Spot) := do
  let (name, after) := Spot.span isWordChar row
  if !endsWord (Spot.headChar after) then none
  let below := Spot.skipBlanks after
  let (token, last) ←
    if name = "YAML".toList then do
      let (major, point) ← versionNumber? below
      if Spot.headChar point ≠ '.' then none
      let (minor, last) ← versionNumber? (point.drop 1)
      some (Token.version major minor, last)
    else if name = "TAG".toList then do
      let (handle, gap) ← Tag.handle? below
      if handle.length > 1 ∧ handle.getLast? ≠ some '!' then none
      if !isBlank (Spot.headChar gap) then none
      let (stem, last) ← Tag.suffix? true [] (Spot.skipBlanks gap)
      if !endsWord (Spot.headChar last) then none
      some (Token.tagHandle (String.ofList handle) stem, last)
    else none
  let next ← Spot.finishLine? last
  return (token, next)

/-! ### The row of tokens -/

/-- Passes blanks, comments and line breaks. Tabs count as blanks inside of brackets or where no
key may begin. Outside of brackets a line break allows a key. -/
def skipToToken (inFlow : Bool) (comment keyAllowed : Bool) : List Spot → Bool × List Spot
  | [] => (keyAllowed, [])
  | s :: rest =>
    if isBreak s.char then skipToToken inFlow false (keyAllowed || !inFlow) rest
    else if comment && !isEnd s.char then skipToToken inFlow true keyAllowed rest
    else if s.char == byteOrderMark && s.column == 0 then skipToToken inFlow false keyAllowed rest
    else if s.char == ' ' || ((inFlow || !keyAllowed) && s.char == '\t') then
      skipToToken inFlow false keyAllowed rest
    else if s.char == '#' then skipToToken inFlow true keyAllowed rest
    else (keyAllowed, s :: rest)

/-- The characters with which no plain scalar begins. -/
def isIndicator (c : Char) : Bool :=
  "-?:,[]\x7b\x7d#&*!|>'\"%@`".toList.contains c

/-- Whether a plain scalar begins with the character, given the next one. -/
def beginsPlain (inFlow : Bool) (c next : Char) : Bool :=
  !(endsWord c || isIndicator c) || (c == '-' && !isBlank next) ||
    (!inFlow && (c == '?' || c == ':') && !endsWord next)

/-- One more token, for a scalar. -/
def pushScalar (scan : Scan) (style : ScalarStyle) (text : List Char) : Scan :=
  scan.push (.scalar style (String.ofList text))

/-- Reads the token that begins at the head of the row, where `scan` is what is known there. -/
def step? (scan : Scan) (here : Spot) (rest : List Spot) : Option (Scan × List Spot) :=
  let row := here :: rest
  let c := here.char
  let next := Spot.headChar rest
  let inFlow := scan.inFlow
  let mark (token : Token) : Option (Scan × List Spot) := do
    let closed ← scan.closeAll?
    return (closed.push token, rest.drop 2)
  let saved : Option Scan := (scan.saveKey? here).map (·.allowKey false)
  if here.column = 0 && c == '%' then do
    let closed ← scan.closeAll?
    let (token, after) ← directive? rest
    return (closed.push token, after)
  else if here.column = 0 && Spot.beginsWithThree '-' row then mark .documentStart
  else if here.column = 0 && Spot.beginsWithThree '.' row then mark .documentEnd
  else if c == '[' then (scan.openFlow? here .flowSequenceStart).map (·, rest)
  else if c == '\x7b' then (scan.openFlow? here .flowMappingStart).map (·, rest)
  else if c == ']' then (scan.closeFlow? .flowSequenceEnd).map (·, rest)
  else if c == '\x7d' then (scan.closeFlow? .flowMappingEnd).map (·, rest)
  else if c == ',' then scan.flowEntry?.map (·, rest)
  else if c == '-' && endsWord next then (scan.blockEntry? here).map (·, rest)
  else if c == '?' && (inFlow || endsWord next) then (scan.key? here).map (·, rest)
  else if c == ':' && (inFlow || endsWord next) then (scan.value? here).map (·, rest)
  else if c == '*' then do
    let (name, after) ← anchorName? rest
    return ((← saved).push (.alias name), after)
  else if c == '&' then do
    let (name, after) ← anchorName? rest
    return ((← saved).push (.anchor name), after)
  else if c == '!' then do
    let (token, after) ← tag? inFlow row
    return ((← saved).push token, after)
  else if (c == '|' || c == '>') && !inFlow then do
    let literal := c == '|'
    let dropped ← scan.dropKey?
    let (text, after) ← block? literal scan.indent rest
    let style := if literal then ScalarStyle.literal else .folded
    return (pushScalar (dropped.allowKey true) style text, after)
  else if c == '\'' || c == '"' then do
    let single := c == '\''
    let (text, after) ← quoted? single rest
    let style := if single then ScalarStyle.singleQuoted else .doubleQuoted
    return (pushScalar (← saved) style text, after)
  else if beginsPlain inFlow c next then do
    let (text, afterBreak, after) ← plain? inFlow (scan.indent + 1) row
    return (pushScalar ((← saved).allowKey afterBreak) .plain text, after)
  else none

/-- Reads the tokens of the row, at most `fuel` of them. -/
def scanRow? : Nat → Scan → List Spot → Option (List Token)
  | 0, _, _ => none
  | fuel + 1, scan, row => do
    let (keyAllowed, after) := skipToToken scan.inFlow false scan.keyAllowed row
    match after with
    | [] => none
    | here :: rest =>
      let fresh ← (scan.allowKey keyAllowed).dropStaleKeys? here
      let scan := fresh.closeBlocks here.column
      if isEnd here.char then
        let closed ← scan.closeAll?
        return closed.tokens.toList
      else
        let (next, below) ← step? scan here rest
        scanRow? fuel next below

/-- The tokens of a row. Each takes one character at least. -/
def ofRow? (row : List Spot) : Option (List Token) :=
  scanRow? (row.length + 1) .start row

end Token

end HopQuery.Yaml
