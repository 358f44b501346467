import HopQuery.Settings.Basic
import HopQuery.Text.Alphanumeric
import HopQuery.Text.Blank

/-!
# Files of assignments

A file of lines `KEY=VALUE` gives values to variables that have no text. A line may begin with
`export`; a value may be quoted, go over several lines within its quotes, refer to variables by
`$`, and be followed by a comment behind a space. The first line that cannot be read ends the
reading, and the lines before it count.

* `Assignments.lines`: the lines of a file, with those joined that belong together;
* `Assignments.value?`: the value behind an equals sign;
* `Assignments.behind?`, `Assignments.lookup`: what a reference stands for;
* `Environment.withAssignments`: the variables after the file has been read.
-/

namespace HopQuery

namespace Assignments

/-! ### Lines -/

/-- Where a character stands in a line, as far as the end of the line is concerned. -/
inductive Position
  | outside
  /-- Behind one blank. -/
  | blank
  | escaped
  | strong
  | strongEscaped
  | weak
  | weakEscaped
  deriving DecidableEq

/-- The position behind a character outside of quotes. -/
def Position.opened (c : Char) : Position :=
  if c = '\\' then .escaped else if c = '"' then .weak else if c = '\'' then .strong else .outside

/-- The position behind a character. -/
def Position.after (c : Char) : Position → Position
  | .outside => if Text.isBlank c && c ≠ '\n' && c ≠ '\r' then .blank else .opened c
  | .blank => .opened c
  | .escaped => .outside
  | .strong => if c = '\\' then .strongEscaped else if c = '\'' then .outside else .strong
  | .strongEscaped => .strong
  | .weak => if c = '\\' then .weakEscaped else if c = '"' then .outside else .weak
  | .weakEscaped => .weak

/-- Follows a line from a position: the position at its end, or the characters before a comment. -/
def follow (position : Position) (passed : List Char) : List Char → Position ⊕ List Char
  | [] => .inl position
  | c :: rest =>
    if position = .blank ∧ c = '#' then .inr passed.reverse
    else follow (position.after c) (c :: passed) rest

/-- The text without the line break at its end. -/
def withoutBreak (text : List Char) : List Char :=
  match text.reverse with
  | '\n' :: '\r' :: rest => rest.reverse
  | '\n' :: rest => rest.reverse
  | _ => text

/-- The lines of a file, from its physical lines with their line breaks, where `none` stands for
one that is no text. Physical lines are joined until quotes are closed; `none` stands for a line
that never ends well, behind which nothing is read. -/
def joined (before : List Char) (position : Position) :
    List (Option (List Char)) → List (Option (List Char))
  | [] => if position = .outside then [] else [none]
  | none :: _ => [none]
  | some line :: rest =>
    let text := before ++ line
    if (Text.trimStart text).head? = some '#' then joined [] .outside rest
    else match follow position [] line with
      | .inr passed => some (before ++ passed) :: joined [] .outside rest
      | .inl .outside => some (withoutBreak text) :: joined [] .outside rest
      | .inl unfinished => joined text unfinished rest

/-- Splits bytes behind each line feed. -/
def physicalLines (line : List UInt8) : List UInt8 → List (List UInt8)
  | [] => if line.isEmpty then [] else [line.reverse]
  | byte :: rest =>
    if byte = 0x0A then (byte :: line).reverse :: physicalLines [] rest
    else physicalLines (byte :: line) rest

/-- The bytes without a byte order mark at their start. -/
def withoutMark : List UInt8 → List UInt8
  | 0xEF :: 0xBB :: 0xBF :: rest => rest
  | bytes => bytes

/-- The lines of a file. -/
def lines (bytes : ByteArray) : List (Option (List Char)) :=
  let physical := physicalLines [] (withoutMark bytes.toList)
  joined [] .outside <| physical.map fun line =>
    (String.fromUTF8? ⟨line.toArray⟩).map String.toList

/-! ### Values -/

/-- A reference to a variable that is being read, its name in reverse. -/
inductive Reference
  | none
  | bare (reversed : List Char)
  | braced (reversed : List Char)
  deriving DecidableEq

/-- A value that is being read. -/
structure Reading where
  reversed : List Char
  strong : Bool
  weak : Bool
  escaped : Bool
  /-- Whether only blanks and a comment may follow. -/
  ended : Bool
  reference : Reference

/-- One more character. -/
def Reading.push (reading : Reading) (c : Char) : Reading :=
  { reading with reversed := c :: reading.reversed }

/-- The value of the variable in place of the reference to it. -/
def Reading.refer (reading : Reading) (valueOf : String → String) (name : List Char) : Reading :=
  let value := (valueOf (String.ofList name.reverse)).toList
  { reading with reversed := value.reverse ++ reading.reversed, reference := .none }

/-- The character of an escape. -/
def escape? (c : Char) : Option Char :=
  if c = 'n' then some '\n' else if "\\'\"$ ".toList.contains c then some c else none

/-- The reading with one more character outside of references, escapes and strong quotes. -/
def Reading.plain (reading : Reading) (c : Char) : Reading :=
  if c = '$' then { reading with reference := .bare [] }
  else if c = '\\' then { reading with escaped := true }
  else if reading.weak then if c = '"' then { reading with weak := false } else reading.push c
  else if c = '\'' then { reading with strong := true }
  else if c = '"' then { reading with weak := true }
  else if c = ' ' || c = '\t' then { reading with ended := true }
  else reading.push c

/-- The reading with one more character inside of a reference. A bare name goes on as long as
letters and numbers come; the character that ends it stands for itself, even if it is a quote. -/
def Reading.inReference (reading : Reading) (valueOf : String → String) (c : Char) : Reading :=
  match reading.reference with
  | .none => reading
  | .bare name =>
    if Text.isAlphanumeric c then { reading with reference := .bare (c :: name) }
    else if c = '\x7b' ∧ name.isEmpty then { reading with reference := .braced [] }
    else
      let referred := reading.refer valueOf name
      if c = '$' then { referred with reference := .bare [] } else referred.push c
  | .braced name =>
    if c = '\x7d' then reading.refer valueOf name
    else { reading with reference := .braced (c :: name) }

/-- Reads the characters of a value. -/
def readValue? (valueOf : String → String) (reading : Reading) : List Char → Option Reading
  | [] => some reading
  | c :: rest =>
    if reading.ended then
      if c = ' ' || c = '\t' then readValue? valueOf reading rest
      else if c = '#' then some reading
      else none
    else if reading.escaped then
      match escape? c with
      | none => none
      | some x => readValue? valueOf ({ reading with escaped := false }.push x) rest
    else if reading.strong then
      let next := if c = '\'' then { reading with strong := false } else reading.push c
      readValue? valueOf next rest
    else if reading.reference ≠ .none then
      readValue? valueOf (reading.inReference valueOf c) rest
    else readValue? valueOf (reading.plain c) rest

/-- The value of a text: quotes are closed at its end, and so are braces. -/
def value? (valueOf : String → String) (text : List Char) : Option String := do
  let reading ← readValue? valueOf ⟨[], false, false, false, false, .none⟩ text
  if reading.strong || reading.weak then none
  match reading.reference with
  | .none => some (String.ofList reading.reversed.reverse)
  | .bare name => some (String.ofList (reading.refer valueOf name).reversed.reverse)
  | .braced _ => none

/-! ### Assignments -/

/-- A character of a key. -/
def isKeyChar (c : Char) : Bool :=
  c.isAlphanum || c == '_' || c == '.'

/-- The key that a text begins with, and the text after it and after blanks. -/
def key? (text : List Char) : Option (List Char × List Char) :=
  match text with
  | [] => none
  | c :: _ =>
    if c.isAlpha || c == '_' then
      some (text.takeWhile isKeyChar, Text.trimStart (text.dropWhile isKeyChar))
    else none

/-- The text behind an equals sign and blanks. -/
def equals? : List Char → Option (List Char)
  | '=' :: rest => some (Text.trimStart rest)
  | _ => none

/-- The key of a line and the text of its value. -/
def split? (text : List Char) : Option (List Char × List Char) := do
  let (key, after) ← key? text
  match equals? after with
  | some rest => some (key, rest)
  | none =>
    if key ≠ "export".toList then none
    let (exported, below) ← key? after
    let rest ← equals? below
    some (exported, rest)

/-- The assignment of a line, none for a line that is empty or a comment. -/
def assignment? (valueOf : String → String) (line : List Char) :
    Option (Option (String × String)) :=
  let text := Text.trimStart (Text.trimEnd line)
  if text.isEmpty || text.head? = some '#' then some none
  else do
    let (key, rest) ← split? text
    let value ← if rest.isEmpty || rest.head? = some '#' then some "" else value? valueOf rest
    return some (String.ofList key, value)

/-- What stands behind a name and an equals sign in an entry `KEY=VALUE` that begins so. The name
may reach into the value: of `X=a=b`, the name `X` gives `a=b` and the name `X=a` gives `b`. -/
def behind? (name key : String) (value : ByteArray) : Option ByteArray :=
  ((name.toUTF8.data.toList ++ [0x3D]).isPrefixOf?
    (key.toUTF8.data.toList ++ 0x3D :: value.data.toList)).map List.toByteArray

/-- The value that a reference stands for: what the first entry of the environment gives, if that
is a text, or else the value that the lines before assigned. -/
def lookup (environment : Environment) (assigned : Table String String) (name : String) : String :=
  let found := environment.entries.findSome? fun (key, value) => behind? name key value
  ((found.bind String.fromUTF8?).or (assigned.get? name)).getD ""

/-- The environment after the lines, given what the lines before assigned. -/
def apply (environment : Environment) (assigned : Table String String) :
    List (Option (List Char)) → Environment
  | [] => environment
  | none :: _ => environment
  | some line :: rest =>
    match assignment? (lookup environment assigned) line with
    | none => environment
    | some none => apply environment assigned rest
    | some (some (key, value)) =>
      let next := if (environment.text? key).isSome then environment
        else environment.insert key value.toUTF8
      apply next (assigned.insert key value) rest

end Assignments

/-- The environment with the assignments of a file for the variables that have no text, be it that
they are not set or that their value is no text. -/
def Environment.withAssignments (environment : Environment) (bytes : ByteArray) : Environment :=
  Assignments.apply environment .empty (Assignments.lines bytes)

end HopQuery
