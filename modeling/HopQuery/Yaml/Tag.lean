import HopQuery.Text.Hex
import HopQuery.Yaml.Spot

/-!
# Tags

A tag names the type of a node. In a tag as it is written, a percent sign with two hexadecimal
digits stands for a byte, and such bytes come in groups whose first one tells their number. The
groups need not make up characters, so a tag is a row of bytes and may be no text at all. It ends
before its first zero byte.

* `Tag`: the bytes, with `Tag.core` and `Tag.localName?`;
* `Tag.suffix?`: a tag without its handle, as it is written;
* `Tag.handle?`: a handle.
-/

namespace HopQuery.Yaml

/-- A tag, or a part of one. -/
structure Tag where
  bytes : List UInt8
  deriving DecidableEq, Repr

namespace Tag

/-- The tag of the bytes, which ends before the first zero. -/
def ofBytes (bytes : List UInt8) : Tag :=
  ⟨bytes.takeWhile (· ≠ 0)⟩

/-- The tag of a text. -/
def ofText (text : String) : Tag :=
  ofBytes text.toUTF8.toList

/-- The tag in two parts. -/
def append (stem suffix : Tag) : Tag :=
  ⟨stem.bytes ++ suffix.bytes⟩

/-- The tag of a lone exclamation mark. -/
def lone : Tag :=
  ofText "!"

/-- The tag of a type of the core schema. -/
def core (name : String) : Tag :=
  ofText ("tag:yaml.org,2002:" ++ name)

/-- The name that a local tag gives, if it is a text: what follows the exclamation mark, or the
mark itself if nothing does. -/
def localName? (tag : Tag) : Option String :=
  match tag.bytes with
  | [] => none
  | mark :: rest =>
    if mark ≠ 0x21 then none
    else String.fromUTF8? ⟨(if rest.isEmpty then [mark] else rest).toArray⟩

/-! ### As written -/

/-- A character of a tag: flow marks only if the tag stands between angle brackets. -/
def isTagChar (bracketed : Bool) (c : Char) : Bool :=
  isWordChar c || (";/?:@&=+$.%!~*'()".toList.contains c) || (bracketed && (",[]".toList.contains c))

/-- The number of bytes in a group whose first byte is given. -/
def groupSize? (byte : Nat) : Option Nat :=
  if byte < 0x80 then some 1
  else if byte / 0x20 = 0x6 then some 2
  else if byte / 0x10 = 0xE then some 3
  else if byte / 0x8 = 0x1E then some 4
  else none

/-- The number of further bytes in a group after one more byte, where `due` were missing before
it: a group begins with a byte that tells its size, and goes on with bytes that begin with the
bits `10`. -/
def dueAfter? (byte : Nat) : Nat → Option Nat
  | 0 => (groupSize? byte).map (· - 1)
  | due + 1 => if byte / 0x40 = 2 then some due else none

/-- The bytes of a tag as written, where `due` bytes are missing from the group before. -/
def bytes? (due : Nat) : List Char → Option (List UInt8)
  | [] => if due = 0 then some [] else none
  | '%' :: a :: b :: rest => do
    let byte ← Text.hexNumber? [a, b]
    let bytes ← bytes? (← dueAfter? byte due) rest
    return byte.toUInt8 :: bytes
  | c :: rest =>
    if c = '%' ∨ due ≠ 0 then none else (bytes? 0 rest).map (c.toNat.toUInt8 :: ·)

/-- The rest of a tag, behind the characters `before` of it; not empty unless those are given. -/
def suffix? (bracketed : Bool) (before : List Char) (row : List Spot) :
    Option (Tag × List Spot) := do
  let (cs, after) := Spot.span (isTagChar bracketed) row
  if before.isEmpty && cs.isEmpty then none
  let bytes ← bytes? 0 (before.tail ++ cs)
  return (ofBytes bytes, after)

/-- The handle of a tag: an exclamation mark, a word, and a second mark if there is one. -/
def handle? : List Spot → Option (List Char × List Spot)
  | [] => none
  | s :: rest =>
    if s.char ≠ '!' then none
    else
      let (word, after) := Spot.span isWordChar rest
      match after with
      | mark :: below =>
        if mark.char = '!' then some ('!' :: word ++ ['!'], below)
        else some ('!' :: word, mark :: below)
      | [] => some ('!' :: word, [])

end Tag

end HopQuery.Yaml
