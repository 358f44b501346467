/-!
# Places in a text

A YAML text as a row of characters, each with its line, its column and its distance from the
start, which is counted in bytes. Only printable characters are allowed. A line ends with a carriage return, a line feed,
both, a next-line character, or one of the two Unicode separators; all but the separators count as
a line feed. The row ends with a NUL, which no text may hold.

* `Spot`: a character in its place;
* `Spot.ofText?`: the row of a text;
* `isBreak`, `isBlank`, `isEnd`, `endsWord`: the classes of characters that matter.
-/

namespace HopQuery.Yaml

/-- A character in its place. -/
structure Spot where
  char : Char
  line : Nat
  column : Nat
  /-- The number of bytes before it. -/
  index : Nat
  deriving DecidableEq, Repr

/-- The byte order mark. -/
def byteOrderMark : Char := '\uFEFF'

/-- The characters that a text may hold. -/
def isAllowed (c : Char) : Bool :=
  let n := c.toNat
  n == 0x09 || n == 0x0A || n == 0x0D || (0x20 ≤ n && n ≤ 0x7E) || n == 0x85 ||
    (0xA0 ≤ n && n ≤ 0xFFFD) || 0x10000 ≤ n

/-- A character that ends a line within a row. -/
def isBreak (c : Char) : Bool :=
  c == '\n' || c == '\u2028' || c == '\u2029'

/-- A space or a tab. -/
def isBlank (c : Char) : Bool :=
  c == ' ' || c == '\t'

/-- The end of the row. -/
def isEnd (c : Char) : Bool :=
  c == '\x00'

/-- The line break or the end of the row. -/
def endsLine (c : Char) : Bool :=
  isBreak c || isEnd c

/-- A blank, a line break or the end of the row. -/
def endsWord (c : Char) : Bool :=
  isBlank c || endsLine c

/-- A character of an anchor, of a tag handle or of a directive name. -/
def isWordChar (c : Char) : Bool :=
  c.isAlphanum || c == '_' || c == '-'

namespace Spot

/-- The row of the characters from the given place on. -/
def place (line column index : Nat) : List Char → List Spot
  | [] => [⟨'\x00', line, column, index⟩]
  | '\r' :: '\n' :: rest => ⟨'\n', line, column, index⟩ :: place (line + 1) 0 (index + 2) rest
  | c :: rest =>
    let next := index + c.utf8Size
    if c == '\r' || c == '\u0085' then
      ⟨'\n', line, column, index⟩ :: place (line + 1) 0 next rest
    else if isBreak c then ⟨c, line, column, index⟩ :: place (line + 1) 0 next rest
    else ⟨c, line, column, index⟩ :: place line (column + 1) next rest

/-- The row of a text. -/
def ofText? (text : String) : Option (List Spot) :=
  if text.toList.all isAllowed then some (place 0 0 0 text.toList) else none

/-- The first character of a row. -/
def headChar : List Spot → Char
  | [] => '\x00'
  | spot :: _ => spot.char

/-- The characters of the longest run that passes the test, and the row after it. -/
def span (p : Char → Bool) (row : List Spot) : List Char × List Spot :=
  ((row.takeWhile (fun s => p s.char)).map Spot.char, row.dropWhile (fun s => p s.char))

/-- The row after the blanks at its start. -/
def skipBlanks (row : List Spot) : List Spot :=
  row.dropWhile (fun s => isBlank s.char)

/-- Whether the row begins with three times the character and the end of a word. -/
def beginsWithThree (c : Char) : List Spot → Bool
  | a :: b :: d :: rest => a.char == c && b.char == c && d.char == c && endsWord (headChar rest)
  | _ => false

/-- Whether the row begins, at the start of a line, with the mark of a document's start or end. -/
def atDocumentMark : List Spot → Bool
  | [] => false
  | s :: rest =>
    s.column == 0 && (beginsWithThree '-' (s :: rest) || beginsWithThree '.' (s :: rest))

/-- The row after the rest of a line that may hold blanks and a comment only. -/
def finishLine? (row : List Spot) : Option (List Spot) :=
  let after := skipBlanks row
  let atEnd := if headChar after = '#' then after.dropWhile (fun s => !endsLine s.char) else after
  match atEnd with
  | [] => some []
  | s :: rest => if isBreak s.char then some rest else if isEnd s.char then some (s :: rest) else none

end Spot

end HopQuery.Yaml
