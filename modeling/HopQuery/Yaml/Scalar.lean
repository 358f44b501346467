import HopQuery.Text.Hex
import HopQuery.Yaml.Spot

/-!
# Scalars

The three ways to write a text in YAML: plain, between quotes, and as an indented block. In plain
and quoted scalars a line break between words counts as a space and each further one as itself.

* `Gap`: what stands between two words;
* `plain?`, `quoted?`, `block?`: the text of a scalar and the row after it.
-/

namespace HopQuery.Yaml

/-- What has been passed since the last word of a plain or quoted scalar. The characters of a gap
are held in reverse. -/
inductive Gap
  | nothing
  /-- Blanks within a line. -/
  | blanks (reversed : List Char)
  /-- Line breaks: the first one, unless it was escaped, and the further ones. -/
  | breaks (first : Option Char) (reversed : List Char)
  deriving DecidableEq

namespace Gap

/-- The text of a gap: blanks as they are, a single line break as a space, the first of several
not at all. A Unicode separator stands for itself. -/
def text : Gap → List Char
  | .nothing => []
  | .blanks reversed => reversed.reverse
  | .breaks none reversed => reversed.reverse
  | .breaks (some first) reversed =>
    if first = '\n' then (if reversed.isEmpty then [' '] else reversed.reverse)
    else first :: reversed.reverse

/-- The gap with one more blank; blanks around line breaks do not count. -/
def addBlank (c : Char) : Gap → Gap
  | .nothing => .blanks [c]
  | .blanks reversed => .blanks (c :: reversed)
  | gap => gap

/-- The gap with one more line break; blanks before the first one do not count. -/
def addBreak (c : Char) : Gap → Gap
  | .breaks first reversed => .breaks first (c :: reversed)
  | _ => .breaks (some c) []

/-- Whether the gap holds line breaks. -/
def hasBreaks : Gap → Bool
  | .breaks _ _ => true
  | _ => false

end Gap

/-! ### Plain scalars -/

/-- The characters that end a plain scalar between brackets or braces. -/
def isFlowMark (c : Char) : Bool :=
  c == ',' || c == '[' || c == ']' || c == '\x7b' || c == '\x7d'

/-- The text of a plain scalar whose words before the row are `reversed`, whether it ends after a
line break, and the row after it. Outside of brackets its lines are indented by `indent` at
least. -/
def plainAfter? (flow : Bool) (indent : Int) (reversed : List Char) (gap : Gap) :
    List Spot → Option (List Char × Bool × List Spot)
  | [] => some (reversed.reverse, gap.hasBreaks, [])
  | s :: rest =>
    let c := s.char
    let next := Spot.headChar rest
    let stop := some (reversed.reverse, gap.hasBreaks, s :: rest)
    if isBlank c then
      if gap.hasBreaks && s.column < indent && c == '\t' then none
      else plainAfter? flow indent reversed (gap.addBlank c) rest
    else if isBreak c then plainAfter? flow indent reversed (gap.addBreak c) rest
    else if isEnd c then stop
    else if gap ≠ .nothing ∧
        ((!flow && s.column < indent) || Spot.atDocumentMark (s :: rest) || c == '#') then stop
    else if flow && c == ':' && (isFlowMark next || next == '?') then none
    else if c == ':' && endsWord next then stop
    else if flow && isFlowMark c then stop
    else plainAfter? flow indent (c :: gap.text.reverse ++ reversed) .nothing rest

/-- The text of the plain scalar that the row begins with. -/
def plain? (flow : Bool) (indent : Int) (row : List Spot) : Option (List Char × Bool × List Spot) :=
  plainAfter? flow indent [] .nothing row

/-! ### Quoted scalars -/

/-- The character of a short escape in double quotes. -/
def shortEscape? (c : Char) : Option Char :=
  match c with
  | '0' => some '\x00'
  | 'a' => some '\x07'
  | 'b' => some '\x08'
  | 't' => some '\t'
  | '\t' => some '\t'
  | 'n' => some '\n'
  | 'v' => some '\x0B'
  | 'f' => some '\x0C'
  | 'r' => some '\r'
  | 'e' => some '\x1B'
  | ' ' => some ' '
  | '"' => some '"'
  | '/' => some '/'
  | '\\' => some '\\'
  | 'N' => some '\u0085'
  | '_' => some '\u00A0'
  | 'L' => some '\u2028'
  | 'P' => some '\u2029'
  | _ => none

/-- The number of hexadecimal digits that follow the letter of an escape. -/
def codeWidth? (c : Char) : Option Nat :=
  match c with
  | 'x' => some 2
  | 'u' => some 4
  | 'U' => some 8
  | _ => none

/-- The character with the code of the first `width` digits of the row. -/
def codedChar? (width : Nat) (row : List Spot) : Option Char := do
  let digits := (row.take width).map Spot.char
  let n ← Text.hexNumber? digits
  if digits.length = width ∧ n.isValidChar then some (Char.ofNat n) else none

/-- The character of the escape whose letter is `c`, and the number of further characters it
takes from the row. -/
def escaped? (c : Char) (row : List Spot) : Option (Char × Nat) :=
  match shortEscape? c with
  | some x => some (x, 0)
  | none => do
    let width ← codeWidth? c
    let x ← codedChar? width row
    return (x, width)

/-- The text of a quoted scalar whose characters before the row are `reversed`, and the row after
the closing quote. The first `passed` characters of the row have been read already. -/
def quotedAfter? (single : Bool) (reversed : List Char) (gap : Gap) :
    Nat → List Spot → Option (List Char × List Spot)
  | _, [] => none
  | passed + 1, _ :: rest => quotedAfter? single reversed gap passed rest
  | 0, s :: rest =>
    let c := s.char
    let joined := gap.text.reverse ++ reversed
    if Spot.atDocumentMark (s :: rest) || isEnd c then none
    else if isBlank c then quotedAfter? single reversed (gap.addBlank c) 0 rest
    else if isBreak c then quotedAfter? single reversed (gap.addBreak c) 0 rest
    else if single then
      if c ≠ '\'' then quotedAfter? single (c :: joined) .nothing 0 rest
      else if Spot.headChar rest = '\'' then quotedAfter? single ('\'' :: joined) .nothing 1 rest
      else some (joined.reverse, rest)
    else if c = '"' then some (joined.reverse, rest)
    else if c ≠ '\\' then quotedAfter? single (c :: joined) .nothing 0 rest
    else match rest with
      | [] => none
      | e :: after =>
        if isBreak e.char then quotedAfter? single joined (.breaks none []) 0 after
        else match escaped? e.char after with
          | none => none
          | some (x, width) => quotedAfter? single (x :: joined) .nothing width after

/-- The text of the quoted scalar whose opening quote stands before the row. -/
def quoted? (single : Bool) (row : List Spot) : Option (List Char × List Spot) :=
  quotedAfter? single [] .nothing 0 row

/-! ### Block scalars -/

/-- What becomes of the line breaks at the end of a block. -/
inductive Chomping
  /-- All are dropped. -/
  | strip
  /-- The first one is kept. -/
  | clip
  /-- All are kept. -/
  | keep
  deriving DecidableEq

/-- The chomping of an indicator. -/
def Chomping.ofChar? (c : Char) : Option Chomping :=
  if c = '-' then some .strip else if c = '+' then some .keep else none

/-- The indentation of an indicator, which is no zero. -/
def indentDigit? (c : Char) : Option Nat :=
  if c.isDigit && c ≠ '0' then some (c.toNat - 0x30) else none

/-- The indicators of a block in either order, and the row after them. A zero is no indicator and
stays in the row, where it is an error. -/
def blockIndicators : List Spot → Chomping × Option Nat × List Spot
  | a :: b :: rest =>
    match Chomping.ofChar? a.char, indentDigit? a.char with
    | some chomping, _ =>
      match indentDigit? b.char with
      | some n => (chomping, some n, rest)
      | none => (chomping, none, b :: rest)
    | none, some n =>
      match Chomping.ofChar? b.char with
      | some chomping => (chomping, some n, rest)
      | none => (.clip, some n, b :: rest)
    | none, none => (.clip, none, a :: b :: rest)
  | row => (.clip, none, row)

/-- Passes the indentation and the empty lines before a line of a block: the widest indentation
that was met, the line breaks, and the row from the line on. An indentation of zero is one that is
not known yet. -/
def blockGap? (indent widest : Nat) (breaks : List Char) :
    List Spot → Option (Nat × List Char × List Spot)
  | [] => some (widest, breaks.reverse, [])
  | s :: rest =>
    let inside := indent == 0 || s.column < indent
    if inside && s.char == ' ' then blockGap? indent widest breaks rest
    else if inside && s.char == '\t' then none
    else if isBreak s.char then blockGap? indent (max widest s.column) (s.char :: breaks) rest
    else some (max widest s.column, breaks.reverse, s :: rest)

/-- A block that is being read: its text so far, the line break after the last line, the further
ones, and whether the last line began with a blank. -/
structure Block where
  reversed : List Char
  first : List Char
  further : List Char
  blankLine : Bool

/-- The text of the block with the line breaks at its end as the chomping says. -/
def Block.finish (block : Block) (chomping : Chomping) : List Char :=
  block.reversed.reverse ++ match chomping with
    | .strip => []
    | .clip => block.first
    | .keep => block.first ++ block.further

/-- What stands between the block so far and a line that begins with a blank or not: in a folded
block one line break between two lines that do not begin with a blank counts as a space. -/
def Block.gap (block : Block) (literal blankLine : Bool) : List Char :=
  if !literal && block.first.head? == some '\n' && !block.blankLine && !blankLine then
    if block.further.isEmpty then [' '] else block.further
  else block.first ++ block.further

/-- Reads the lines of a block, at most `fuel` of them. -/
def blockLines? (literal : Bool) (indent : Nat) : Nat → Block → List Spot →
    Option (Block × List Spot)
  | 0, block, row => some (block, row)
  | _, block, [] => some (block, [])
  | fuel + 1, block, s :: rest =>
    if s.column = indent ∧ !isEnd s.char then do
      let (line, after) := Spot.span (fun c => !endsLine c) (s :: rest)
      let gap := block.gap literal (isBlank s.char)
      let (first, below) := match after with
        | b :: below => if isBreak b.char then ([b.char], below) else ([], b :: below)
        | [] => ([], [])
      let (_, further, next) ← blockGap? indent 0 [] below
      blockLines? literal indent fuel
        ⟨line.reverse ++ gap.reverse ++ block.reversed, first, further, isBlank s.char⟩ next
    else some (block, s :: rest)

/-- The text of the block scalar whose indicator stands before the row, and the row after it.
Without an indication, the indentation is that of the first line that is not empty, but more than
that of the block around it. -/
def block? (literal : Bool) (outer : Int) (row : List Spot) : Option (List Char × List Spot) := do
  let (chomping, increment, afterIndicators) := blockIndicators row
  let below ← Spot.finishLine? afterIndicators
  let known := match increment with
    | none => 0
    | some n => outer.toNat + n
  let (widest, further, start) ← blockGap? known 0 [] below
  let indent := if known = 0 then max (max widest (outer + 1).toNat) 1 else known
  let (block, after) ← blockLines? literal indent start.length ⟨[], [], further, false⟩ start
  return (block.finish chomping, after)

end HopQuery.Yaml
