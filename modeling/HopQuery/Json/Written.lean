import HopQuery.Json.Number
import HopQuery.Text.Hex

/-!
# JSON as written

The tree of a JSON text before its values are looked at: strings may hold the halves of a
surrogate pair, numbers are digits, objects may repeat a name and there is no limit on depth. A
text that has no such tree is no JSON. A tree need not have a value: each string has to pair its
surrogates, each number has to be within range, and at most 127 arrays and objects may stand
inside each other.

* `Written`: the tree;
* `Written.Token`, `Written.tokens?`: the text as a row of tokens;
* `Written.read?`: the tree of a text;
* `Written.value?`: the value of a tree;
* `Json.read?`: the value of a text.
-/

namespace HopQuery

/-- One unit of a written string: a character, or half of a surrogate pair. -/
inductive StringUnit
  | char (c : Char)
  | surrogate (n : Nat)
  deriving DecidableEq, Repr

/-- A JSON text as a tree. -/
inductive Written
  | null
  | bool (b : Bool)
  | number (text : NumberText)
  | string (units : List StringUnit)
  | array (items : List Written)
  | object (members : List (List StringUnit × Written))

namespace Written

/-! ### Tokens -/

/-- A token of a JSON text. -/
inductive Token
  | openArray
  | closeArray
  | openObject
  | closeObject
  | comma
  | colon
  | null
  | bool (b : Bool)
  | number (text : NumberText)
  | string (units : List StringUnit)
  deriving DecidableEq, Repr

/-- The four characters that may stand between tokens. -/
def isSpace (c : Char) : Bool :=
  c == ' ' || c == '\t' || c == '\n' || c == '\r'

/-- The unit of four hexadecimal digits. -/
def hexUnit? (a b c d : Char) : Option StringUnit := do
  let n ← Text.hexNumber? [a, b, c, d]
  return if 0xD800 ≤ n ∧ n ≤ 0xDFFF then .surrogate n else .char (Char.ofNat n)

/-- The character of a short escape. -/
def shortEscape? (c : Char) : Option Char :=
  match c with
  | '"' => some '"'
  | '\\' => some '\\'
  | '/' => some '/'
  | 'b' => some '\x08'
  | 'f' => some '\x0C'
  | 'n' => some '\n'
  | 'r' => some '\r'
  | 't' => some '\t'
  | _ => none

/-- The units up to the closing quote, and the text after it. -/
def string? (units : List StringUnit) : List Char → Option (List StringUnit × List Char)
  | [] => none
  | '"' :: rest => some (units.reverse, rest)
  | '\\' :: 'u' :: a :: b :: c :: d :: rest => do
    let unit ← hexUnit? a b c d
    string? (unit :: units) rest
  | '\\' :: c :: rest => do
    let escaped ← shortEscape? c
    string? (.char escaped :: units) rest
  | c :: rest => if c.toNat < 0x20 || c == '\\' then none else string? (.char c :: units) rest

/-- The digits before the point: one zero, or digits that begin with another one. -/
def wholeDigits? : List Char → Option (List Char × List Char)
  | '0' :: rest => some (['0'], rest)
  | cs => match cs.takeWhile Char.isDigit with
    | [] => none
    | digits => some (digits, cs.dropWhile Char.isDigit)

/-- The digits after the point, none if there is no point. -/
def fraction? : List Char → Option (List Char × List Char)
  | '.' :: rest => match rest.takeWhile Char.isDigit with
    | [] => none
    | digits => some (digits, rest.dropWhile Char.isDigit)
  | cs => some ([], cs)

/-- The sign of an exponent, and the text after it. -/
def exponentSign : List Char → Bool × List Char
  | '-' :: rest => (true, rest)
  | '+' :: rest => (false, rest)
  | cs => (false, cs)

/-- The exponent, if there is one. -/
def exponent? : List Char → Option (Option (Bool × List Char) × List Char)
  | c :: rest =>
    if c == 'e' || c == 'E' then
      let (minus, cs) := exponentSign rest
      match cs.takeWhile Char.isDigit with
      | [] => none
      | digits => some (some (minus, digits), cs.dropWhile Char.isDigit)
    else some (none, c :: rest)
  | [] => some (none, [])

/-- The number without its sign, and the text after it. -/
def unsigned? (negative : Bool) (cs : List Char) : Option (NumberText × List Char) := do
  let (whole, afterWhole) ← wholeDigits? cs
  let (fraction, afterFraction) ← fraction? afterWhole
  let (exponent, rest) ← exponent? afterFraction
  return (⟨negative, whole, fraction, exponent⟩, rest)

/-- The first token of a text that begins with one, and the text after it. -/
def token? : List Char → Option (Token × List Char)
  | [] => none
  | '[' :: rest => some (.openArray, rest)
  | ']' :: rest => some (.closeArray, rest)
  | '\x7b' :: rest => some (.openObject, rest)
  | '\x7d' :: rest => some (.closeObject, rest)
  | ',' :: rest => some (.comma, rest)
  | ':' :: rest => some (.colon, rest)
  | 'n' :: 'u' :: 'l' :: 'l' :: rest => some (.null, rest)
  | 't' :: 'r' :: 'u' :: 'e' :: rest => some (.bool true, rest)
  | 'f' :: 'a' :: 'l' :: 's' :: 'e' :: rest => some (.bool false, rest)
  | '"' :: rest => (string? [] rest).map (fun (units, after) => (.string units, after))
  | '-' :: rest => (unsigned? true rest).map (fun (text, after) => (.number text, after))
  | cs => (unsigned? false cs).map (fun (text, after) => (.number text, after))

/-- The tokens of a text, at most `fuel` of them and spaces. -/
def tokensWithin? : Nat → List Char → Option (List Token)
  | _, [] => some []
  | 0, _ => none
  | fuel + 1, c :: rest =>
    if isSpace c then tokensWithin? fuel rest
    else do
      let (token, after) ← token? (c :: rest)
      let tokens ← tokensWithin? fuel after
      return token :: tokens

/-- The tokens of a text. Each takes one character at least, so their number is bounded by that of
the characters. -/
def tokens? (cs : List Char) : Option (List Token) :=
  tokensWithin? cs.length cs

/-! ### Trees -/

mutual

/-- The tree that a row of tokens begins with, and the tokens after it. -/
def tree? : Nat → List Token → Option (Written × List Token)
  | _ + 1, .openArray :: .closeArray :: rest => some (.array [], rest)
  | fuel + 1, .openArray :: rest => do
    let (items, after) ← items? fuel rest
    return (.array items, after)
  | _ + 1, .openObject :: .closeObject :: rest => some (.object [], rest)
  | fuel + 1, .openObject :: rest => do
    let (members, after) ← members? fuel rest
    return (.object members, after)
  | _ + 1, .null :: rest => some (.null, rest)
  | _ + 1, .bool b :: rest => some (.bool b, rest)
  | _ + 1, .number text :: rest => some (.number text, rest)
  | _ + 1, .string units :: rest => some (.string units, rest)
  | _, _ => none

/-- The items up to the end of an array, and the tokens after it. -/
def items? : Nat → List Token → Option (List Written × List Token)
  | 0, _ => none
  | fuel + 1, tokens => do
    let (item, after) ← tree? fuel tokens
    match after with
    | .comma :: rest =>
      let (items, afterItems) ← items? fuel rest
      return (item :: items, afterItems)
    | .closeArray :: rest => return ([item], rest)
    | _ => none

/-- The members up to the end of an object, and the tokens after it. -/
def members? : Nat → List Token → Option (List (List StringUnit × Written) × List Token)
  | fuel + 1, .string name :: .colon :: tokens => do
    let (value, after) ← tree? fuel tokens
    match after with
    | .comma :: rest =>
      let (members, afterMembers) ← members? fuel rest
      return ((name, value) :: members, afterMembers)
    | .closeObject :: rest => return ([(name, value)], rest)
    | _ => none
  | _, _ => none

end

/-- The tree of a text: a row of tokens that is one tree, and nothing after it. -/
def read? (text : String) : Option Written := do
  let tokens ← tokens? text.toList
  match ← tree? (2 * tokens.length) tokens with
  | (tree, []) => some tree
  | _ => none

/-! ### Values -/

/-- The character of a surrogate pair. -/
def pairChar (high low : Nat) : Char :=
  Char.ofNat (0x10000 + (high - 0xD800) * 0x400 + (low - 0xDC00))

/-- The characters of a string that pairs its surrogates. -/
def chars? : List StringUnit → Option (List Char)
  | [] => some []
  | .char c :: rest => (chars? rest).map (c :: ·)
  | .surrogate high :: .surrogate low :: rest =>
    if high < 0xDC00 ∧ 0xDC00 ≤ low then (chars? rest).map (pairChar high low :: ·) else none
  | .surrogate _ :: _ => none

/-- The text of a string that pairs its surrogates. -/
def text? (units : List StringUnit) : Option String :=
  (chars? units).map String.ofList

mutual

/-- The value of a tree with at most `depth` arrays and objects inside each other. A repeated name
keeps its first place and takes its last value. -/
def value? (depth : Nat) : Written → Option Json
  | .null => some .null
  | .bool b => some (.bool b)
  | .number text => (Json.Number.ofText? text).map Json.number
  | .string units => (text? units).map Json.string
  | .array items => if depth = 0 then none else (values? (depth - 1) items).map Json.array
  | .object members =>
    if depth = 0 then none else (memberValues? (depth - 1) [] members).map Json.object

/-- The values of the items. -/
def values? (depth : Nat) : List Written → Option (List Json)
  | [] => some []
  | item :: rest => do
    let value ← value? depth item
    let values ← values? depth rest
    return value :: values

/-- The members with their values, put one after the other onto the members before them. -/
def memberValues? (depth : Nat) (before : List (String × Json)) :
    List (List StringUnit × Written) → Option (List (String × Json))
  | [] => some before
  | (units, tree) :: rest => do
    let name ← text? units
    let value ← value? depth tree
    memberValues? depth (Table.put name value before) rest

end

/-- The number of arrays and objects that may stand inside each other. -/
def depthLimit : Nat := 127

end Written

/-- The value of a JSON text. -/
def Json.read? (text : String) : Option Json := do
  let tree ← Written.read? text
  tree.value? Written.depthLimit

end HopQuery
