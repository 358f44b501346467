import HopQuery.Text.Hex

/-!
# String literals

A text between double quotes in the query language. A quote and a backslash get a backslash,
five control characters have a short escape, every other control character is written with its
four hexadecimal digits, and all else stands for itself. So a literal never spans lines and no
text can end its own literal.

* `escape`: the text between the quotes;
* `quote`: the whole literal.
-/

namespace HopQuery.Text

/-- The control characters: `U+0000` to `U+001F` and `U+007F` to `U+009F`. -/
def isControl (c : Char) : Bool :=
  c.toNat < 0x20 || (0x7F ≤ c.toNat && c.toNat ≤ 0x9F)

/-- How one character is written in a literal. -/
def escapeChar (c : Char) : List Char :=
  if c = '"' then ['\\', '"']
  else if c = '\\' then ['\\', '\\']
  else if c = '\n' then ['\\', 'n']
  else if c = '\r' then ['\\', 'r']
  else if c = '\t' then ['\\', 't']
  else if c = '\x08' then ['\\', 'b']
  else if c = '\x0C' then ['\\', 'f']
  else if isControl c then
    ['\\', 'u', hexUpper (c.toNat / 0x1000), hexUpper (c.toNat / 0x100), hexUpper (c.toNat / 0x10),
      hexUpper c.toNat]
  else [c]

/-- The characters of the text as they stand between the quotes. -/
def escapeChars (cs : List Char) : List Char :=
  cs.flatMap escapeChar

/-- The text as it stands between the quotes of a literal. -/
def escape (text : String) : String :=
  String.ofList (escapeChars text.toList)

/-- The literal that denotes the text. -/
def quote (text : String) : String :=
  "\"" ++ escape text ++ "\""

end HopQuery.Text
