/-!
# Blank characters

The characters with the `White_Space` property, and trimming by them.

* `isBlank`: the property;
* `trim`, `trimStart`, `trimEnd`: the text without its blank ends.
-/

namespace HopQuery.Text

/-- The `White_Space` property: six controls, the space, and eighteen characters beyond ASCII. -/
def isBlank (c : Char) : Bool :=
  let n := c.toNat
  (0x09 ≤ n && n ≤ 0x0D) || n == 0x20 || n == 0x85 || n == 0xA0 || n == 0x1680 ||
    (0x2000 ≤ n && n ≤ 0x200A) || n == 0x2028 || n == 0x2029 || n == 0x202F || n == 0x205F ||
    n == 0x3000

/-- The text from its first character that is not blank. -/
def trimStart (cs : List Char) : List Char :=
  cs.dropWhile isBlank

/-- The text up to its last character that is not blank. -/
def trimEnd (cs : List Char) : List Char :=
  (cs.reverse.dropWhile isBlank).reverse

/-- The text without blank characters at either end. -/
def trim (text : String) : String :=
  String.ofList (trimEnd (trimStart text.toList))

end HopQuery.Text
