import HopQuery.Text.Hex

/-!
# Hops

A hop is one stage of a chain: a kind of entity under an identifier of its own. Identifiers are
128-bit words, written as hexadecimal digits in groups of 8, 4, 4, 4 and 12.

* `HopId`, `HopId.text`, `HopId.read?`: identifiers and their text;
* `Hop`: an identifier with a kind.
-/

namespace HopQuery

/-- The identifier of a hop. -/
structure HopId where
  /-- The word that tells it from all others. -/
  word : BitVec 128
  deriving DecidableEq, Repr

namespace HopId

/-- The last `width` hexadecimal digits of `n`, in lower case. -/
def hexDigits (width n : Nat) : List Char :=
  (List.range width).reverse.map (fun i => Text.hexLower (n / Nat.pow 16 i))

/-- The text of an identifier, in lower case. -/
def text (id : HopId) : String :=
  let n := id.word.toNat
  String.ofList <|
    let group (width place : Nat) := hexDigits width (n / Nat.pow 16 place)
    group 8 24 ++ '-' :: group 4 20 ++ '-' :: group 4 16 ++ '-' :: group 4 12 ++ '-' :: group 12 0

/-- The digits of a text in groups, without the hyphens between the groups. -/
def ungroup? (cs : List Char) : Option (List Char) :=
  let hyphens := [8, 13, 18, 23]
  if cs.length = 36 ∧ hyphens.all (fun i => cs[i]? == some '-') then
    some (cs.zipIdx.filterMap (fun (c, i) => if i ∈ hyphens then none else some c))
  else none

/-- The digits that a text shows: 32 digits in a row, or in groups, which may stand in braces or
after the scheme of a resource name, in letters of either case. -/
def digits? (cs : List Char) : Option (List Char) :=
  let scheme := "urn:uuid:".toList
  if cs.length = 32 then some cs
  else if cs.length = 36 then ungroup? cs
  else if cs.length = 38 ∧ cs.head? = some '\x7b' ∧ cs.getLast? = some '\x7d' then
    ungroup? (cs.drop 1).dropLast
  else if cs.length = 45 ∧ (cs.take 9).map Char.toLower = scheme then ungroup? (cs.drop 9)
  else none

/-- The identifier that a text denotes. -/
def read? (text : String) : Option HopId := do
  let digits ← digits? text.toList
  let n ← Text.hexNumber? digits
  return ⟨BitVec.ofNat 128 n⟩

end HopId

/-- One stage of a chain. -/
structure Hop where
  id : HopId
  kind : String
  deriving DecidableEq, Repr

end HopQuery
