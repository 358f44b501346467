/-!
# Names

The name grammar of the query language: an ASCII letter or underscore, then ASCII letters,
digits and underscores, up to the end of the text.

* `isNameStart`, `isNameRest`: the two character classes;
* `isName`: the grammar, for a whole text.
-/

namespace HopQuery.Text

/-- A character that may open a name. -/
def isNameStart (c : Char) : Bool :=
  c.isAlpha || c == '_'

/-- A character that may follow in a name. -/
def isNameRest (c : Char) : Bool :=
  c.isAlphanum || c == '_'

/-- Whether the whole text is one name; the empty text is none. -/
def isName (text : String) : Bool :=
  match text.toList with
  | [] => false
  | c :: rest => isNameStart c && rest.all isNameRest

end HopQuery.Text
