import HopQuery.Response
import HopQuery.Shape.Flat
import HopQuery.Shape.Mode
import HopQuery.Shape.Nested

/-!
# Rendered responses

What is shown of a response, in either mode. As long as there are no data, or the path is empty,
nothing is shown, which is not the same as an empty view.

* `Rendering`: a view of a response, with `size` and `text`;
* `Fetch.render`: the view of an outcome along a path.
-/

namespace HopQuery

/-- A view of a response. -/
inductive Rendering
  | flat (entries : List FlatEntry)
  | nested (items : List NestedItem)

namespace Rendering

/-- The number of entries or items at the top. -/
def size : Rendering → Nat
  | .flat entries => entries.length
  | .nested items => items.length

/-- The mode of the view. -/
def mode : Rendering → ShapeMode
  | .flat _ => .flat
  | .nested _ => .nested

/-- The line between two items. -/
def separator : String := "--\n"

/-- The text of a view: entries on lines of their own, items with a separator between each two. -/
def text : Rendering → String
  | .flat entries => String.join (entries.map (fun entry => entry.text ++ "\n"))
  | .nested items => separator.intercalate (items.map NestedItem.text)

end Rendering

/-- The view of the data along the path, unless the path is empty. -/
def Json.render (data : Json) (path : Path) (mode : ShapeMode) (catalog : Catalog) :
    Option Rendering :=
  match path.segments with
  | [] => none
  | root :: _ =>
    some <| match mode with
      | .flat => .flat ((path.leaves catalog data).map FlatEntry.ofJson)
      | .nested => .nested <| match data.get? root.typeName with
        | none => []
        | some .null => []
        | some collection => NestedItem.ofCollection collection

/-- The view of an outcome along the path: none without data. -/
def Fetch.render (fetch : Fetch) (path : Path) (mode : ShapeMode) (catalog : Catalog) :
    Option Rendering :=
  match fetch with
  | .ready data => data.render path mode catalog
  | .pending => none
  | .failed => none

end HopQuery
