import HopQuery.Text.Blank

/-!
# Shape modes

The two ways to show the data of a response, and how they are named in settings.
-/

namespace HopQuery

/-- A way to show the data of a response. -/
inductive ShapeMode
  /-- A list of what the last hop found. -/
  | flat
  /-- The data as they are nested. -/
  | nested
  deriving DecidableEq, Repr

/-- A text that names no mode. -/
structure ShapeModeError where
  text : String
  deriving DecidableEq, Repr

/-- The wording of the error, with the text as it was given. -/
def ShapeModeError.message (error : ShapeModeError) : String :=
  s!"Unknown shape mode `{error.text}` (expected `flat` or `nested`)"

namespace ShapeMode

/-- The name of a mode. -/
def name : ShapeMode → String
  | .flat => "flat"
  | .nested => "nested"

/-- The other mode. -/
def toggled : ShapeMode → ShapeMode
  | .flat => .nested
  | .nested => .flat

/-- The mode with exactly that name. -/
def ofName? (name : String) : Option ShapeMode :=
  if name = "flat" then some .flat else if name = "nested" then some .nested else none

/-- The mode that a text names, in letters of either case and with blanks around it. No letter
beyond ASCII has a lower-case form in either name. -/
def read (text : String) : Except ShapeModeError ShapeMode :=
  match ofName? (Text.trim text).toLower with
  | some mode => .ok mode
  | none => .error ⟨text⟩

end ShapeMode

end HopQuery
