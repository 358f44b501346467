/-!
# Files

The files that a run may read, as a function from names to contents, and what can go wrong with
one.

* `FileError`: what can go wrong, with `FileError.ofCode?` for the codes of the system;
* `Files`: the files under their names, as they are named from the working directory;
* `Files.text`: the text of a file;
* `Files.ofList`: files under the names that are listed;
* `Files.nearest?`: the file of a name that is the nearest, from the working directory upwards.
-/

namespace HopQuery

/-- Why a file cannot be read. -/
inductive FileError
  /-- There is no file of the name. -/
  | notFound
  /-- The content is no text. -/
  | notText
  /-- The name is that of a directory. -/
  | isDirectory
  /-- The path goes on behind a file. -/
  | notDirectory
  /-- A part of the path, or the whole path, is too long. -/
  | nameTooLong
  /-- The name holds a zero character. -/
  | zeroInName
  /-- Any other cause, as told by the system. -/
  | other (text : String)
  deriving DecidableEq, Repr

/-- The wording of a file error. -/
def FileError.message : FileError → String
  | .notFound => "No such file or directory (os error 2)"
  | .notText => "stream did not contain valid UTF-8"
  | .isDirectory => "Is a directory (os error 21)"
  | .notDirectory => "Not a directory (os error 20)"
  | .nameTooLong => "File name too long (os error 36)"
  | .zeroInName => "file name contained an unexpected NUL byte"
  | .other text => text

/-- The error of a code of the system, for the codes that have one here. -/
def FileError.ofCode? (code : UInt32) : Option FileError :=
  if code = 2 then some .notFound
  else if code = 20 then some .notDirectory
  else if code = 21 then some .isDirectory
  else if code = 36 then some .nameTooLong
  else none

/-- The files under their names. A name is a path from the working directory, or from the root. -/
structure Files where
  content : String → Except FileError ByteArray
  /-- The number of directories above the working directory. -/
  above : Nat

/-- The text of a file. -/
def Files.text (files : Files) (name : String) : Except FileError String := do
  let bytes ← files.content name
  match String.fromUTF8? bytes with
  | some text => return text
  | none => throw .notText

/-- The files of a list, in a directory with none above it; the first one of a name counts. -/
def Files.ofList (contents : List (String × Except FileError ByteArray)) : Files :=
  ⟨fun name => (contents.lookup name).getD (.error .notFound), 0⟩

/-! ### The directories above -/

/-- The paths of the name in the working directory and in each of those above it. -/
def Files.upward (files : Files) (name : String) : List String :=
  (List.range (files.above + 1)).map fun steps => String.join (List.replicate steps "../") ++ name

/-- The content of the first of the paths that is a file. A path where nothing is, or a directory,
is passed over; anything else that is wrong with one ends the search. -/
def Files.first? (files : Files) : List String → Option ByteArray
  | [] => none
  | path :: rest =>
    match files.content path with
    | .ok content => some content
    | .error .notFound | .error .isDirectory => files.first? rest
    | .error _ => none

/-- The content of the nearest file of the name, from the working directory upwards. -/
def Files.nearest? (files : Files) (name : String) : Option ByteArray :=
  files.first? (files.upward name)

end HopQuery
