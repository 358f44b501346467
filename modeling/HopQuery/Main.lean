import HopQuery.CommandLine.Outcome

/-!
# The program

Reads the variables and the files that the command line asks for and prints its outcome.
-/

namespace HopQuery

/-- The content of a file of the system. -/
def readContent (name : String) : IO (Except FileError ByteArray) := do
  if name.toList.contains '\x00' then
    return .error .zeroInName
  try
    let handle ← IO.FS.Handle.mk name .read
    return .ok (← handle.readBinToEnd)
  catch error =>
    let code? := match error with
      | .noFileOrDirectory _ code _ | .inappropriateType _ code _ | .invalidArgument _ code _ =>
        some code
      | _ => none
    return .error ((code?.bind FileError.ofCode?).getD (.other error.toString))

/-- The number of directories above the working directory. -/
def directoriesAbove : IO Nat := do
  let names := (← IO.currentDir).toString.splitToList (· = '/')
  return (names.filter (· ≠ "")).length

/-- The environment of entries `KEY=VALUE`, each of them bytes. The first entry of a key counts; an
entry whose key is no text has no name. -/
def environmentOfEntries (entries : List (List UInt8)) : Environment :=
  entries.foldl (fun environment entry =>
    let key := entry.takeWhile (· ≠ 0x3D)
    match String.fromUTF8? key.toByteArray with
    | some name =>
      if environment.contains name then environment
      else environment.insert name (entry.drop (key.length + 1)).toByteArray
    | none => environment) .empty

/-- The environment of the process, from the file in which the system shows it with a zero byte
behind each entry. -/
def readEnvironment : IO Environment := do
  let block ← IO.FS.readBinFile "/proc/self/environ"
  let groups := block.toList.splitBy fun a b => a ≠ 0 && b ≠ 0
  return environmentOfEntries (groups.filter fun group => group ≠ [0])

/-- A new identifier, with the bits that mark it as a random one. -/
def freshId : IO HopId := do
  let bytes ← IO.getRandomBytes 16
  let word := bytes.toList.foldl (fun n byte => n * 256 + byte.toNat) 0
  -- The upper half ends in a 4 and twelve free bits; the lower half begins with a 1 and a 0.
  let half := Nat.pow 2 64
  let free := Nat.pow 2 12
  let upper := word / half / (free * 16) * (free * 16) + 4 * free + word / half % free
  let lower := word % Nat.pow 2 62 + Nat.pow 2 63
  return ⟨BitVec.ofNat 128 (upper * half + lower)⟩

/-- Runs a command line that was understood. -/
def perform (arguments : List String) (invocation : Invocation) : IO UInt32 := do
  let environment ← readEnvironment
  let above ← directoriesAbove
  let mut files : Files := { Files.ofList [] with above := above }
  let mut contents := []
  -- the files that settings lead to are known only once the files that have settings are read
  for _ in [0, 1] do
    for name in invocation.filesNeeded files environment do
      if (contents.lookup name).isNone then
        contents := (name, ← readContent name) :: contents
    files := { Files.ofList contents with above := above }
  let ids ← (List.range Settings.largestMaxHops).mapM fun _ => freshId
  let fresh (index : Nat) : HopId := ids[index]?.getD ⟨BitVec.ofNat 128 index⟩
  match Outcome.ofArguments arguments files environment fresh with
  | .printed text =>
    IO.print text
    return 0
  | .failed error =>
    IO.eprintln (error.line HopId.text)
    return 1
  | .refused => return 2

end HopQuery

/-- Runs the command line: 0 if it has printed, 1 if it has failed, 2 if it is refused. -/
def main (arguments : List String) : IO UInt32 := do
  match HopQuery.Invocation.parse? arguments with
  | some invocation => HopQuery.perform arguments invocation
  | none =>
    IO.eprintln "error: the arguments are refused"
    return 2
