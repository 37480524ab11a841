import Testbench.CommandLine.Run

namespace Testbench.CommandLine

def Command.inputs : Command → List String
  | .sections input _ => [input]
  | .hexfile input .. => [input]
  | .dump input .. => [input]
  | .decodeStatus _ enumFile _ => [enumFile]
  | .encodeStatus _ enumFile _ => [enumFile]
  | .showTrace trace enumFile _ => trace :: enumFile.toList
  | .migrateTrace trace _ enumFile _ => [trace, enumFile]

def Command.output? : Command → Option String
  | .hexfile _ output .. => some output
  | .migrateTrace _ output .. => some output
  | _ => none

def placesOf (working : Location) (name : String) : List Location :=
  match Path.ofString name with
  | .ok path =>
      let origin := if path.absolute then [] else working
      (List.range (path.parts.length + 1)).map fun n => (path.parts.take n).foldl Files.move origin
  | .error _ => []

def absolutePath (place : Location) : String :=
  "/" ++ String.intercalate "/" place

def readFile (path : String) : IO (Option Node) := do
  try return some (.file (← IO.FS.readBinFile path).data)
  catch _ => return none

def findDirectory (path : String) : IO (Option Node) := do
  try
    let _ ← IO.FS.realPath path
    return some .directory
  catch _ => return none

/-- What stands at a place now; what is there and is no file that can be read counts as a
directory. -/
def nodeAt (place : Location) : IO (Option Node) := do
  match ← readFile (absolutePath place) with
  | some node => return some node
  | none => findDirectory (absolutePath place)

def filesFor (command : Command) : IO Files := do
  let working := Path.names (toString (← IO.currentDir)).toList
  let places := (command.inputs ++ command.output?.toList).flatMap (placesOf working)
  let nodes ← places.eraseDups.filterMapM fun place => do
    return (← nodeAt place).map (place, ·)
  return { working, node? := fun place => nodes.lookup place }

/-- Programs are not started from here, so a listing program counts as missing. -/
def hostFor (command : Command) : IO Host := do
  return ⟨← filesFor command, [], fun _ => none⟩

def writeOutput (files : Files) (name : String) : IO Unit := do
  match files.read name with
  | .ok data => IO.FS.writeBinFile name ⟨data⟩
  | .error _ => return

def execute (command : Command) : IO Outcome := do
  let outcome := command.run (← hostFor command)
  if outcome.code = 0 then command.output?.toList.forM (writeOutput outcome.files)
  return outcome

end Testbench.CommandLine

open Testbench Testbench.CommandLine in
def main (args : List String) : IO UInt32 := do
  let outcome ← match Command.ofArguments args with
    | .ok command => execute command
    | .error halt => pure (halt.outcome (.ofEntries [] [] []))
  IO.print outcome.stdout
  IO.eprint outcome.stderr
  return .ofNat outcome.code
