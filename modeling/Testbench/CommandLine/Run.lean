import Testbench.CommandLine.Command
import Testbench.Image.Basic
import Testbench.Image.HexFile
import Testbench.Trace.Session

namespace Testbench.CommandLine

structure Outcome where
  code : Nat
  stdout : String
  stderr : String
  files : Files

def line (s : String) : String :=
  s ++ "\n"

def padLeft (width : Nat) (s : String) : String :=
  .ofList (s.toList.leftpad width ' ')

def padRight (width : Nat) (s : String) : String :=
  .ofList (s.toList.rightpad width ' ')

def hexField (width n : Nat) : String :=
  .ofList (Numeral.hexPadded width n)

/-- A named value at the end of a line of the log: the name in italics, the sign dimmed. -/
def logField (name value : String) : String :=
  " \x1b[3m" ++ name ++ "\x1b[0m\x1b[2m=\x1b[0m" ++ value

def logOf : BinaryError → String
  | .toolFailed tool _ stderr =>
      line ("ERROR " ++ String.ofList (Text.trimRight stderr.toList) ++ logField "tool" tool)
  | _ => ""

namespace Outcome

def success (files : Files) (stdout stderr : String) : Outcome :=
  ⟨0, stdout, stderr, files⟩

def failure (files : Files) (message : String) : Outcome :=
  ⟨1, "", line message, files⟩

def logged (log : String) (outcome : Outcome) : Outcome :=
  { outcome with stderr := log ++ outcome.stderr }

def failed (files : Files) (e : Failure) : Outcome :=
  match e with
  | .binary cause => (failure files ("Error: " ++ e.message)).logged (logOf cause)
  | _ => failure files ("Error: " ++ e.message)

def ofExcept {α : Type} (files : Files) (result : Except Failure α) (k : α → Outcome) : Outcome :=
  match result with
  | .ok a => k a
  | .error e => failed files e

end Outcome

def sectionLine (index name kind address offset size entrySize : String) : String :=
  line (padLeft 4 index ++ "  " ++ padRight 20 name ++ " " ++ padRight 16 kind ++ " " ++
    padLeft 10 address ++ " " ++ padLeft 8 offset ++ " " ++ padLeft 8 size ++ " " ++
    padLeft 4 entrySize)

def sectionRow (s : Section) : String :=
  sectionLine (toString s.index) s.name s.kind (hexField 8 s.address) (hexField 6 s.offset)
    (hexField 6 s.size) (hexField 2 s.entrySize)

def runSections (host : Host) (input : String) (source : SectionSource) : Outcome :=
  let files := (source.after host input).files
  match Binary.sectionTable host source input with
  | .error e => (Outcome.failure files ("Error reading sections: " ++ e.message)).logged (logOf e)
  | .ok table =>
      .success files
        (sectionLine "Nr" "Name" "Type" "Addr" "Off" "Size" "ES" ++
          String.join (table.toList.map sectionRow)) ""

def runHexfile (host : Host) (input output : String) (maxWords : Nat)
    (sections : Option (List String)) (translate : Bool) (source : SectionSource) : Outcome :=
  let config : LoadConfig :=
    { sections := sections.getD LoadConfig.firmware.sections, translate, source }
  match Image.writeHexFile host config input output maxWords with
  | (files, .error e) => .failed files e
  | (files, .ok image) =>
      .success files "" (line ("Wrote " ++ toString image.wordCount ++ " words from " ++
        toString image.blocks.length ++ " sections to " ++ output))

def runDump (host : Host) (input name : String) (source : SectionSource) : Outcome :=
  let files := (source.after host input).files
  .ofExcept files (Image.dumpSection host source input name) fun words =>
    .success files (String.join (words.toList.map fun w => line (hexField 8 w.toNat))) ""

def runDecode (files : Files) (status : UInt32) (enumFile enumName : String) : Outcome :=
  .ofExcept files ((FlagTable.ofFile files enumFile enumName).mapError .trace) fun table =>
    .success files (line (table.decode status)) ""

def encodeNames (files : Files) (names enumFile enumName : String) : Except TraceError UInt32 := do
  (← FlagTable.ofFile files enumFile enumName).encode names

def runEncode (files : Files) (names enumFile enumName : String) : Outcome :=
  .ofExcept files ((encodeNames files names enumFile enumName).mapError .trace) fun status =>
    .success files
      (line (toString status ++ " (" ++ String.ofList (Numeral.hexMarked status.toNat) ++ ")")) ""

def recordLine (cycle pc insn status : String) : String :=
  line (padLeft 10 cycle ++ "  " ++ padRight 10 pc ++ "  " ++ padRight 10 insn ++ "  " ++ status)

def recordRow (table : Option FlagTable) (r : Record) : String :=
  recordLine (toString r.cycle) (Record.showPc r.pc) (hexField 8 r.insn.toNat)
    (r.status.describe table)

def optionalTable (files : Files) (enumFile : Option String) (enumName : String) :
    Except TraceError (Option FlagTable) :=
  match enumFile with
  | some file => (FlagTable.ofFile files file enumName).map some
  | none => .ok none

def traceWithTable (files : Files) (trace : String) (enumFile : Option String)
    (enumName : String) : Except TraceError (Trace × Option FlagTable) := do
  let t ← Trace.load files trace
  return (t, ← optionalTable files enumFile enumName)

def runShow (files : Files) (trace : String) (enumFile : Option String) (enumName : String) :
    Outcome :=
  .ofExcept files ((traceWithTable files trace enumFile enumName).mapError .trace)
    fun (t, table) =>
      .success files
        (recordLine "cycle" "pc" "insn" "status" ++
          String.join (t.records.toList.map (recordRow table)))
        (line (toString t.size ++ " records"))

def migrated (files : Files) (trace enumFile enumName : String) : Except TraceError Trace := do
  let table ← FlagTable.ofFile files enumFile enumName
  let t ← Trace.load files trace
  t.migrate table

def runMigrate (files : Files) (trace output enumFile enumName : String) : Outcome :=
  .ofExcept files ((migrated files trace enumFile enumName).mapError .trace) fun t =>
    .ofExcept files ((t.save files output).mapError .trace) fun files =>
      .success files "" (line ("Migrated " ++ toString t.size ++
        " records to raw status values in " ++ output))

def Command.run (host : Host) : Command → Outcome
  | .sections input source => runSections host input source
  | .hexfile input output maxWords names translate source =>
      runHexfile host input output maxWords names translate source
  | .dump input name source => runDump host input name source
  | .decodeStatus status enumFile enumName => runDecode host.files status enumFile enumName
  | .encodeStatus names enumFile enumName => runEncode host.files names enumFile enumName
  | .showTrace trace enumFile enumName => runShow host.files trace enumFile enumName
  | .migrateTrace trace output enumFile enumName =>
      runMigrate host.files trace output enumFile enumName

def Halt.outcome (files : Files) : Halt → Outcome
  | .usage => ⟨2, "", line "error: see --help for the commands and their arguments", files⟩
  | .version => .success files (line "rvtb 0.1.0") ""
  | .help => .success files (line
      "Usage: rvtb [-v | -s] (sections | hexfile | dump | status | trace) ARGUMENTS") ""

def run (host : Host) (args : List String) : Outcome :=
  match Command.ofArguments args with
  | .ok command => command.run host
  | .error halt => halt.outcome host.files

end Testbench.CommandLine
