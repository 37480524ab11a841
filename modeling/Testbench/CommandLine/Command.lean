import Testbench.CommandLine.Arguments
import Testbench.Flags.Source

namespace Testbench.CommandLine

inductive Command where
  | sections (input : String) (source : SectionSource)
  | hexfile (input output : String) (maxWords : Nat) (sections : Option (List String))
      (translate : Bool) (source : SectionSource)
  | dump (input name : String) (source : SectionSource)
  | decodeStatus (status : UInt32) (enumFile enumName : String)
  | encodeStatus (names enumFile enumName : String)
  | showTrace (trace : String) (enumFile : Option String) (enumName : String)
  | migrateTrace (trace output enumFile enumName : String)
  deriving DecidableEq, Repr

def flag (name : String) : OptionSpec :=
  ⟨name, none, .flag⟩

def valued (name : String) (kind : ValueKind) : OptionSpec :=
  ⟨name, none, .value kind⟩

def outputOption : OptionSpec :=
  ⟨"output", some 'o', .value .path⟩

def globalOptions : List OptionSpec :=
  [⟨"verbose", some 'v', .flag⟩, ⟨"silent", some 's', .flag⟩, ⟨"help", some 'h', .halt .help⟩]

def sourceOptions : List OptionSpec :=
  [flag "native", valued "readelf" .lister]

def enumOptions : List OptionSpec :=
  [valued "enum-file" .path, valued "enum-name" .text]

def branch (options : List OptionSpec) (commands : List String) : Level :=
  ⟨globalOptions ++ options, [], commands⟩

def leaf (options : List OptionSpec) (argument : ValueKind) : Level :=
  ⟨globalOptions ++ options, [argument], []⟩

def Given.settled (g : Given) : Except Halt Given :=
  if g.has "verbose" && g.has "silent" then .error .usage else .ok g

def Level.read (l : Level) (args : List String) : Except Halt Given := do
  (← l.scan none .empty args).settled

def commandsOf : String → List String
  | "status" => ["decode", "encode", "help"]
  | "trace" => ["show", "migrate", "help"]
  | _ => []

def helpOn (commands : List String) : List String → Halt
  | [] => .help
  | name :: names => if commands.contains name then helpOn (commandsOf name) names else .usage

def Level.readCommand {α : Type} (l : Level) (read : String → List String → Except Halt α)
    (args : List String) : Except Halt α := do
  let g ← l.scan none .empty args
  let command ← match g.command with
    | some ("help", names) => .error (helpOn l.commands names)
    | some (name, rest) => read name rest
    | none => .error .usage
  let _ ← g.settled
  return command

namespace Given

def text? (g : Given) (name : String) : Option String :=
  match g.values.lookup name with
  | some (.text s) => some s
  | _ => none

def textD (g : Given) (name default : String) : String :=
  (g.text? name).getD default

def lister? (g : Given) (name : String) : Option Lister :=
  match g.values.lookup name with
  | some (.lister l) => some l
  | _ => none

def countD (g : Given) (name : String) (default : Nat) : Nat :=
  match g.values.lookup name with
  | some (.count n) => n
  | _ => default

def textArgument (g : Given) : Except Halt String :=
  match g.arguments with
  | [.text s] => .ok s
  | _ => .error .usage

def statusArgument (g : Given) : Except Halt UInt32 :=
  match g.arguments with
  | [.status bits] => .ok bits
  | _ => .error .usage

def enumFile (g : Given) : Except Halt String :=
  match g.text? "enum-file" with
  | some file => .ok file
  | none => .error .usage

def enumName (g : Given) : String :=
  g.textD "enum-name" FlagTable.statusName

def source (g : Given) : Except Halt SectionSource :=
  match g.has "native", g.lister? "readelf" with
  | true, some _ => .error .usage
  | true, none => .ok .native
  | false, some lister => .ok (.listed lister)
  | false, none => .ok .default

def listed : String × Value → List String
  | (_, .names list) => list
  | _ => []

def sections? (g : Given) : Option (List String) :=
  if g.has "sections" then some ((g.values.filter (·.1 = "sections")).flatMap listed) else none

end Given

namespace Command

def readSections (args : List String) : Except Halt Command := do
  let g ← (leaf sourceOptions .path).read args
  return .sections (← g.textArgument) (← g.source)

def hexfileOptions : List OptionSpec :=
  [outputOption, valued "max-words" .count, ⟨"sections", none, .list .names⟩, flag "translate"] ++
    sourceOptions

def readHexfile (args : List String) : Except Halt Command := do
  let g ← (leaf hexfileOptions .path).read args
  return .hexfile (← g.textArgument) (g.textD "output" "mem_initial_contents.hex")
    (g.countD "max-words" 1024) g.sections? (g.has "translate") (← g.source)

def readDump (args : List String) : Except Halt Command := do
  let g ← (leaf (valued "section" .text :: sourceOptions) .path).read args
  return .dump (← g.textArgument) (g.textD "section" ".text") (← g.source)

def readDecode (args : List String) : Except Halt Command := do
  let g ← (leaf enumOptions .status).read args
  return .decodeStatus (← g.statusArgument) (← g.enumFile) g.enumName

def readEncode (args : List String) : Except Halt Command := do
  let g ← (leaf enumOptions .text).read args
  return .encodeStatus (← g.textArgument) (← g.enumFile) g.enumName

def readShow (args : List String) : Except Halt Command := do
  let g ← (leaf enumOptions .path).read args
  return .showTrace (← g.textArgument) (g.text? "enum-file") g.enumName

def readMigrate (args : List String) : Except Halt Command := do
  let g ← (leaf (outputOption :: enumOptions) .path).read args
  let trace ← g.textArgument
  return .migrateTrace trace (g.textD "output" trace) (← g.enumFile) g.enumName

def readStatus : String → List String → Except Halt Command
  | "decode", args => readDecode args
  | _, args => readEncode args

def readTrace : String → List String → Except Halt Command
  | "show", args => readShow args
  | _, args => readMigrate args

def ofName : String → List String → Except Halt Command
  | "sections", args => readSections args
  | "hexfile", args => readHexfile args
  | "dump", args => readDump args
  | "status", args => (branch [] (commandsOf "status")).readCommand readStatus args
  | _, args => (branch [] (commandsOf "trace")).readCommand readTrace args

def root : Level :=
  branch [⟨"version", some 'V', .halt .version⟩]
    ["sections", "hexfile", "dump", "status", "trace", "help"]

def ofArguments (args : List String) : Except Halt Command :=
  root.readCommand ofName args

end Command

end Testbench.CommandLine
