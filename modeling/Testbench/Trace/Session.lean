import Testbench.Host.Files
import Testbench.Trace.Compare
import Testbench.Trace.Reader

namespace Testbench

inductive TraceMode where
  | off
  | generate
  | compare
  deriving DecidableEq, Repr

namespace TraceMode

def ofName (name : Option String) : TraceMode :=
  match name.map Text.trimString with
  | some "generate" => .generate
  | some "compare" => .compare
  | _ => .off

def name : TraceMode → String
  | .off => "off"
  | .generate => "generate"
  | .compare => "compare"

end TraceMode

inductive StatusFormat where
  | raw
  | symbolic
  deriving DecidableEq, Repr

structure TraceSettings where
  mode : TraceMode
  format : StatusFormat
  table : Option FlagTable
  deriving DecidableEq, Repr

def TraceSettings.status (s : TraceSettings) (bits : UInt32) : Except TraceError Status :=
  match s.format, s.table with
  | .raw, _ => .ok (.raw bits)
  | .symbolic, some t => .ok (.symbolic (t.decode bits))
  | .symbolic, none => .error .missingEnumTable

def TraceSettings.capture (s : TraceSettings) (state : Writeback) : Except TraceError Record :=
  (s.status state.status).map fun status => ⟨state.cycle, state.pc, state.insn, status⟩

namespace Trace

def step (settings : TraceSettings) (t : Trace) (index : Nat) (state : Writeback) :
    Trace × Except TraceError Unit :=
  match settings.mode with
  | .off => (t, .ok ())
  | .generate =>
      match settings.capture state with
      | .ok r => (t.push r, .ok ())
      | .error e => (t, .error e)
  | .compare =>
      match t.get? index with
      | some expected => (t, expected.compare settings.table state)
      | none => (t, .error (.exhausted index t.size))

/-- A directory can be opened but not read. -/
def load (files : Files) (file : String) : Except TraceError Trace :=
  match files.lookup file with
  | .error cause => .error (.access cause)
  | .ok node =>
      match node.contents with
      | .error cause => .error (.unreadable cause)
      | .ok data => (read data.toList).mapError .json

def save (t : Trace) (files : Files) (file : String) : Except TraceError Files :=
  (files.write file t.bytes.toArray).mapError .access

def migrateRecord (table : FlagTable) (r : Record) : Except TraceError Record :=
  (r.status.bits (some table)).map fun bits => { r with status := .raw bits }

def migrate (table : FlagTable) (t : Trace) : Except TraceError Trace :=
  (t.records.toList.mapM (migrateRecord table)).map fun records => ⟨records.toArray⟩

def fileName? (path : List Char) : Option (List Char) :=
  match ((path.splitOn '/').filter fun part => part ≠ [] && part ≠ ['.']).getLast? with
  | some part => if part = ['.', '.'] then none else some part
  | none => none

def fileName (binary : String) (variant : Option String) : String :=
  let name := String.ofList ((fileName? binary.toList).getD binary.toList)
  match variant with
  | some variant => "trace-" ++ variant ++ "-" ++ name ++ ".json"
  | none => "trace-" ++ name ++ ".json"

end Trace

structure TraceSession where
  settings : TraceSettings
  trace : Trace
  file : String
  deriving DecidableEq, Repr

namespace TraceSession

def openFile (files : Files) (settings : TraceSettings) (file : String) :
    Except TraceError TraceSession :=
  match settings.mode with
  | .compare => (Trace.load files file).map fun trace => ⟨settings, trace, file⟩
  | _ => .ok ⟨settings, .empty, file⟩

def inDirectory (directory name : String) : String :=
  if directory = "" then name
  else if directory.toList.getLast? = some '/' then directory ++ name
  else directory ++ "/" ++ name

def forBinary (files : Files) (settings : TraceSettings) (directory binary : String)
    (variant : Option String) : Except TraceError TraceSession :=
  openFile files settings (inDirectory directory (Trace.fileName binary variant))

def step (s : TraceSession) (index : Nat) (state : Writeback) :
    TraceSession × Except TraceError Unit :=
  let (trace, result) := s.trace.step s.settings index state
  ({ s with trace }, result)

def finish (s : TraceSession) (files : Files) : Files × Except TraceError Trace :=
  match s.settings.mode with
  | .generate =>
      match s.trace.save files s.file with
      | .ok files => (files, .ok s.trace)
      | .error e => (files, .error e)
  | _ => (files, .ok s.trace)

end TraceSession

end Testbench
