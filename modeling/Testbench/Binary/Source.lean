import Testbench.Elf.Reader
import Testbench.Host.Basic
import Testbench.Listing.Table

namespace Testbench

structure Lister where
  command : String
  deriving DecidableEq, Repr

namespace Lister

def defaultCommand : String := "riscv64-unknown-elf-readelf"

def ofCommand? (command : String) : Except String Lister :=
  if command = "" then .error "readelf command cannot be empty" else .ok ⟨command⟩

def invocation (lister : Lister) (file : String) : Invocation where
  command := lister.command
  arguments := ["--wide", "--sections", file]
  input := ""

def table (lister : Lister) (host : Host) (file : String) : Except BinaryError SectionTable :=
  match host.launch (lister.invocation file) with
  | .error cause => .error (.toolSpawn lister.command cause)
  | .ok done =>
      if done.code = some 0 then .ok (Listing.table done.stdout)
      else .error (.toolFailed lister.command done.code done.stderr)

end Lister

inductive SectionSource where
  | native
  | listed (lister : Lister)
  deriving DecidableEq, Repr

def SectionSource.default : SectionSource :=
  .listed ⟨Lister.defaultCommand⟩

namespace Binary

def sectionTable (host : Host) (source : SectionSource) (file : String) :
    Except BinaryError SectionTable :=
  match host.files.lookup file with
  | .error _ => .error (.binaryNotFound file)
  | .ok node =>
      match source with
      | .native => (node.contents.mapError .access).bind Elf.readTable
      | .listed lister => lister.table host file

end Binary

/-- The surroundings once a source has been asked about a file. A program that lists sections may
write files. -/
def SectionSource.after (source : SectionSource) (host : Host) (file : String) : Host :=
  match source, host.files.lookup file with
  | .listed lister, .ok _ => host.after (lister.invocation file)
  | _, _ => host

theorem SectionSource.sameSystem_after (source : SectionSource) (host : Host) (file : String) :
    (source.after host file).files.SameSystem host.files := by
  simp only [SectionSource.after]
  split
  · exact host.sameSystem_after _
  · exact .refl host.files

end Testbench
