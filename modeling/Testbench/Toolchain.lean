import Testbench.Image.Basic

namespace Testbench

structure Assembler where
  command : String
  march : String
  deriving DecidableEq, Repr

namespace Assembler

def defaultMarch : String := "rv32im"

def ofCommand (command : String) : Assembler :=
  ⟨command, defaultMarch⟩

def ofCommand? (command : String) : Except String Assembler :=
  if command = "" then .error "assembler command cannot be empty" else .ok (ofCommand command)

def input (source : String) : String :=
  if source.toList.getLast? = some '\n' then source else source ++ "\n"

def invocation (assembler : Assembler) (object source : String) : Invocation where
  command := assembler.command
  arguments := ["-march=" ++ assembler.march, "-o", object]
  input := input source

def run (assembler : Assembler) (host : Host) (call : Invocation) : Except Failure Host :=
  match host.launch call with
  | .error cause => .error (.toolSpawn assembler.command cause)
  | .ok done =>
      if done.code = some 0 then .ok (host.after call)
      else .error (.assemblerFailed done.code done.stderr)

def assemble (assembler : Assembler) (host : Host) (object source : String) :
    Except Failure Host := do
  let files ← (host.files.write object #[]).mapError .access
  assembler.run { host with files } (assembler.invocation object source)

end Assembler

structure Toolchain where
  assembler : Assembler
  lister : Lister
  deriving DecidableEq, Repr

namespace Toolchain

def ofStem (stem : String) : Toolchain where
  assembler := .ofCommand (stem ++ "as")
  lister := ⟨stem ++ "readelf"⟩

def defaultStem : String := "riscv64-unknown-elf-"

def source (tools : Toolchain) : SectionSource :=
  .listed tools.lister

def require (host : Host) (command : String) : Except Failure Unit :=
  if host.finds command then .ok () else .error (.toolNotFound command)

def verify (tools : Toolchain) (host : Host) : Except Failure Unit := do
  require host tools.assembler.command
  require host tools.lister.command

def assembleInto {μ : Type} [WordSink μ] (tools : Toolchain) (host : Host)
    (object source : String) (memory : μ) : μ × Except Failure Image :=
  match tools.assembler.assemble host object source with
  | .error e => (memory, .error e)
  | .ok host =>
      Image.loadInto host { LoadConfig.riscvTests with source := tools.source } object memory

end Toolchain

end Testbench
