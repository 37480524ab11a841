import Testbench.Binary.Source

namespace Testbench

structure LoadConfig where
  sections : List String
  translate : Bool
  source : SectionSource
  deriving DecidableEq, Repr

namespace LoadConfig

def riscvTests : LoadConfig where
  sections := [".text.init", ".text", ".text.startup", ".data", ".tohost", ".rodata",
    ".rodata.str1.4", ".sbss", ".bss", ".tbss"]
  translate := true
  source := .default

def firmware : LoadConfig where
  sections := [".start", ".text", ".rodata", ".eh_frame"]
  translate := false
  source := .default

def linkerBase : Nat := 0x80000000

def translateAddress (address : Nat) : Nat :=
  if linkerBase ≤ address then address - linkerBase else address

def targetAddress (config : LoadConfig) (address : Nat) : Nat :=
  if config.translate then translateAddress address else address

end LoadConfig

end Testbench
