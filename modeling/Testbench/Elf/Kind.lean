import Testbench.Numeral

namespace Testbench.Elf

def progbits : Nat := 1

def strtab : Nat := 3

def nobits : Nat := 8

def kindName (code : Nat) : String :=
  match code with
  | 0 => "NULL"
  | 1 => "PROGBITS"
  | 2 => "SYMTAB"
  | 3 => "STRTAB"
  | 4 => "RELA"
  | 5 => "HASH"
  | 6 => "DYNAMIC"
  | 7 => "NOTE"
  | 8 => "NOBITS"
  | 9 => "REL"
  | 10 => "SHLIB"
  | 11 => "DYNSYM"
  | 14 => "INIT_ARRAY"
  | 15 => "FINI_ARRAY"
  | 16 => "PREINIT_ARRAY"
  | 17 => "GROUP"
  | 0x70000003 => "RISCV_ATTRIBUTES"
  | code => .ofList (Numeral.hexMarked code)

end Testbench.Elf
