import Testbench.Flags.Table

namespace Testbench

structure Writeback where
  cycle : UInt64
  pc : UInt32
  insn : UInt32
  status : UInt32
  deriving DecidableEq, Repr

inductive Status where
  | raw (bits : UInt32)
  | symbolic (names : String)
  deriving DecidableEq, Repr

def Status.bits (table : Option FlagTable) : Status → Except TraceError UInt32
  | .raw bits => .ok bits
  | .symbolic names =>
      match table with
      | some t => t.encode names
      | none => .error .missingEnumTable

def Status.describe (table : Option FlagTable) : Status → String
  | .raw bits => describeStatus table bits
  | .symbolic names => names

structure Record where
  cycle : UInt64
  pc : UInt32
  insn : UInt32
  status : Status
  deriving DecidableEq, Repr

structure Trace where
  records : Array Record
  deriving DecidableEq, Repr

namespace Trace

def empty : Trace :=
  ⟨#[]⟩

def size (t : Trace) : Nat :=
  t.records.size

def isEmpty (t : Trace) : Bool :=
  t.records.isEmpty

def get? (t : Trace) (index : Nat) : Option Record :=
  t.records[index]?

def push (t : Trace) (r : Record) : Trace :=
  ⟨t.records.push r⟩

def last? (t : Trace) : Option Record :=
  t.records.back?

end Trace

end Testbench
