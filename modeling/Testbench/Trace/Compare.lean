import Testbench.Numeral
import Testbench.Trace.Record

namespace Testbench

def FlagTable.sortNames (names : List String) : List String :=
  names.mergeSort fun a b => a ≤ b

def FlagTable.matchesNames (t : FlagTable) (names : String) (status : UInt32) :
    Except TraceError Bool := do
  let _ ← t.encode names
  return sortNames (namesOf names).eraseDups = sortNames (t.decodeNames status)

def Status.agrees (table : Option FlagTable) (expected : Status) (status : UInt32) :
    Except TraceError Bool :=
  match expected, table with
  | .raw bits, _ => .ok (bits = status)
  | .symbolic _, none => .error .missingEnumTable
  | .symbolic names, some t => t.matchesNames names status

namespace Record

def showPc (pc : UInt32) : String :=
  .ofList (Numeral.hexMarked pc.toNat)

def showInsn (insn : UInt32) : String :=
  .ofList (Numeral.hexMarkedPadded 8 insn.toNat)

def compare (table : Option FlagTable) (expected : Record) (state : Writeback) :
    Except TraceError Unit :=
  if expected.pc ≠ state.pc then
    .error (.mismatch expected.cycle .pc (showPc expected.pc) (showPc state.pc))
  else if expected.insn ≠ state.insn then
    .error (.mismatch expected.cycle .insn (showInsn expected.insn) (showInsn state.insn))
  else
    match expected.status.agrees table state.status with
    | .error e => .error e
    | .ok true => .ok ()
    | .ok false =>
        .error (.mismatch expected.cycle .status (expected.status.describe table)
          (describeStatus table state.status))

end Record

end Testbench
