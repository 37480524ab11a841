import Testbench.Json.Token
import Testbench.Trace.Record

namespace Testbench

inductive Record.Field where
  | cycle
  | pc
  | insn
  | status
  deriving DecidableEq, Repr

def Record.Field.all : List Record.Field :=
  [.cycle, .pc, .insn, .status]

def Record.Field.key : Record.Field → String
  | .cycle => "cycle"
  | .pc => "trace_writeback_pc"
  | .insn => "trace_writeback_insn"
  | .status => "trace_writeback_cycle_status"

def Status.text : Status → List Char
  | .raw bits => Numeral.decimal bits.toNat
  | .symbolic names => Json.quoted names.toList

def Record.text (r : Record) : Record.Field → List Char
  | .cycle => Numeral.decimal r.cycle.toNat
  | .pc => Json.quoted (Numeral.hexMarked r.pc.toNat)
  | .insn => Json.quoted (Numeral.hexMarkedPadded 8 r.insn.toNat)
  | .status => r.status.text

def Record.member (r : Record) (f : Record.Field) : List Char :=
  "    ".toList ++ Json.quoted f.key.toList ++ ": ".toList ++ r.text f

def Record.object (r : Record) : List Char :=
  "  \x7b\n".toList ++ ",\n".toList.intercalate (Record.Field.all.map r.member) ++ "\n  \x7d".toList

namespace Trace

def text (t : Trace) : List Char :=
  if t.records.toList = [] then "[]\n".toList
  else
    "[\n".toList ++ ",\n".toList.intercalate (t.records.toList.map Record.object) ++
      "\n]\n".toList

def bytes (t : Trace) : List UInt8 :=
  Text.Utf8.encode t.text

end Trace

end Testbench
