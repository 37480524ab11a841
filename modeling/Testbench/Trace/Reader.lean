import Testbench.Json.Scanner
import Testbench.Text.Blank
import Testbench.Trace.Writer

namespace Testbench

def parseHex (text : List Char) : Option UInt32 :=
  let text := Text.trim text
  Numeral.word? 16 ((Numeral.hexDigits? text).getD text)

structure Draft where
  cycle : Option UInt64
  pc : Option UInt32
  insn : Option UInt32
  status : Option Status
  deriving DecidableEq, Repr

namespace Draft

def blank : Draft :=
  ⟨none, none, none, none⟩

def has (d : Draft) : Record.Field → Bool
  | .cycle => d.cycle.isSome
  | .pc => d.pc.isSome
  | .insn => d.insn.isSome
  | .status => d.status.isSome

def set? (d : Draft) : Record.Field → Json.Scalar → Option Draft
  | .cycle, .natural n => if n < UInt64.size then some { d with cycle := some (.ofNat n) } else none
  | .pc, .text s => (parseHex s.toList).map fun pc => { d with pc := some pc }
  | .insn, .text s => (parseHex s.toList).map fun insn => { d with insn := some insn }
  | .status, .natural n =>
      if n < UInt32.size then some { d with status := some (.raw (.ofNat n)) } else none
  | .status, .text s => some { d with status := some (.symbolic s) }
  | _, _ => none

def record? (d : Draft) : Option Record := do
  return ⟨← d.cycle, ← d.pc, ← d.insn, ← d.status⟩

end Draft

def Record.Field.ofKey? (key : String) : Option Record.Field :=
  Record.Field.all.find? (·.key = key)

inductive Place where
  | start
  | records
  | listed (d : Draft) (rest : List Record.Field)
  | members (d : Draft)
  | member (d : Draft) (f : Record.Field)
  | composite (depth : Nat)
  | skipped (d : Draft) (depth : Nat)
  | finished
  deriving DecidableEq, Repr

namespace Place

def isSkipped : Place → Bool
  | .skipped .. => true
  | _ => false

def composed : Record.Field → Except Json.Fault Place
  | .status => .ok (.composite 1)
  | _ => .error .mismatched

def filled (d : Option Draft) (next : Draft → Place) : Except Json.Fault Place :=
  match d with
  | some d => .ok (next d)
  | none => .error .mismatched

def atKey (d : Draft) (key : String) : Except Json.Fault Place :=
  match Record.Field.ofKey? key with
  | some f => if d.has f then .error .mismatched else .ok (.member d f)
  | none => .ok (.skipped d 0)

end Place

structure TraceReader where
  records : Array Record
  place : Place
  scanner : Json.Scanner
  deriving DecidableEq, Repr

namespace TraceReader

def start : TraceReader :=
  ⟨#[], .start, .start⟩

def moved (r : TraceReader) (place : Except Json.Fault Place) : Except Json.Fault TraceReader :=
  place.map fun place => { r with place }

def complete (r : TraceReader) (d : Draft) : Except Json.Fault TraceReader :=
  match d.record? with
  | some record => .ok { r with records := r.records.push record, place := .records }
  | none => .error .mismatched

def accept (r : TraceReader) (e : Json.Event) : Except Json.Fault TraceReader :=
  match r.place, e with
  | .start, .opened .array => .ok { r with place := .records }
  | .start, _ => .error .mismatched
  | .records, .opened .array => .ok { r with place := .listed .blank Record.Field.all }
  | .records, .opened .object => .ok { r with place := .members .blank }
  | .records, .separator => .ok r
  | .records, .closed => .ok { r with place := .finished }
  | .records, _ => .error .mismatched
  | .listed d [], .closed => r.complete d
  | .listed _ [], _ => .error .malformed
  | .listed _ (_ :: _), .separator => .ok r
  | .listed d (f :: rest), .scalar v => r.moved (Place.filled (d.set? f v) fun d => .listed d rest)
  | .listed _ (f :: _), .opened _ => r.moved (Place.composed f)
  | .listed _ (_ :: _), _ => .error .mismatched
  | .members d, .key key => r.moved (Place.atKey d key)
  | .members _, .separator => .ok r
  | .members d, .closed => r.complete d
  | .members _, _ => .error .malformed
  | .member d f, .scalar v => r.moved (Place.filled (d.set? f v) .members)
  | .member _ f, .opened _ => r.moved (Place.composed f)
  | .member _ _, _ => .error .malformed
  | .composite depth, .opened _ => .ok { r with place := .composite (depth + 1) }
  | .composite depth, .closed =>
      if depth ≤ 1 then .error .mismatched else .ok { r with place := .composite (depth - 1) }
  | .composite _, _ => .ok r
  | .skipped d depth, .opened _ => .ok { r with place := .skipped d (depth + 1) }
  | .skipped d depth, .closed =>
      .ok { r with place := if depth ≤ 1 then .members d else .skipped d (depth - 1) }
  | .skipped d 0, .scalar _ => .ok { r with place := .members d }
  | .skipped _ _, _ => .ok r
  | .finished, _ => .error .malformed

def take (r : TraceReader) (step : Except Json.Fault (Json.Scanner × List Json.Event)) :
    Except Json.Fault TraceReader :=
  match step with
  | .ok (scanner, events) => events.foldlM accept { r with scanner }
  | .error fault => .error fault

def step (r : TraceReader) (b : UInt8) : Except Json.Fault TraceReader := do
  let r ← r.take (r.scanner.settle r.place.isSkipped b)
  r.take (r.scanner.step r.place.isSkipped b)

def run (r : TraceReader) (bs : List UInt8) : Except Json.Fault TraceReader :=
  bs.foldlM step r

theorem run_append (r : TraceReader) (as bs : List UInt8) :
    r.run (as ++ bs) = r.run as >>= fun r => r.run bs := by
  simp [run, List.foldlM_append]

def finish (r : TraceReader) : Except Json.Fault Trace :=
  match r.scanner.finish r.place.isSkipped with
  | .error fault => .error fault
  | .ok events =>
      match events.foldlM accept r with
      | .error fault => .error fault
      | .ok r => if r.place = .finished then .ok ⟨r.records⟩ else .error .truncated

end TraceReader

namespace Trace

def read (bs : List UInt8) : Except Json.Fault Trace :=
  TraceReader.start.run bs >>= TraceReader.finish

end Trace

end Testbench
