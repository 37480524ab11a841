import Testbench.Text.Blank
import Testbench.Trace.Error

namespace Testbench

structure FlagTable where
  name : String
  entries : List (String × UInt32)
  deriving DecidableEq, Repr

namespace FlagTable

def value? (t : FlagTable) (flag : String) : Option UInt32 :=
  t.entries.lookup flag

def decodeNames (t : FlagTable) (status : UInt32) : List String :=
  (t.entries.filter fun entry => status &&& entry.2 ≠ 0).map Prod.fst

def decode (t : FlagTable) (status : UInt32) : String :=
  String.intercalate "," (t.decodeNames status)

def namesOf (list : String) : List String :=
  ((list.toList.splitOn ',').map Text.trim).filter (· ≠ []) |>.map String.ofList

def encodeName (t : FlagTable) (status : UInt32) (flag : String) : Except TraceError UInt32 :=
  match t.value? flag with
  | some bits => .ok (status ||| bits)
  | none => .error (.unknownFlag flag t.name)

def encode (t : FlagTable) (list : String) : Except TraceError UInt32 :=
  (namesOf list).foldlM t.encodeName 0

end FlagTable

def describeStatus (table : Option FlagTable) (status : UInt32) : String :=
  match table with
  | some t => toString status ++ " (" ++ t.decode status ++ ")"
  | none => toString status

end Testbench
