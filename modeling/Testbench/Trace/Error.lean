import Testbench.Host.FileError
import Testbench.Json.Token

namespace Testbench

inductive TraceField where
  | pc
  | insn
  | status
  deriving DecidableEq, Repr

def TraceField.title : TraceField → String
  | .pc => "writeback PC"
  | .insn => "writeback insn"
  | .status => "writeback cycle status"

inductive TraceError where
  | mismatch (cycle : UInt64) (field : TraceField) (expected actual : String)
  | exhausted (index length : Nat)
  | unknownFlag (flag table : String)
  | enumNotFound (name : String)
  | invalidEnumValue (name literal : String)
  | missingEnumTable
  | access (cause : FileError)
  | json (fault : Json.Fault)
  | unreadable (cause : FileError)
  deriving DecidableEq, Repr

def TraceError.message : TraceError → String
  | .mismatch cycle field expected actual =>
      "trace mismatch at cycle " ++ toString cycle ++ ": " ++ field.title ++ " expected " ++
        expected ++ " but was " ++ actual
  | .exhausted index length =>
      "reference trace has " ++ toString length ++ " records, no record at index " ++
        toString index
  | .unknownFlag flag table => "unknown flag " ++ flag ++ " in " ++ table
  | .enumNotFound name => "no typedef enum named " ++ name
  | .invalidEnumValue name literal => "enum member " ++ name ++ " has non-integer value " ++ literal
  | .missingEnumTable => "symbolic cycle status requires an enum table"
  | .access cause => "IO error: " ++ cause.message
  | .json fault => "trace JSON error: " ++ fault.message
  | .unreadable cause => "trace JSON error: " ++ cause.message

end Testbench
