import Testbench.Binary.Error
import Testbench.Memory.Basic
import Testbench.Trace.Error

namespace Testbench

inductive Failure where
  | binary (cause : BinaryError)
  | trace (cause : TraceError)
  | memory (cause : MemoryError)
  | access (cause : FileError)
  | capacityExceeded (block : String) (endWord maxWords : Nat)
  | toolSpawn (tool : String) (cause : FileError)
  | assemblerFailed (code : Option Nat) (stderr : String)
  | toolNotFound (tool : String)
  | sectionNotFound (name : String)
  deriving DecidableEq, Repr

def Failure.message : Failure → String
  | .binary cause => "ELF error: " ++ cause.message
  | .trace cause => "trace error: " ++ cause.message
  | .memory cause => "memory error: " ++ cause.message
  | .access cause => "IO error: " ++ cause.message
  | .capacityExceeded name endWord maxWords =>
      "section " ++ name ++ " reaches word " ++ toString endWord ++
        " but the image can only hold " ++ toString maxWords ++ " words"
  | .toolSpawn tool cause => "failed to run " ++ tool ++ ": " ++ cause.message
  | .assemblerFailed code stderr =>
      "assembler exited with status " ++ showExitCode code ++ ": " ++ stderr
  | .toolNotFound tool => tool ++ " not found in PATH"
  | .sectionNotFound name => "section " ++ name ++ " not found"

end Testbench
