import Testbench.Host.FileError
import Testbench.Numeral

namespace Testbench

inductive BinaryError where
  | binaryNotFound (file : String)
  | access (cause : FileError)
  | toolSpawn (tool : String) (cause : FileError)
  | toolFailed (tool : String) (code : Option Nat) (stderr : String)
  | tooSmall
  | invalidMagic
  | notLittleEndian
  | unsupportedClass (code : Nat)
  | sectionOutOfBounds
  | rangeBeyondFile (offset length size : Nat)
  | unalignedLength (length : Nat)
  | capacityOverflow
  | readOutside (position width size : Nat)
  deriving DecidableEq, Repr

def showExitCode : Option Nat → String
  | some code => "Some(" ++ toString code ++ ")"
  | none => "None"

def BinaryError.message : BinaryError → String
  | .binaryNotFound file => "binary not found: " ++ file
  | .access cause => "IO error: " ++ cause.message
  | .toolSpawn tool cause => "failed to run " ++ tool ++ ": " ++ cause.message
  | .toolFailed tool code stderr =>
      tool ++ " exited with status " ++ showExitCode code ++ ": " ++ stderr
  | .tooSmall => "ELF data too small"
  | .invalidMagic => "Invalid ELF magic number"
  | .notLittleEndian => "Only little-endian ELF supported"
  | .unsupportedClass code => "Unsupported ELF class: " ++ toString code
  | .sectionOutOfBounds => "Section header out of bounds"
  | .rangeBeyondFile offset length size =>
      toString length ++ " bytes at offset " ++ String.ofList (Numeral.hexMarked offset) ++
        " extend beyond the " ++ toString size ++ "-byte file"
  | .unalignedLength length =>
      "can only read multiples of 4B words, but section length is " ++ toString length ++ " bytes"
  | .capacityOverflow => "capacity overflow"
  | .readOutside position width size =>
      toString width ++ " bytes at position " ++ toString position ++
        " lie outside the " ++ toString size ++ "-byte contents"

end Testbench
