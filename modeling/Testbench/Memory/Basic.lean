import Testbench.Numeral
import Testbench.Words

namespace Testbench

inductive MemoryError where
  | indexOutOfRange (index size : Nat)
  | addressOutOfRange (address size : Nat)
  | misaligned (address : Nat)
  deriving DecidableEq, Repr

def MemoryError.message : MemoryError → String
  | .indexOutOfRange index size =>
      "word index " ++ toString index ++ " is outside the " ++ toString size ++ "-word memory"
  | .addressOutOfRange address size =>
      "address " ++ String.ofList (Numeral.hexMarked address) ++ " is outside the " ++
        toString size ++ "-byte memory"
  | .misaligned address =>
      "address " ++ String.ofList (Numeral.hexMarked address) ++ " is not word aligned"

/-- A refusal leaves behind what was stored before it. -/
class WordSink (μ : Type) where
  targetAddress : μ → Nat → Nat
  store : μ → Nat → Words → μ × Except MemoryError Unit

end Testbench
