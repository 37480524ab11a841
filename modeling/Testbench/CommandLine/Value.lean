import Testbench.Binary.Source

namespace Testbench.CommandLine

inductive ValueKind where
  | path
  | text
  | names
  | lister
  | count
  | status
  deriving DecidableEq, Repr

inductive Value where
  | text (s : String)
  | names (list : List String)
  | lister (l : Lister)
  | count (n : Nat)
  | status (bits : UInt32)
  deriving DecidableEq, Repr

def status? (text : List Char) : Option UInt32 :=
  match Numeral.hexDigits? text with
  | some digits => Numeral.word? 16 digits
  | none => Numeral.word? 10 text

def namesBetweenCommas (text : List Char) : List String :=
  (text.splitOn ',').map String.ofList

def ValueKind.read? (kind : ValueKind) (text : String) : Option Value :=
  match kind with
  | .path => if text = "" then none else some (.text text)
  | .text => some (.text text)
  | .names => some (.names (namesBetweenCommas text.toList))
  | .lister => (Lister.ofCommand? text).toOption.map .lister
  | .count => (Numeral.below? UInt64.size 10 text.toList).map .count
  | .status => (status? text.toList).map .status

end Testbench.CommandLine
