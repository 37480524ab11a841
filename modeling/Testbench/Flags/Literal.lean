import Testbench.Numeral

namespace Testbench.Flags

def quote : Char := '\x27'

def radix? : Char → Option Nat
  | 'b' | 'B' => some 2
  | 'o' | 'O' => some 8
  | 'd' | 'D' => some 10
  | 'h' | 'H' => some 16
  | _ => none

def dropSigned : List Char → List Char
  | 's' :: s => s
  | 'S' :: s => s
  | s => s

def based? (s : List Char) : Option UInt32 :=
  match dropSigned s with
  | [] => none
  | base :: digits =>
      match radix? base with
      | some radix => Numeral.word? radix digits
      | none => none

def afterQuote? : List Char → Option (List Char)
  | [] => none
  | c :: s => if c = quote then some s else afterQuote? s

def literal? (s : List Char) : Option UInt32 :=
  let s := s.filter (· ≠ '_')
  match afterQuote? s with
  | some rest => based? rest
  | none =>
      match Numeral.hexDigits? s with
      | some digits => Numeral.word? 16 digits
      | none => Numeral.word? 10 s

end Testbench.Flags
