namespace Testbench

structure Section where
  index : Nat
  name : String
  kind : String
  address : Nat
  offset : Nat
  size : Nat
  entrySize : Nat
  deriving DecidableEq, Repr

namespace Section

def isNobits (s : Section) : Bool :=
  s.kind = "NOBITS"

def wordLength? (s : Section) : Option Nat :=
  let length := (s.size + 3) / 4 * 4
  if length < UInt64.size then some length else none

theorem wordLength?_eq_some_iff {s : Section} {n : Nat} :
    s.wordLength? = some n ↔ (s.size + 3) / 4 * 4 = n ∧ n < UInt64.size := by
  simp only [wordLength?, Option.ite_none_right_eq_some, Option.some.injEq]
  constructor
  · rintro ⟨h, rfl⟩
    exact ⟨rfl, h⟩
  · rintro ⟨rfl, h⟩
    exact ⟨h, rfl⟩

def wordCount? (s : Section) : Option Nat :=
  s.wordLength?.map (· / 4)

end Section

end Testbench
