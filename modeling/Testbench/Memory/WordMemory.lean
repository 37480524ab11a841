import Testbench.Memory.Basic
import Testbench.Overwrite

namespace Testbench

structure WordMemory where
  words : Array UInt32
  deriving DecidableEq, Repr

namespace WordMemory

def zeroed (size : Nat) : WordMemory :=
  ⟨.replicate size 0⟩

def size (m : WordMemory) : Nat :=
  m.words.size

def get? (m : WordMemory) (index : Nat) : Option UInt32 :=
  m.words[index]?

def set (m : WordMemory) (index : Nat) (value : UInt32) : Except MemoryError WordMemory :=
  if h : index < m.words.size then .ok ⟨m.words.set index value⟩
  else .error (.indexOutOfRange index m.size)

def store (m : WordMemory) (base : Nat) (ws : Words) : WordMemory × Except MemoryError Unit :=
  if base / 4 + ws.length ≤ m.size then (⟨overwrite m.words (base / 4) ws.toList⟩, .ok ())
  else (m, .error (.indexOutOfRange (max (base / 4) m.size) m.size))

instance : WordSink WordMemory where
  targetAddress _ base := base / 4
  store := store

end WordMemory

end Testbench
