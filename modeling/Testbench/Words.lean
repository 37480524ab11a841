namespace Testbench

inductive Words where
  | listed (ws : List UInt32)
  | zeros (count : Nat)
  deriving DecidableEq, Repr

namespace Words

def length : Words → Nat
  | .listed ws => ws.length
  | .zeros count => count

def toList : Words → List UInt32
  | .listed ws => ws
  | .zeros count => .replicate count 0

@[simp] theorem length_toList (ws : Words) : ws.toList.length = ws.length := by
  cases ws <;> simp [toList, length]

theorem toList_eq_nil_iff {ws : Words} : ws.toList = [] ↔ ws.length = 0 := by
  rw [← List.length_eq_zero_iff, length_toList]

end Words

end Testbench
