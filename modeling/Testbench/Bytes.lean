import Testbench.LittleEndian

namespace Testbench

abbrev Bytes := Array UInt8

namespace Bytes

def byteAt (data : Bytes) (position : Nat) : UInt8 :=
  data.getD position 0

def wordAt (data : Bytes) (position : Nat) : UInt32 :=
  .ofNat (LittleEndian.value ((List.range 4).map fun i => data.byteAt (position + i)))

def window (data : Bytes) (start width : Nat) : List UInt8 :=
  (data.extract start (start + width)).toList

theorem window_eq (data : Bytes) (start width : Nat) :
    window data start width = (data.toList.drop start).take width := by
  rw [window, Array.toList_extract, List.extract_eq_take_drop, Nat.add_sub_cancel_left]

def terminated (data : Bytes) (start : Nat) : List UInt8 :=
  if h : start < data.size then
    if data[start] = 0 then [] else data[start] :: terminated data (start + 1)
  else []
termination_by data.size - start

theorem terminated_eq (data : Bytes) (start : Nat) :
    terminated data start = (data.toList.drop start).takeWhile (· ≠ 0) := by
  fun_induction terminated data start with
  | case1 start h hzero =>
      rw [List.drop_eq_getElem_cons (by simpa using h)]
      simp [hzero]
  | case2 start h hne ih =>
      rw [List.drop_eq_getElem_cons (by simpa using h)]
      simp [hne, ih]
  | case3 start h =>
      rw [List.drop_eq_nil_of_le (by simpa using h)]
      rfl

end Bytes

end Testbench
