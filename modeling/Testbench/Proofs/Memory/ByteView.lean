import Testbench.Memory.BusRam
import Testbench.Memory.WordMemory

namespace Testbench

def byteOf? (word? : Nat → Option UInt32) (position : Nat) : Option UInt8 :=
  (word? (position / 4)).bind fun w => (LittleEndian.bytes 4 w.toNat)[position % 4]?

def bytesOf (ws : List UInt32) : List UInt8 :=
  ws.flatMap fun w => LittleEndian.bytes 4 w.toNat

@[simp] theorem length_bytesOf (ws : List UInt32) : (bytesOf ws).length = 4 * ws.length := by
  induction ws with
  | nil => rfl
  | cons w ws ih =>
      rw [bytesOf, List.flatMap_cons, List.length_append, LittleEndian.length_bytes]
      change 4 + (bytesOf ws).length = _
      rw [ih, List.length_cons]
      omega

theorem getElem?_bytesOf (ws : List UInt32) (i : Nat) :
    (bytesOf ws)[i]? = byteOf? (fun j => ws[j]?) i := by
  induction ws generalizing i with
  | nil => simp [bytesOf, byteOf?]
  | cons w ws ih =>
      rw [bytesOf, List.flatMap_cons]
      by_cases hi : i < 4
      · have hdiv : i / 4 = 0 := by omega
        have hmod : i % 4 = i := by omega
        rw [List.getElem?_append_left (by simpa using hi), byteOf?, hdiv, hmod]
        rfl
      · have hdiv : i / 4 = (i - 4) / 4 + 1 := by omega
        have hmod : i % 4 = (i - 4) % 4 := by omega
        rw [List.getElem?_append_right (by simpa using hi), LittleEndian.length_bytes]
        rw [byteOf?, hdiv, hmod, List.getElem?_cons_succ]
        exact ih (i - 4)

def Words.byte? (ws : Words) (position : Nat) : Option UInt8 :=
  byteOf? (fun i => ws.toList[i]?) position

namespace BusRam

def byte? (ram : BusRam) (address : Nat) : Option UInt8 :=
  ram.bytes[address]?

@[simp] theorem size_put (ram : BusRam) (address : Nat) (w : UInt32) :
    (ram.put address w).size = ram.size :=
  size_overwrite ..

theorem check_eq_ok_iff {ram : BusRam} {address : Nat} :
    ram.check address = .ok () ↔ address % 4 = 0 ∧ address + 4 ≤ ram.size := by
  by_cases haligned : address % 4 = 0 <;> by_cases hbound : address + 4 ≤ ram.size <;>
    simp [check, haligned, hbound]

theorem storeList_eq_ok_iff {ram last : BusRam} {base : Nat} {ws : List UInt32} :
    ram.storeList base ws = (last, .ok ()) ↔
      (ws ≠ [] → base % 4 = 0 ∧ base + 4 * ws.length ≤ ram.size) ∧
        last = ⟨overwrite ram.bytes base (bytesOf ws)⟩ := by
  induction ws generalizing ram base with
  | nil => simp [storeList, bytesOf, overwrite, eq_comm]
  | cons w ws ih =>
      have hbytes : (⟨overwrite ram.bytes base (bytesOf (w :: ws))⟩ : BusRam) =
          ⟨overwrite (ram.put base w).bytes (base + 4) (bytesOf ws)⟩ := by
        rw [bytesOf, List.flatMap_cons, overwrite_append, LittleEndian.length_bytes]
        rfl
      rw [storeList, hbytes]
      cases hcheck : ram.check base with
      | error e =>
          have hnot : ¬ (base % 4 = 0 ∧ base + 4 ≤ ram.size) := fun h => by
            rw [check_eq_ok_iff.2 h] at hcheck
            cases hcheck
          simp only [Prod.mk.injEq, reduceCtorEq, and_false, false_iff, not_and]
          intro hfits
          have := hfits (by simp)
          simp only [List.length_cons] at this
          omega
      | ok u =>
          have hfirst := check_eq_ok_iff.1 hcheck
          simp only [ih, size_put, List.length_cons]
          refine and_congr_left fun _ => ?_
          constructor
          · intro hrest _
            by_cases hws : ws = []
            · subst hws
              simpa using hfirst
            · have := hrest hws
              omega
          · intro hall _
            have := hall (by simp)
            omega

theorem byte?_of_store {ram last : BusRam} {base : Nat} {ws : Words}
    (h : ram.store base ws = (last, .ok ())) (a : Nat) :
    last.byte? a =
      if base ≤ a ∧ a < base + 4 * ws.length then ws.byte? (a - base) else ram.byte? a := by
  rw [store_eq, storeList_eq_ok_iff] at h
  obtain ⟨hfits, rfl⟩ := h
  have hlength := Words.length_toList ws
  by_cases ha : base ≤ a ∧ a < base + 4 * ws.length
  · have hne : ws.toList ≠ [] := by
      rw [Ne, Words.toList_eq_nil_iff]
      omega
    have hsize := (hfits hne).2
    rw [if_pos ha, byte?, getElem?_overwrite, if_pos, getElem?_bytesOf]
    · rfl
    · simp only [length_bytesOf]
      simp only [size] at hsize
      omega
  · rw [if_neg ha, byte?, getElem?_overwrite, if_neg]
    · rfl
    · simp only [length_bytesOf]
      omega

end BusRam

namespace WordMemory

def byte? (m : WordMemory) (address : Nat) : Option UInt8 :=
  byteOf? m.get? address

theorem store_eq_ok_iff {m last : WordMemory} {base : Nat} {ws : Words} :
    m.store base ws = (last, .ok ()) ↔
      base / 4 + ws.length ≤ m.size ∧ last = ⟨overwrite m.words (base / 4) ws.toList⟩ := by
  by_cases hfits : base / 4 + ws.length ≤ m.size <;> simp [store, hfits, eq_comm]

theorem byte?_of_store {m last : WordMemory} {base : Nat} {ws : Words} (hbase : base % 4 = 0)
    (h : m.store base ws = (last, .ok ())) (a : Nat) :
    last.byte? a =
      if base ≤ a ∧ a < base + 4 * ws.length then ws.byte? (a - base) else m.byte? a := by
  obtain ⟨hfits, rfl⟩ := store_eq_ok_iff.1 h
  have hlength := Words.length_toList ws
  have hmod : (a - base) % 4 = a % 4 ∨ a < base := by omega
  have hdiv : (a - base) / 4 = a / 4 - base / 4 := by omega
  by_cases ha : base ≤ a ∧ a < base + 4 * ws.length
  · rw [if_pos ha, byte?, Words.byte?, byteOf?, byteOf?, get?, getElem?_overwrite, if_pos, hdiv]
    · rw [hmod.resolve_right (by omega)]
    · simp only [size] at hfits
      omega
  · rw [if_neg ha, byte?, byte?, byteOf?, byteOf?, get?, getElem?_overwrite, if_neg]
    · rfl
    · omega

end WordMemory

end Testbench
