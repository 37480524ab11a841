import Testbench.Proofs.Memory.ByteView

namespace Testbench

theorem overwrite_of_size_le {α : Type} {xs : Array α} {position : Nat} (h : xs.size ≤ position)
    (vs : List α) : overwrite xs position vs = xs := by
  induction vs generalizing position with
  | nil => rfl
  | cons v vs ih =>
      rw [overwrite, Array.setIfInBounds_eq_of_size_le h]
      exact ih (Nat.le_succ_of_le h)

namespace Bytes

theorem byteAt_overwrite {data : Bytes} {position : Nat} {bs : List UInt8}
    (h : position + bs.length ≤ data.size) (i : Nat) :
    Bytes.byteAt (overwrite data position bs) i =
      if position ≤ i ∧ i < position + bs.length then bs.getD (i - position) 0
      else data.byteAt i := by
  simp only [byteAt, Array.getD_eq_getD_getElem?, getElem?_overwrite, List.getD_eq_getElem?_getD]
  by_cases hi : position ≤ i ∧ i < position + bs.length
  · have hall : position ≤ i ∧ i < position + bs.length ∧ i < data.size := by omega
    rw [if_pos hi, if_pos hall]
  · rw [if_neg hi, if_neg fun hall => hi ⟨hall.1, hall.2.1⟩]

theorem wordAt_overwrite_self {data : Bytes} {position : Nat} (h : position + 4 ≤ data.size)
    (w : UInt32) :
    Bytes.wordAt (overwrite data position (LittleEndian.bytes 4 w.toNat)) position = w := by
  have hbytes : ((List.range 4).map fun i =>
      Bytes.byteAt (overwrite data position (LittleEndian.bytes 4 w.toNat)) (position + i)) =
      (List.range 4).map fun i => (LittleEndian.bytes 4 w.toNat).getD i 0 := by
    apply List.map_congr_left
    intro i hi
    have hlt : i < 4 := List.mem_range.1 hi
    rw [byteAt_overwrite (by simpa using h), if_pos (by simp [hlt]), Nat.add_sub_cancel_left]
  have hall : ((List.range 4).map fun i => (LittleEndian.bytes 4 w.toNat).getD i 0) =
      LittleEndian.bytes 4 w.toNat := rfl
  have hbound : LittleEndian.bound 4 = UInt32.size := rfl
  rw [wordAt, hbytes, hall, LittleEndian.value_bytes, hbound, Nat.mod_eq_of_lt w.toNat_lt]
  exact UInt32.ofNat_toNat

theorem wordAt_overwrite_of_disjoint {data : Bytes} {position other : Nat} {bs : List UInt8}
    (h : position + bs.length ≤ data.size)
    (hapart : other + 4 ≤ position ∨ position + bs.length ≤ other) :
    Bytes.wordAt (overwrite data position bs) other = data.wordAt other := by
  have hbytes : ∀ i ∈ List.range 4,
      Bytes.byteAt (overwrite data position bs) (other + i) = data.byteAt (other + i) := by
    intro i hi
    have hlt : i < 4 := List.mem_range.1 hi
    rw [byteAt_overwrite h, if_neg (by omega)]
  rw [wordAt, wordAt, List.map_congr_left hbytes]

end Bytes

namespace BusRam

theorem check_congr {ram other : BusRam} (h : ram.size = other.size) (address : Nat) :
    ram.check address = other.check address := by
  rw [check, check, h]

theorem check_word (ram : BusRam) (i : Nat) :
    ram.check (4 * i) =
      if 4 * i + 4 ≤ ram.size then .ok () else .error (.addressOutOfRange (4 * i) ram.size) := by
  rw [check, if_neg (by omega)]

theorem bytes_put (ram : BusRam) (address : Nat) (w : UInt32) :
    (ram.put address w).bytes = overwrite ram.bytes address (LittleEndian.bytes 4 w.toNat) := by
  rw [put]

theorem read_put {ram : BusRam} {a b : Nat} (ha : a % 4 = 0 ∧ a + 4 ≤ ram.size) (hb : b % 4 = 0)
    (w : UInt32) : (ram.put a w).read b = if a = b then .ok w else ram.read b := by
  rw [read, read, check_congr (size_put ram a w), bytes_put]
  by_cases hab : a = b
  · subst hab
    rw [check_eq_ok_iff.2 ha, if_pos rfl, Bytes.wordAt_overwrite_self ha.2]
    rfl
  · have hapart : b + 4 ≤ a ∨ a + (LittleEndian.bytes 4 w.toNat).length ≤ b := by
      rw [LittleEndian.length_bytes]
      omega
    have hfits : a + (LittleEndian.bytes 4 w.toNat).length ≤ ram.bytes.size := by
      rw [LittleEndian.length_bytes]
      exact ha.2
    rw [if_neg hab, Bytes.wordAt_overwrite_of_disjoint hfits hapart]

end BusRam

namespace WordMemory

structure Mirrors (m : WordMemory) (ram : BusRam) : Prop where
  size_eq : ram.size = 4 * m.size
  read_eq : ∀ i w, m.get? i = some w → ram.read (4 * i) = .ok w

theorem Mirrors.put {m : WordMemory} {ram : BusRam} (h : m.Mirrors ram) {start : Nat}
    (hstart : start < m.size) (w : UInt32) :
    (WordMemory.mk (m.words.setIfInBounds start w)).Mirrors (ram.put (4 * start) w) := by
  have hfits : 4 * start + 4 ≤ ram.size := by
    have := h.size_eq
    omega
  constructor
  · rw [BusRam.size_put, h.size_eq, size, size, Array.size_setIfInBounds]
  · intro i v hv
    rw [get?, Array.getElem?_setIfInBounds] at hv
    rw [BusRam.read_put ⟨Nat.mul_mod_right 4 start, hfits⟩ (Nat.mul_mod_right 4 i)]
    by_cases hi : start = i
    · subst hi
      have hbound : start < m.words.size := hstart
      rw [if_pos rfl, if_pos hbound] at hv
      rw [if_pos rfl, Option.some.inj hv]
    · rw [if_neg hi] at hv
      rw [if_neg (by omega)]
      exact h.read_eq i v hv

theorem Mirrors.storeList {m : WordMemory} {ram : BusRam} (h : m.Mirrors ram) (start : Nat)
    (ws : List UInt32) :
    ∃ last, (WordMemory.mk (overwrite m.words start ws)).Mirrors last ∧
      ram.storeList (4 * start) ws = (last,
        if ws = [] ∨ start + ws.length ≤ m.size then .ok ()
        else .error (.addressOutOfRange (4 * max start m.size) (4 * m.size))) := by
  induction ws generalizing m ram start with
  | nil => exact ⟨ram, h, rfl⟩
  | cons w ws ih =>
      rw [BusRam.storeList, BusRam.check_word, h.size_eq]
      by_cases hstart : start < m.size
      · obtain ⟨last, hlast, hrest⟩ := ih (h.put hstart w) (start + 1)
        refine ⟨last, hlast, ?_⟩
        have hsize : (WordMemory.mk (m.words.setIfInBounds start w)).size = m.size :=
          Array.size_setIfInBounds
        have hmax : max (start + 1) m.size = max start m.size := by omega
        have hiff : (ws = [] ∨ start + 1 + ws.length ≤ m.size) ↔
            (w :: ws = [] ∨ start + (w :: ws).length ≤ m.size) := by
          rw [← List.length_eq_zero_iff, ← List.length_eq_zero_iff, List.length_cons]
          omega
        rw [if_pos (by omega)]
        simp only [← Nat.mul_succ]
        rw [hrest, hsize, hmax]
        simp only [hiff]
      · refine ⟨ram, ?_, ?_⟩
        · rw [overwrite_of_size_le (Nat.le_of_not_lt hstart)]
          exact h
        · have hmax : max start m.size = start := by omega
          rw [if_neg (by omega), if_neg (by simp; omega), hmax]

theorem Mirrors.store {m : WordMemory} {ram : BusRam} (h : m.Mirrors ram) {base : Nat}
    (hbase : base % 4 = 0) {ws : Words} (hws : ws.length ≠ 0) :
    ∃ last, (WordMemory.mk (overwrite m.words (base / 4) ws.toList)).Mirrors last ∧
      ram.store base ws = (last,
        if base / 4 + ws.length ≤ m.size then .ok ()
        else .error (.addressOutOfRange (4 * max (base / 4) m.size) (4 * m.size))) := by
  obtain ⟨last, hlast, hstore⟩ := h.storeList (base / 4) ws.toList
  have hne : ws.toList ≠ [] := fun hnil => hws (Words.toList_eq_nil_iff.1 hnil)
  rw [Words.length_toList, Nat.mul_div_cancel' (Nat.dvd_of_mod_eq_zero hbase)] at hstore
  refine ⟨last, hlast, ?_⟩
  rw [BusRam.store_eq, hstore]
  simp only [hne, false_or]

end WordMemory

end Testbench
