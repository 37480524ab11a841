import Testbench.Elf.Reader

namespace Testbench

theorem length_flatMap_of_forall {α β : Type} {f : α → List β} {width : Nat} {xs : List α}
    (h : ∀ x ∈ xs, (f x).length = width) : (xs.flatMap f).length = width * xs.length := by
  induction xs with
  | nil => rfl
  | cons x xs ih =>
      rw [List.flatMap_cons, List.length_append, h x List.mem_cons_self,
        ih fun y hy => h y (List.mem_cons_of_mem _ hy), List.length_cons, Nat.mul_succ,
        Nat.add_comm]

namespace Bytes

def Holds (data : Bytes) (position : Nat) (bs : List UInt8) : Prop :=
  bs <+: data.toList.drop position

variable {data : Bytes} {position : Nat} {as bs : List UInt8}

theorem holds_zero_toArray (bs : List UInt8) : Holds bs.toArray 0 bs :=
  List.prefix_refl bs

theorem holds_append_iff :
    data.Holds position (as ++ bs) ↔
      data.Holds position as ∧ data.Holds (position + as.length) bs := by
  rw [Holds, Holds, Holds, ← List.drop_drop]
  constructor
  · rintro ⟨post, hpost⟩
    rw [← hpost, List.append_assoc]
    refine ⟨List.prefix_append .., ?_⟩
    rw [List.drop_left]
    exact List.prefix_append ..
  · rintro ⟨⟨post, hpost⟩, hbs⟩
    rw [← hpost, List.drop_left] at hbs
    rw [← hpost]
    exact (List.prefix_append_right_inj as).2 hbs

theorem Holds.part {α : Type} {f : α → List UInt8} {width : Nat} {xs : List α}
    (hwidth : ∀ x ∈ xs, (f x).length = width) (h : data.Holds position (xs.flatMap f)) {i : Nat}
    {x : α} (hx : xs[i]? = some x) : data.Holds (position + width * i) (f x) := by
  induction xs generalizing position i with
  | nil => cases hx
  | cons y xs ih =>
      rw [List.flatMap_cons, holds_append_iff, hwidth y List.mem_cons_self] at h
      cases i with
      | zero =>
          obtain rfl := Option.some.inj hx
          exact h.1
      | succ i =>
          have hposition : position + width + width * i = position + width * (i + 1) := by
            rw [Nat.mul_succ]
            omega
          exact hposition ▸ ih (fun x hx => hwidth x (List.mem_cons_of_mem _ hx)) h.2 hx

theorem Holds.window_eq (h : data.Holds position bs) : data.window position bs.length = bs := by
  rw [Bytes.window_eq]
  exact (List.prefix_iff_eq_take.1 h).symm

theorem Holds.le_size (h : data.Holds position bs) (hbs : bs ≠ []) :
    position + bs.length ≤ data.size := by
  have hlength : bs.length ≤ data.size - position := by simpa using h.length_le
  have hpos := List.length_pos_iff.2 hbs
  omega

theorem Holds.terminated_eq (h : data.Holds position (bs ++ [0])) (hbs : 0 ∉ bs) :
    data.terminated position = bs := by
  obtain ⟨post, hpost⟩ := h
  rw [Bytes.terminated_eq, ← hpost, List.append_assoc, List.takeWhile_append_of_pos]
  · simp
  · intro b hb
    have hne : b ≠ 0 := fun heq => hbs (heq ▸ hb)
    exact decide_eq_true hne

end Bytes

namespace Elf

theorem Field.read_of_holds {f : Field} {data : Bytes} {base n : Nat} (hwidth : 0 < f.width)
    (hn : n < LittleEndian.bound f.width)
    (h : data.Holds (base + f.position) (LittleEndian.bytes f.width n)) :
    f.read data base = .ok n := by
  have hne : LittleEndian.bytes f.width n ≠ [] := by
    rw [← List.length_pos_iff, LittleEndian.length_bytes]
    exact hwidth
  have hsize := h.le_size hne
  have hwindow := h.window_eq
  rw [LittleEndian.length_bytes] at hsize hwindow
  rw [Field.read, if_pos hsize, hwindow, LittleEndian.value_bytes, Nat.mod_eq_of_lt hn]

end Elf

end Testbench
