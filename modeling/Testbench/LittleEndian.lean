namespace Testbench.LittleEndian

def value : List UInt8 → Nat
  | [] => 0
  | b :: bs => b.toNat + 256 * value bs

def bytes : Nat → Nat → List UInt8
  | 0, _ => []
  | width + 1, n => UInt8.ofNat (n % 256) :: bytes width (n / 256)

@[simp] theorem length_bytes (width n : Nat) : (bytes width n).length = width := by
  induction width generalizing n with
  | zero => rfl
  | succ width ih => simp [bytes, ih]

def bound : Nat → Nat
  | 0 => 1
  | width + 1 => 256 * bound width

theorem value_lt (bs : List UInt8) : value bs < bound bs.length := by
  induction bs with
  | nil => exact Nat.one_pos
  | cons b bs ih =>
      have hb : b.toNat < 256 := b.toNat_lt
      simp only [value, bound, List.length_cons]
      omega

theorem value_bytes (width n : Nat) : value (bytes width n) = n % bound width := by
  induction width generalizing n with
  | zero => exact (Nat.mod_one n).symm
  | succ width ih =>
      have h : n % 256 % 256 = n % 256 := Nat.mod_mod ..
      simp only [bytes, value, bound, ih, UInt8.toNat_ofNat', h]
      rw [Nat.mod_mul]

theorem bytes_value (bs : List UInt8) : bytes bs.length (value bs) = bs := by
  induction bs with
  | nil => rfl
  | cons b bs ih =>
      have hb : b.toNat < 256 := b.toNat_lt
      have hlow : (b.toNat + 256 * value bs) % 256 = b.toNat := by omega
      have hhigh : (b.toNat + 256 * value bs) / 256 = value bs := by omega
      simp [bytes, value, hlow, hhigh, ih]

theorem bytes_mod_bound (width n : Nat) : bytes width (n % bound width) = bytes width n := by
  rw [← value_bytes]
  simpa using bytes_value (bytes width n)

end Testbench.LittleEndian
