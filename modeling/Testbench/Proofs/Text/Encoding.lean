import Testbench.Text.Utf8

namespace Testbench.Text.Utf8

theorem encode_append (s t : List Char) : encode (s ++ t) = encode s ++ encode t :=
  List.flatMap_append

theorem encode_cons (c : Char) (s : List Char) :
    encode (c :: s) = String.utf8EncodeChar c ++ encode s :=
  List.flatMap_cons

theorem encodeChar_of_ascii {c : Char} (h : c.toNat < 128) :
    String.utf8EncodeChar c = [UInt8.ofNat c.toNat] := by
  have hle : c.val.toNat ≤ 0x7F := Nat.le_of_lt_succ h
  rw [String.utf8EncodeChar, if_pos hle]
  rfl

theorem ofUInt8_ofNat {c : Char} (h : c.toNat < 128) : Char.ofUInt8 (.ofNat c.toNat) = c := by
  apply Char.ext
  apply UInt32.toNat.inj
  change (UInt8.ofNat c.toNat).toUInt32.toNat = c.val.toNat
  rw [UInt8.toNat_toUInt32, UInt8.toNat_ofNat_of_lt' (Nat.lt_trans h (by decide))]
  rfl

theorem encode_cons_of_ascii {c : Char} (h : c.toNat < 128) (s : List Char) :
    encode (c :: s) = .ofNat c.toNat :: encode s := by
  rw [encode_cons, encodeChar_of_ascii h]
  rfl

theorem le_of_mem_encodeChar {c : Char} (hc : 128 ≤ c.toNat) {b : UInt8}
    (hb : b ∈ String.utf8EncodeChar c) : 128 ≤ b.toNat := by
  have hnot : ¬ c.val.toNat ≤ 0x7F := by
    change 128 ≤ c.val.toNat at hc
    omega
  have hlarge {n : Nat} (h : n < 0x80) : 128 ≤ (UInt8.ofNat (n + 0x80)).toNat := by
    rw [UInt8.toNat_ofNat_of_lt' (show n + 0x80 < 256 by omega)]
    omega
  rw [String.utf8EncodeChar, if_neg hnot] at hb
  split at hb
  · simp only [List.mem_cons, List.not_mem_nil, or_false] at hb
    rcases hb with rfl | rfl
    · exact hlarge (n := _ / 64 % 0x20 + 0x40) (by omega)
    · exact hlarge (by omega)
  · split at hb
    · simp only [List.mem_cons, List.not_mem_nil, or_false] at hb
      rcases hb with rfl | rfl | rfl
      · exact hlarge (n := _ / 4096 % 0x10 + 0x60) (by omega)
      · exact hlarge (by omega)
      · exact hlarge (by omega)
    · simp only [List.mem_cons, List.not_mem_nil, or_false] at hb
      rcases hb with rfl | rfl | rfl | rfl
      · exact hlarge (n := _ / 262144 % 0x08 + 0x70) (by omega)
      · exact hlarge (by omega)
      · exact hlarge (by omega)
      · exact hlarge (by omega)

end Testbench.Text.Utf8
