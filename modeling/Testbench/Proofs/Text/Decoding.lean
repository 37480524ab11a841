import Testbench.Proofs.Text.Encoding

namespace Testbench.Text.Utf8

variable {bits : Nat} {range next : Range} {later : List Range} {b : UInt8}

theorem decodeFrom_opens (h : Lead.ofByte b = .opens bits next later) (bs : List UInt8) :
    decodeFrom .between (b :: bs) = decodeFrom (.within bits next later) bs := by
  rw [decodeFrom, step, start, h]
  rfl

theorem decodeFrom_next (h : range.1 ≤ b ∧ b ≤ range.2) (bs : List UInt8) :
    decodeFrom (.within bits range (next :: later)) (b :: bs) =
      decodeFrom (.within (bits * 64 + b.toNat % 64) next later) bs := by
  rw [decodeFrom, step, if_pos h]
  rfl

theorem decodeFrom_last (h : range.1 ≤ b ∧ b ≤ range.2) (bs : List UInt8) :
    decodeFrom (.within bits range []) (b :: bs) =
      .ofNat (bits * 64 + b.toNat % 64) :: decodeFrom .between bs := by
  rw [decodeFrom, step, if_pos h]
  rfl

theorem ofByte_ascii : ∀ k < 0x80, Lead.ofByte (.ofNat k) = .whole (.ofNat k) := by
  decide

theorem ofByte_two : ∀ k < 32, 2 ≤ k →
    Lead.ofByte (.ofNat (k + 0xC0)) = .opens k continuation [] := by
  decide

/-- The second of three bytes keeps clear of shorter spellings and of surrogates. -/
def secondOfThree (k : Nat) : Range :=
  (if k = 0 then 0xA0 else 0x80, if k = 13 then 0x9F else 0xBF)

theorem ofByte_three : ∀ k < 16,
    Lead.ofByte (.ofNat (k + 0xE0)) = .opens k (secondOfThree k) [continuation] := by
  decide

/-- The second of four bytes keeps clear of shorter spellings and of numbers beyond the last
character. -/
def secondOfFour (k : Nat) : Range :=
  (if k = 0 then 0x90 else 0x80, if k = 4 then 0x8F else 0xBF)

theorem ofByte_four : ∀ k < 5,
    Lead.ofByte (.ofNat (k + 0xF0)) = .opens k (secondOfFour k) [continuation, continuation] := by
  decide

def trail (n : Nat) : UInt8 :=
  .ofNat (n % 0x40 + 0x80)

theorem toNat_trail (n : Nat) : (trail n).toNat = n % 64 + 128 :=
  UInt8.toNat_ofNat_of_lt' (show n % 64 + 128 < 256 by omega)

theorem toNat_trail_mod (n : Nat) : (trail n).toNat % 64 = n % 64 := by
  rw [toNat_trail]
  omega

theorem trail_mem {n : Nat} (hlow : range.1.toNat ≤ n % 64 + 128)
    (hhigh : n % 64 + 128 ≤ range.2.toNat) : range.1 ≤ trail n ∧ trail n ≤ range.2 := by
  rw [UInt8.le_iff_toNat_le, UInt8.le_iff_toNat_le, toNat_trail]
  exact ⟨hlow, hhigh⟩

theorem trail_mem_continuation (n : Nat) : continuation.1 ≤ trail n ∧ trail n ≤ continuation.2 :=
  trail_mem (Nat.le_add_left 128 _) (show n % 64 + 128 ≤ 191 by omega)

theorem trail_mem_secondOfThree {v : Nat} (hlow : 0x800 ≤ v) (hhigh : v < 0x10000)
    (hvalid : v < 0xD800 ∨ 0xDFFF < v) :
    (secondOfThree (v / 4096)).1 ≤ trail (v / 64) ∧
      trail (v / 64) ≤ (secondOfThree (v / 4096)).2 := by
  apply trail_mem
  · change (if v / 4096 = 0 then (0xA0 : UInt8) else 0x80).toNat ≤ _
    split
    · change 160 ≤ _
      omega
    · change 128 ≤ _
      omega
  · change _ ≤ (if v / 4096 = 13 then (0x9F : UInt8) else 0xBF).toNat
    split
    · change _ ≤ 159
      omega
    · change _ ≤ 191
      omega

theorem trail_mem_secondOfFour {v : Nat} (hlow : 0x10000 ≤ v) (hhigh : v < 0x110000) :
    (secondOfFour (v / 262144)).1 ≤ trail (v / 4096) ∧
      trail (v / 4096) ≤ (secondOfFour (v / 262144)).2 := by
  apply trail_mem
  · change (if v / 262144 = 0 then (0x90 : UInt8) else 0x80).toNat ≤ _
    split
    · change 144 ≤ _
      omega
    · change 128 ≤ _
      omega
  · change _ ≤ (if v / 262144 = 4 then (0x8F : UInt8) else 0xBF).toNat
    split
    · change _ ≤ 143
      omega
    · change _ ≤ 191
      omega

theorem encodeChar_two {c : Char} (hlow : 0x80 ≤ c.toNat) (hhigh : c.toNat < 0x800) :
    String.utf8EncodeChar c = [.ofNat (c.toNat / 64 + 0xC0), trail c.toNat] := by
  change 0x80 ≤ c.val.toNat at hlow
  change c.val.toNat < 0x800 at hhigh
  have hlead : c.val.toNat / 64 % 0x20 = c.val.toNat / 64 := Nat.mod_eq_of_lt (by omega)
  rw [String.utf8EncodeChar, if_neg (by omega), if_pos (by omega), hlead]
  rfl

theorem encodeChar_three {c : Char} (hlow : 0x800 ≤ c.toNat) (hhigh : c.toNat < 0x10000) :
    String.utf8EncodeChar c =
      [.ofNat (c.toNat / 4096 + 0xE0), trail (c.toNat / 64), trail c.toNat] := by
  change 0x800 ≤ c.val.toNat at hlow
  change c.val.toNat < 0x10000 at hhigh
  have hlead : c.val.toNat / 4096 % 0x10 = c.val.toNat / 4096 := Nat.mod_eq_of_lt (by omega)
  rw [String.utf8EncodeChar, if_neg (by omega), if_neg (by omega), if_pos (by omega), hlead]
  rfl

theorem encodeChar_four {c : Char} (hlow : 0x10000 ≤ c.toNat) (hhigh : c.toNat < 0x110000) :
    String.utf8EncodeChar c =
      [.ofNat (c.toNat / 262144 + 0xF0), trail (c.toNat / 4096), trail (c.toNat / 64),
        trail c.toNat] := by
  change 0x10000 ≤ c.val.toNat at hlow
  change c.val.toNat < 0x110000 at hhigh
  have hlead : c.val.toNat / 262144 % 0x08 = c.val.toNat / 262144 := Nat.mod_eq_of_lt (by omega)
  rw [String.utf8EncodeChar, if_neg (by omega), if_neg (by omega), if_neg (by omega), hlead]
  rfl

theorem decodeFrom_two {c : Char} (hlow : 0x80 ≤ c.toNat) (hhigh : c.toNat < 0x800)
    (bs : List UInt8) :
    decodeFrom .between (String.utf8EncodeChar c ++ bs) = c :: decodeFrom .between bs := by
  rw [encodeChar_two hlow hhigh, List.cons_append, List.singleton_append,
    decodeFrom_opens (ofByte_two _ (by omega) (by omega)),
    decodeFrom_last (trail_mem_continuation _), toNat_trail_mod, Nat.div_add_mod',
    Char.ofNat_toNat]

theorem decodeFrom_three {c : Char} (hlow : 0x800 ≤ c.toNat) (hhigh : c.toNat < 0x10000)
    (hvalid : c.toNat < 0xD800 ∨ 0xDFFF < c.toNat) (bs : List UInt8) :
    decodeFrom .between (String.utf8EncodeChar c ++ bs) = c :: decodeFrom .between bs := by
  have hvalue : (c.toNat / 4096 * 64 + c.toNat / 64 % 64) * 64 + c.toNat % 64 = c.toNat := by
    omega
  rw [encodeChar_three hlow hhigh, List.cons_append, List.cons_append, List.singleton_append,
    decodeFrom_opens (ofByte_three _ (by omega)),
    decodeFrom_next (trail_mem_secondOfThree hlow hhigh hvalid),
    decodeFrom_last (trail_mem_continuation _), toNat_trail_mod, toNat_trail_mod, hvalue,
    Char.ofNat_toNat]

theorem decodeFrom_four {c : Char} (hlow : 0x10000 ≤ c.toNat) (hhigh : c.toNat < 0x110000)
    (bs : List UInt8) :
    decodeFrom .between (String.utf8EncodeChar c ++ bs) = c :: decodeFrom .between bs := by
  have hvalue : ((c.toNat / 262144 * 64 + c.toNat / 4096 % 64) * 64 + c.toNat / 64 % 64) * 64 +
      c.toNat % 64 = c.toNat := by
    omega
  rw [encodeChar_four hlow hhigh, List.cons_append, List.cons_append, List.cons_append,
    List.singleton_append, decodeFrom_opens (ofByte_four _ (by omega)),
    decodeFrom_next (trail_mem_secondOfFour hlow hhigh),
    decodeFrom_next (trail_mem_continuation _), decodeFrom_last (trail_mem_continuation _),
    toNat_trail_mod, toNat_trail_mod, toNat_trail_mod, hvalue, Char.ofNat_toNat]

theorem decodeFrom_encodeChar (c : Char) (bs : List UInt8) :
    decodeFrom .between (String.utf8EncodeChar c ++ bs) = c :: decodeFrom .between bs := by
  have hvalid : c.toNat < 0xD800 ∨ 0xDFFF < c.toNat ∧ c.toNat < 0x110000 := c.valid
  rcases Nat.lt_or_ge c.toNat 0x80 with hone | hone
  · rw [encodeChar_of_ascii hone, List.singleton_append, decodeFrom, step, start,
      ofByte_ascii _ hone]
    exact congrArg (· :: _) (Char.ofNat_toNat c)
  · rcases Nat.lt_or_ge c.toNat 0x800 with htwo | htwo
    · exact decodeFrom_two hone htwo bs
    · rcases Nat.lt_or_ge c.toNat 0x10000 with hthree | hthree
      · exact decodeFrom_three htwo hthree (by omega) bs
      · exact decodeFrom_four hthree (by omega) bs

theorem decodeLossy_encode (s : List Char) : decodeLossy (encode s) = s := by
  rw [decodeLossy]
  induction s with
  | nil => rfl
  | cons c s ih => rw [encode_cons, decodeFrom_encodeChar, ih]

end Testbench.Text.Utf8
