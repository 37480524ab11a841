import Testbench.Proofs.Flags.Bits
import Testbench.Proofs.Flags.NameList

namespace Testbench.FlagTable

variable {t : FlagTable} {flags : List (String × UInt32)}

theorem WellNamed.decode_union (h : t.WellNamed) (hbits : t.BitsApart)
    (hflags : flags ⊆ t.entries) :
    t.decode (union flags) = String.intercalate ","
      ((t.entries.map Prod.fst).filter (· ∈ flags.map Prod.fst)) := by
  have hkept : (t.entries.filter fun entry => union flags &&& entry.2 ≠ 0) =
      t.entries.filter fun entry => entry.1 ∈ flags.map Prod.fst := by
    refine List.filter_congr fun entry hentry => decide_eq_decide.2 ?_
    rw [hbits.union_and_ne_zero_iff hflags hentry, h.mem_map_iff hflags hentry]
  rw [decode, decodeNames, hkept, List.filter_map]
  rfl

theorem WellNamed.decode_of_listed (h : t.WellNamed) (hbits : t.BitsApart) {names : List String}
    {list : String} (hknown : ∀ name ∈ names, name ∈ t.entries.map Prod.fst)
    (hlisted : Listed names list) :
    ∃ bits, t.encode list = .ok bits ∧
      t.decode bits = String.intercalate "," ((t.entries.map Prod.fst).filter (· ∈ names)) := by
  obtain ⟨flags, hflags, rfl⟩ := exists_flags_of_known hknown
  exact ⟨union flags, h.encode_of_known hflags (listed_iff.1 hlisted).symm,
    h.decode_union hbits hflags⟩

/-- With flags that share no bits, a list of names is decoded to its names in the order of the
table. With any flags, a decoded status is encoded to all bits of the flags that share one with it.
-/
theorem encode_decode_inverse (h : t.WellNamed) :
    (t.BitsApart → ∀ (names : List String) (list : String),
      (∀ name ∈ names, name ∈ t.entries.map Prod.fst) → Listed names list →
      ∃ bits, t.encode list = .ok bits ∧
        t.decode bits = String.intercalate "," ((t.entries.map Prod.fst).filter (· ∈ names))) ∧
    ∀ status,
      t.encode (t.decode status) =
        .ok (union (t.entries.filter fun entry => status &&& entry.2 ≠ 0)) ∧
      ((∀ entry ∈ t.entries, entry.2.toNat.isPowerOfTwo) →
        union (t.entries.filter fun entry => status &&& entry.2 ≠ 0) =
          status &&& union t.entries) :=
  ⟨fun hbits _ _ hknown hlisted => h.decode_of_listed hbits hknown hlisted,
    fun status => ⟨h.encode_decode status, fun hone => union_filter_of_isPowerOfTwo hone status⟩⟩

def apartFlags : FlagTable :=
  ⟨"cycle_status_e", [("STALL", 1), ("DIV", 6), ("LOAD_USE", 8)]⟩

def singleFlags : FlagTable :=
  ⟨"cycle_status_e", [("STALL", 1), ("HALT", 1), ("DIV", 4)]⟩

theorem encode_decode_inverse_scattered :
    (∃ bits, apartFlags.encode " LOAD_USE,, STALL\t,LOAD_USE" = .ok bits ∧
      apartFlags.decode bits = "STALL,LOAD_USE") ∧
    apartFlags.encode (apartFlags.decode 2) = .ok 6 ∧
    singleFlags.encode (singleFlags.decode 11) = .ok (11 &&& 5) := by
  have happart : apartFlags.WellNamed := by decide +kernel
  have hsingle : singleFlags.WellNamed := by decide +kernel
  have hlisted : Listed ["LOAD_USE", "STALL", "LOAD_USE"] " LOAD_USE,, STALL\t,LOAD_USE" :=
    listed_iff.2 (by decide +kernel)
  have hone : ∀ entry ∈ singleFlags.entries, entry.2.toNat.isPowerOfTwo := by decide +kernel
  refine ⟨?_, ((encode_decode_inverse happart).2 2).1, ?_⟩
  · exact (encode_decode_inverse happart).1 (by decide) _ _ (by decide) hlisted
  · obtain ⟨hencode, hbits⟩ := (encode_decode_inverse hsingle).2 11
    rw [hencode, hbits hone]
    rfl

end Testbench.FlagTable
