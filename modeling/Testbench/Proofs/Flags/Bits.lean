import Mathlib.Data.List.Pairwise
import Mathlib.Data.Nat.Bitwise
import Testbench.Proofs.Flags.Names

namespace Testbench

theorem UInt32.eq_of_testBit_iff {a b : UInt32}
    (h : ∀ i, a.toNat.testBit i = true ↔ b.toNat.testBit i = true) : a = b :=
  UInt32.toNat_inj.1 (Nat.eq_of_testBit_eq fun i => Bool.eq_iff_iff.2 (h i))

theorem UInt32.and_ne_zero_iff {a b : UInt32} :
    a &&& b ≠ 0 ↔ ∃ i, a.toNat.testBit i = true ∧ b.toNat.testBit i = true := by
  rw [Ne, ← UInt32.toNat_inj, UInt32.toNat_and, UInt32.toNat_zero]
  constructor
  · intro h
    obtain ⟨i, hi⟩ := Nat.exists_testBit_of_ne_zero h
    rw [Nat.testBit_and, Bool.and_eq_true] at hi
    exact ⟨i, hi⟩
  · rintro ⟨i, ha, hb⟩ hzero
    have hbit := congrArg (Nat.testBit · i) hzero
    simp [ha, hb] at hbit

namespace FlagTable

theorem testBit_foldl_iff {flags : List (String × UInt32)} {bits : UInt32} {i : Nat} :
    (flags.foldl (fun bits entry => bits ||| entry.2) bits).toNat.testBit i = true ↔
      bits.toNat.testBit i = true ∨ ∃ entry ∈ flags, entry.2.toNat.testBit i = true := by
  induction flags generalizing bits with
  | nil => simp
  | cons entry flags ih =>
      rw [List.foldl_cons, ih, UInt32.toNat_or, Nat.testBit_or, Bool.or_eq_true, or_assoc,
        List.exists_mem_cons_iff]

theorem testBit_union_iff {flags : List (String × UInt32)} {i : Nat} :
    (union flags).toNat.testBit i = true ↔ ∃ entry ∈ flags, entry.2.toNat.testBit i = true := by
  rw [union, testBit_foldl_iff]
  simp

def Covers (t : FlagTable) (status : UInt32) : Prop :=
  ∀ i, status.toNat.testBit i = true → ∃ entry ∈ t.entries, entry.2.toNat.testBit i = true

structure BitsApart (t : FlagTable) : Prop where
  nonzero : ∀ entry ∈ t.entries, entry.2 ≠ 0
  apart : t.entries.Pairwise fun a b => a.2 &&& b.2 = 0

structure OneBitEach (t : FlagTable) : Prop where
  isPowerOfTwo : ∀ entry ∈ t.entries, entry.2.toNat.isPowerOfTwo
  nodup : (t.entries.map Prod.snd).Nodup

variable {t : FlagTable}

theorem covers_iff {status : UInt32} : t.Covers status ↔ status &&& union t.entries = status := by
  have hbit (i : Nat) : (status &&& union t.entries).toNat.testBit i = true ↔
      status.toNat.testBit i = true ∧ ∃ entry ∈ t.entries, entry.2.toNat.testBit i = true := by
    rw [UInt32.toNat_and, Nat.testBit_and, Bool.and_eq_true, testBit_union_iff]
  constructor
  · intro h
    refine UInt32.eq_of_testBit_iff fun i => (hbit i).trans ?_
    exact ⟨And.left, fun hi => ⟨hi, h i hi⟩⟩
  · intro h i hi
    exact ((hbit i).1 (by rwa [h])).2

instance (status : UInt32) : Decidable (t.Covers status) :=
  decidable_of_iff _ covers_iff.symm

instance : Decidable t.BitsApart :=
  decidable_of_iff ((∀ entry ∈ t.entries, entry.2 ≠ 0) ∧
      t.entries.Pairwise fun a b => a.2 &&& b.2 = 0)
    ⟨fun h => ⟨h.1, h.2⟩, fun h => ⟨h.nonzero, h.apart⟩⟩

instance : Decidable t.OneBitEach :=
  decidable_of_iff ((∀ entry ∈ t.entries, entry.2.toNat.isPowerOfTwo) ∧
      (t.entries.map Prod.snd).Nodup)
    ⟨fun h => ⟨h.1, h.2⟩, fun h => ⟨h.isPowerOfTwo, h.nodup⟩⟩

theorem and_ne_zero_iff_of_isPowerOfTwo {bits : UInt32} (hbits : bits.toNat.isPowerOfTwo) {i : Nat}
    (hi : bits.toNat.testBit i = true) (status : UInt32) :
    status &&& bits ≠ 0 ↔ status.toNat.testBit i = true := by
  rw [UInt32.and_ne_zero_iff]
  constructor
  · rintro ⟨j, hstatus, hj⟩
    obtain ⟨k, hk⟩ := hbits
    rw [hk, Nat.testBit_two_pow, decide_eq_true_eq] at hi hj
    rwa [← hi, hj]
  · intro hstatus
    exact ⟨i, hstatus, hi⟩

theorem union_filter_of_isPowerOfTwo {flags : List (String × UInt32)}
    (h : ∀ entry ∈ flags, entry.2.toNat.isPowerOfTwo) (status : UInt32) :
    union (flags.filter fun entry => status &&& entry.2 ≠ 0) = status &&& union flags := by
  refine UInt32.eq_of_testBit_iff fun i => ?_
  rw [testBit_union_iff, UInt32.toNat_and, Nat.testBit_and, Bool.and_eq_true, testBit_union_iff]
  constructor
  · rintro ⟨entry, hmem, hi⟩
    obtain ⟨hentry, hshares⟩ := List.mem_filter.1 hmem
    have hstatus := (and_ne_zero_iff_of_isPowerOfTwo (h entry hentry) hi status).1
      (of_decide_eq_true hshares)
    exact ⟨hstatus, entry, hentry, hi⟩
  · rintro ⟨hstatus, entry, hentry, hi⟩
    have hshares := (and_ne_zero_iff_of_isPowerOfTwo (h entry hentry) hi status).2 hstatus
    exact ⟨entry, List.mem_filter.2 ⟨hentry, decide_eq_true hshares⟩, hi⟩

namespace BitsApart

variable {flags : List (String × UInt32)} {entry : String × UInt32}

theorem eq_of_testBit (h : t.BitsApart) {a b : String × UInt32} (ha : a ∈ t.entries)
    (hb : b ∈ t.entries) {i : Nat} (hai : a.2.toNat.testBit i = true)
    (hbi : b.2.toNat.testBit i = true) : a = b := by
  have : Std.Symm fun a b : String × UInt32 => a.2 &&& b.2 = 0 :=
    ⟨fun a b hab => (UInt32.and_comm b.2 a.2).trans hab⟩
  by_contra hne
  exact UInt32.and_ne_zero_iff.2 ⟨i, hai, hbi⟩ (h.apart.forall ha hb hne)

theorem union_and_ne_zero_iff (h : t.BitsApart) (hflags : flags ⊆ t.entries)
    (hentry : entry ∈ t.entries) : union flags &&& entry.2 ≠ 0 ↔ entry ∈ flags := by
  rw [UInt32.and_ne_zero_iff]
  constructor
  · rintro ⟨i, hunion, hi⟩
    obtain ⟨other, hother, hbit⟩ := testBit_union_iff.1 hunion
    -- a listed flag has the bit, and no other flag of the table has it
    rwa [h.eq_of_testBit hentry (hflags hother) hi hbit]
  · intro hmem
    have hne : entry.2.toNat ≠ 0 := fun hzero => h.nonzero entry hentry (UInt32.toNat_inj.1 hzero)
    obtain ⟨i, hi⟩ := Nat.exists_testBit_of_ne_zero hne
    exact ⟨i, testBit_union_iff.2 ⟨entry, hmem, hi⟩, hi⟩

end BitsApart

theorem OneBitEach.bitsApart (h : t.OneBitEach) : t.BitsApart where
  nonzero := by
    intro entry hentry hzero
    obtain ⟨k, hk⟩ := h.isPowerOfTwo entry hentry
    rw [hzero] at hk
    exact absurd hk.symm (Nat.two_pow_pos k).ne'
  apart := by
    refine (List.pairwise_map.1 h.nodup).imp_of_mem fun {a b} ha hb hne => ?_
    by_contra hshared
    obtain ⟨i, hai, hbi⟩ := UInt32.and_ne_zero_iff.1 hshared
    obtain ⟨k, hk⟩ := h.isPowerOfTwo a ha
    obtain ⟨l, hl⟩ := h.isPowerOfTwo b hb
    rw [hk, Nat.testBit_two_pow, decide_eq_true_eq] at hai
    rw [hl, Nat.testBit_two_pow, decide_eq_true_eq] at hbi
    exact hne (UInt32.toNat_inj.1 (by rw [hk, hl, hai, hbi]))

theorem OneBitEach.union_eq_iff (h : t.OneBitEach) {flags : List (String × UInt32)}
    (hflags : flags ⊆ t.entries) {status : UInt32} :
    union flags = status ↔
      (∀ entry ∈ t.entries, entry ∈ flags ↔ status &&& entry.2 ≠ 0) ∧ t.Covers status := by
  constructor
  · rintro rfl
    refine ⟨fun entry hentry => (h.bitsApart.union_and_ne_zero_iff hflags hentry).symm,
      fun i hi => ?_⟩
    obtain ⟨entry, hentry, hbit⟩ := testBit_union_iff.1 hi
    exact ⟨entry, hflags hentry, hbit⟩
  · rintro ⟨hsame, hcovers⟩
    refine UInt32.eq_of_testBit_iff fun i => ?_
    rw [testBit_union_iff]
    constructor
    · rintro ⟨entry, hmem, hi⟩
      have hentry := hflags hmem
      have hone := h.isPowerOfTwo entry hentry
      exact (and_ne_zero_iff_of_isPowerOfTwo hone hi status).1 ((hsame entry hentry).1 hmem)
    · intro hi
      obtain ⟨entry, hentry, hbit⟩ := hcovers i hi
      have hone := h.isPowerOfTwo entry hentry
      have hshares := (and_ne_zero_iff_of_isPowerOfTwo hone hbit status).2 hi
      exact ⟨entry, (hsame entry hentry).2 hshares, hbit⟩

end FlagTable

end Testbench
