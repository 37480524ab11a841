import Testbench.Proofs.Binary.Contents
import Testbench.Proofs.Elf.Checked

namespace Testbench

namespace Bytes

def padded (data : Bytes) (start width : Nat) : List UInt8 :=
  let available := min (data.size - min start data.size) width
  data.window start available ++ .replicate (width - available) 0

theorem padded_eq (data : Bytes) (start width : Nat) :
    data.padded start width =
      (data.toList.drop start).take width ++ .replicate (width - (data.size - start)) 0 := by
  have hmissing : width - min (data.size - min start data.size) width =
      width - (data.size - start) := by omega
  have hpresent : (data.toList.drop start).take (min (data.size - min start data.size) width) =
      (data.toList.drop start).take width := by
    rw [List.take_eq_take_iff, List.length_drop, Array.length_toList]
    omega
  rw [padded, window_eq, hpresent, hmissing]

theorem padded_eq_map (data : Bytes) (start width : Nat) :
    data.padded start width = (List.range width).map fun i => data.byteAt (start + i) := by
  have htaken : ((data.toList.drop start).take width).length = min width (data.size - start) := by
    rw [List.length_take, List.length_drop, Array.length_toList]
  have hlength : (data.padded start width).length = width := by
    rw [padded_eq, List.length_append, htaken, List.length_replicate]
    omega
  refine List.ext_getElem (by rw [hlength, List.length_map, List.length_range]) ?_
  intro i hi _
  rw [List.getElem_map, List.getElem_range, byteAt]
  rw [hlength] at hi
  by_cases hinside : start + i < data.size
  · have hpresent : i < ((data.toList.drop start).take width).length := by omega
    simp only [padded_eq, List.getElem_append_left hpresent, List.getElem_take, List.getElem_drop]
    simp [hinside]
  · have hmissing : ((data.toList.drop start).take width).length ≤ i := by omega
    simp only [padded_eq, List.getElem_append_right hmissing, List.getElem_replicate]
    simp [hinside]

end Bytes

namespace Binary

def wordsOf : List UInt8 → List UInt32
  | a :: b :: c :: d :: rest => .ofNat (LittleEndian.value [a, b, c, d]) :: wordsOf rest
  | _ => []

theorem bytesOf_wordsOf {bs : List UInt8} (h : bs.length % 4 = 0) : bytesOf (wordsOf bs) = bs := by
  fun_induction wordsOf bs with
  | case1 a b c d rest ih =>
      have hrest : rest.length % 4 = 0 := by
        simp only [List.length_cons] at h
        omega
      have hword : LittleEndian.bytes 4 (UInt32.ofNat (LittleEndian.value [a, b, c, d])).toNat =
          [a, b, c, d] := by
        rw [UInt32.toNat_ofNat_of_lt' (LittleEndian.value_lt [a, b, c, d])]
        exact LittleEndian.bytes_value [a, b, c, d]
      rw [bytesOf, List.flatMap_cons, hword, ← bytesOf, ih hrest]
      rfl
  | case2 bs hshort =>
      rcases bs with _ | ⟨a, _ | ⟨b, _ | ⟨c, _ | ⟨d, rest⟩⟩⟩⟩
      · rfl
      · cases h
      · cases h
      · cases h
      · exact (hshort a b c d rest rfl).elim

theorem wordsAt_succ (data : Bytes) (offset count : Nat) :
    wordsAt data offset (count + 1) = data.wordAt offset :: wordsAt data (offset + 4) count := by
  rw [wordsAt, List.range_succ_eq_map, List.map_cons, List.map_map, wordsAt]
  refine congrArg _ (List.map_congr_left fun i _ => ?_)
  rw [Function.comp_apply, Nat.add_assoc, Nat.mul_succ, Nat.add_comm 4]

theorem wordsOf_padded (data : Bytes) (offset count : Nat) :
    wordsOf (data.padded offset (4 * count)) = wordsAt data offset count := by
  rw [Bytes.padded_eq_map]
  induction count generalizing offset with
  | zero => rfl
  | succ count ih =>
      have hshift : ((fun i => data.byteAt (offset + i)) ∘ fun i => 4 + i) =
          fun i => data.byteAt (offset + 4 + i) :=
        funext fun i => congrArg data.byteAt (Nat.add_assoc ..).symm
      rw [Nat.mul_succ, Nat.add_comm (4 * count), List.range_add, List.map_append, List.map_map,
        hshift, wordsAt_succ, ← ih]
      rfl

/-- The words of a range when the place of the last word has to be a 64-bit word itself, and a
buffer is filled from the file, then with zeros, and cut into words. -/
def extractBuffered (seekLimit : Nat) (data : Bytes) (offset length : Nat) :
    Except BinaryError (List UInt32) :=
  if length % 4 ≠ 0 then .error (.unalignedLength length)
  else if 0 < length / 4 ∧
      (Elf.Checked.sum? offset ((length / 4 - 1) * 4)).all (data.size ≤ ·) then
    .error (.rangeBeyondFile offset length data.size)
  else if offset < seekLimit then .ok (wordsOf (data.padded offset length))
  else .error (.access .invalidInput)

variable {files : Files} {name : String} {data : Bytes} {offset length : Nat}

theorem bytesOf_wordsAt (haligned : length % 4 = 0) :
    bytesOf (wordsAt data offset (length / 4)) = data.padded offset length := by
  have hlength : 4 * (length / 4) = length := by omega
  have hwords := wordsOf_padded data offset (length / 4)
  rw [hlength] at hwords
  rw [← hwords, bytesOf_wordsOf]
  rwa [Bytes.padded_eq_map, List.length_map, List.length_range]

theorem lastWord_beyond_iff (offset : Nat) (hsize : data.size < UInt64.size)
    (hlength : 4 ≤ length) :
    (Elf.Checked.sum? offset (length - 4)).all (data.size ≤ ·) = true ↔
      data.size + 4 ≤ offset + length := by
  rw [Elf.Checked.sum?]
  split
  · rw [Option.all_some, decide_eq_true_eq]
    omega
  · rw [Option.all_none]
    simp only [true_iff]
    omega

theorem extractBuffered_eq (hfile : files.lookup name = .ok (.file data))
    (hsize : data.size < UInt64.size) (hseek : data.size ≤ files.seekLimit) :
    extractBuffered files.seekLimit data offset length = extractWords files name offset length := by
  by_cases haligned : length % 4 = 0
  · have hwords := wordsOf_padded data offset (length / 4)
    rw [Nat.mul_div_cancel' (Nat.dvd_of_mod_eq_zero haligned)] at hwords
    rw [extractBuffered, if_neg (not_not.2 haligned), hwords]
    rcases Nat.eq_zero_or_pos length with rfl | hpos
    · simp [extractWords, hfile, wordsAt]
    · have hlast : (length / 4 - 1) * 4 = length - 4 := by omega
      have hcount : 0 < length / 4 := by omega
      have hbeyond := lastWord_beyond_iff offset hsize (show 4 ≤ length by omega)
      rw [extractWords_of_aligned hfile haligned hpos, hlast]
      by_cases hinside : offset + length < data.size + 4
      · rw [if_neg fun h => by have := hbeyond.1 h.2; omega, if_pos (by omega), if_pos hinside]
      · rw [if_pos ⟨hcount, hbeyond.2 (Nat.le_of_not_lt hinside)⟩, if_neg hinside]
  · rw [extractBuffered, if_pos haligned]
    exact (if_pos haligned).symm

/-- A range is read when its last word starts inside the file, and no more than that word reaches
beyond it. Positions that are words find the same. -/
theorem extractWords_exact (hfile : files.lookup name = .ok (.file data)) (offset : Nat)
    (haligned : length % 4 = 0) :
    (0 < length →
      (extractWords files name offset length = .error (.rangeBeyondFile offset length data.size) ↔
        data.size ≤ offset + length - 4) ∧
      (offset + length - 4 < data.size →
        ∃ ws missing, extractWords files name offset length = .ok ws ∧
          ws.length = length / 4 ∧ missing ≤ 3 ∧
          bytesOf ws = (data.toList.drop offset).take length ++ .replicate missing 0)) ∧
    (length = 0 → files.SeeksSigned → offset < Files.positionLimit →
      extractWords files name offset length = .ok []) ∧
    (∀ ws, extractWords files name offset length = .ok ws →
      (bytesOf ws).length ≤ data.size + 3) ∧
    (data.size < UInt64.size → data.size ≤ files.seekLimit →
      extractBuffered files.seekLimit data offset length =
        extractWords files name offset length) := by
  refine ⟨fun hpos => ?_, ?_, fun ws hws => ?_, extractBuffered_eq hfile⟩
  · rw [extractWords_of_aligned hfile haligned hpos]
    constructor
    · by_cases hinside : offset + length < data.size + 4
      · rw [if_pos hinside]
        simp only [reduceCtorEq, false_iff]
        omega
      · rw [if_neg hinside]
        simp only [true_iff]
        omega
    · intro hinside
      refine ⟨_, length - (data.size - offset), if_pos (by omega), length_wordsAt .., by omega, ?_⟩
      rw [bytesOf_wordsAt haligned, Bytes.padded_eq]
  · rintro rfl hseek hoffset
    have hsought : offset < files.seekLimit := Nat.lt_of_lt_of_le hoffset hseek
    simp [extractWords, hfile, hsought]
  · obtain ⟨-, hcount, -⟩ := extractWords_eq_ok hws
    rw [length_bytesOf, hcount]
    rcases Nat.eq_zero_or_pos length with rfl | hpos
    · exact Nat.zero_le _
    · rw [extractWords_of_aligned hfile haligned hpos] at hws
      split at hws
      · omega
      · cases hws

theorem extractWords_exact_short :
    ∃ ws, extractWords (.single #[1, 2, 3, 4, 5, 6]) "a" 1 8 = .ok ws ∧
      bytesOf ws = [2, 3, 4, 5, 6, 0, 0, 0] ∧
      extractBuffered Files.positionLimit #[1, 2, 3, 4, 5, 6] 0xFFFFFFFFFFFFFFFE 8 =
        .error (.rangeBeyondFile 0xFFFFFFFFFFFFFFFE 8 6) ∧
      extractWords (.single #[1, 2, 3, 4, 5, 6]) "a" 0x7FFFFFFFFFFFFFFF 0 = .ok [] := by
  have haligned : 8 % 4 = 0 := by decide
  have hfile := Files.lookup_single #[1, 2, 3, 4, 5, 6]
  obtain ⟨hshort, -⟩ := extractWords_exact hfile 1 haligned
  obtain ⟨ws, missing, hws, hcount, -, hbytes⟩ := (hshort (by decide)).2 (by decide)
  obtain ⟨hfar, -, -, hbuffered⟩ := extractWords_exact hfile 0xFFFFFFFFFFFFFFFE haligned
  obtain ⟨-, hnone, -⟩ := extractWords_exact hfile 0x7FFFFFFFFFFFFFFF (Nat.zero_mod 4)
  have hmissing : missing = 3 := by
    have hlength := congrArg List.length hbytes
    rw [length_bytesOf, hcount, List.length_append, List.length_replicate] at hlength
    exact (Nat.add_left_cancel (n := 5) hlength).symm
  refine ⟨ws, hws, ?_, ?_, hnone rfl (Nat.le_refl _) (by decide)⟩
  · rw [hbytes, hmissing]
    rfl
  · exact (hbuffered (by decide) (by decide)).trans ((hfar (by decide)).1.2 (by decide))

example : extractWords { Files.single #[1] with seekLimit := 8 } "a" 8 0 =
    .error (.access .invalidInput) := by
  decide

end Binary

end Testbench
