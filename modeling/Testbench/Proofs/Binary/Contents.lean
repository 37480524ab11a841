import Testbench.Binary.Words
import Testbench.Proofs.Memory.ByteView

namespace Testbench

namespace Files

def single (data : Bytes) : Files :=
  .ofEntries [] [] [(["a"], data)]

theorem lookup_single (data : Bytes) : (single data).lookup "a" = .ok (.file data) :=
  rfl

end Files

namespace Bytes

theorem bytes_wordAt (data : Bytes) (position : Nat) :
    LittleEndian.bytes 4 (data.wordAt position).toNat =
      (List.range 4).map fun i => data.byteAt (position + i) := by
  have hlt := LittleEndian.value_lt ((List.range 4).map fun i => data.byteAt (position + i))
  simp only [List.length_map, List.length_range] at hlt
  have hbytes := LittleEndian.bytes_value ((List.range 4).map fun i => data.byteAt (position + i))
  simp only [List.length_map, List.length_range] at hbytes
  rw [wordAt, UInt32.toNat_ofNat_of_lt' hlt, hbytes]

end Bytes

namespace Section

def byteAt (s : Section) (data : Bytes) (position : Nat) : UInt8 :=
  if s.isNobits then 0 else data.byteAt (s.offset + position)

end Section

namespace Binary

theorem byteOf?_wordsAt (data : Bytes) (offset : Nat) {count position : Nat}
    (h : position < 4 * count) :
    byteOf? (fun i => (wordsAt data offset count)[i]?) position =
      some (data.byteAt (offset + position)) := by
  have hword : position / 4 < count := by omega
  have hbyte : position % 4 < 4 := by omega
  have hsplit : offset + 4 * (position / 4) + position % 4 = offset + position := by omega
  simp [byteOf?, wordsAt, Bytes.bytes_wordAt, hword, hbyte, hsplit]

theorem byteOf?_zeros {count position : Nat} (h : position < 4 * count) :
    byteOf? (fun i => (List.replicate count (0 : UInt32))[i]?) position = some 0 := by
  have hword : position / 4 < count := by omega
  have hbyte : position % 4 < 4 := by omega
  have hzeros : LittleEndian.bytes 4 (0 : UInt32).toNat = List.replicate 4 0 := by decide
  simp only [byteOf?, List.getElem?_replicate, if_pos hword, Option.bind_some, hzeros, if_pos hbyte]

section Words

variable {files : Files} {name : String} {offset length : Nat} {s : Section}

theorem extractWords_eq_ok {ws : List UInt32} (h : extractWords files name offset length = .ok ws) :
    length % 4 = 0 ∧ ws.length = length / 4 ∧
      ∀ data, files.lookup name = .ok (.file data) → ws = wordsAt data offset (length / 4) := by
  simp only [extractWords] at h
  split at h
  · cases h
  · next haligned =>
      refine ⟨by omega, ?_⟩
      cases hlookup : files.lookup name with
      | error e =>
          rw [hlookup] at h
          cases h
      | ok node =>
          simp only [hlookup] at h
          split at h
          · next hzero =>
              split at h
              · cases h
                subst hzero
                exact ⟨rfl, fun _ _ => rfl⟩
              · cases h
          · split at h
            · cases node with
              | directory => cases h
              | file data =>
                  cases h
                  refine ⟨length_wordsAt .., fun other heq => ?_⟩
                  cases heq
                  rfl
            · cases h

theorem extractWords_of_aligned {data : Bytes} (hfile : files.lookup name = .ok (.file data))
    (haligned : length % 4 = 0) (hlength : 0 < length) :
    extractWords files name offset length =
      if offset + length < data.size + 4 then .ok (wordsAt data offset (length / 4))
      else .error (.rangeBeyondFile offset length data.size) := by
  have hlast : offset + (length - 4) < data.size ↔ offset + length < data.size + 4 := by omega
  simp only [extractWords, hfile, Files.sizeOf, haligned, hlast, Nat.ne_of_gt hlength, ne_eq,
    not_true, if_false]

theorem sectionWords_eq_ok {ws : Words} (h : sectionWords files name s = .ok ws) :
    (s.isNobits = true ∧ ws = .zeros ((s.size + 3) / 4)) ∨
      (s.isNobits = false ∧ ∃ listed,
        extractWords files name s.offset ((s.size + 3) / 4 * 4) = .ok listed ∧
          ws = .listed listed) := by
  simp only [sectionWords] at h
  split at h
  · cases h
  · next length hlength =>
      obtain ⟨rfl, -⟩ := Section.wordLength?_eq_some_iff.1 hlength
      split at h
      · next hnobits =>
          split at h
          · cases h
            exact .inl ⟨hnobits, congrArg Words.zeros (Nat.mul_div_cancel _ (by decide))⟩
          · cases h
      · next hbits =>
          cases hwords : extractWords files name s.offset ((s.size + 3) / 4 * 4) with
          | error e =>
              rw [hwords] at h
              cases h
          | ok listed =>
              rw [hwords] at h
              cases h
              exact .inr ⟨Bool.eq_false_iff.2 hbits, listed, rfl, rfl⟩

theorem length_of_sectionWords {ws : Words} (h : sectionWords files name s = .ok ws) :
    ws.length = (s.size + 3) / 4 := by
  obtain ⟨-, rfl⟩ | ⟨-, listed, hwords, rfl⟩ := sectionWords_eq_ok h
  · rfl
  · obtain ⟨-, hlength, -⟩ := extractWords_eq_ok hwords
    exact hlength.trans (Nat.mul_div_cancel _ (by decide))

theorem byte?_of_sectionWords {data : Bytes} {ws : Words}
    (hfile : files.lookup name = .ok (.file data)) (h : sectionWords files name s = .ok ws)
    {position : Nat} (hposition : position < 4 * ws.length) :
    ws.byte? position = some (s.byteAt data position) := by
  rw [Section.byteAt]
  obtain ⟨hnobits, rfl⟩ | ⟨hbits, listed, hwords, rfl⟩ := sectionWords_eq_ok h
  · rw [if_pos hnobits]
    exact byteOf?_zeros hposition
  · obtain ⟨-, hlength, hlisted⟩ := extractWords_eq_ok hwords
    obtain rfl := hlisted data hfile
    rw [if_neg (Bool.eq_false_iff.1 hbits)]
    exact byteOf?_wordsAt data s.offset (hlength ▸ hposition)

end Words

end Binary

end Testbench
