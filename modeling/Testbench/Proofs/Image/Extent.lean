import Testbench.Proofs.Binary.Contents
import Testbench.Proofs.Image.Observation

namespace Testbench

variable {files : Files} {name : String} {data : Bytes} {s : Section}

namespace Binary

theorem sectionWords_of_contents (hfile : files.lookup name = .ok (.file data))
    (hbits : s.isNobits = false) (hsize : 0 < s.size) :
    sectionWords files name s =
      if s.reach < UInt64.size then
        if s.offset + s.reach < data.size + 4 then
          .ok (.listed (wordsAt data s.offset (s.reach / 4)))
        else .error (.rangeBeyondFile s.offset s.reach data.size)
      else .error .sectionOutOfBounds := by
  have haligned : s.reach % 4 = 0 := by simp [Section.reach]
  have hreach : 0 < s.reach := by
    rw [Section.reach]
    omega
  by_cases hfits : s.reach < UInt64.size
  · have hsome : s.wordLength? = some s.reach := Section.wordLength?_eq_some_iff.2 ⟨rfl, hfits⟩
    rw [sectionWords, hsome, if_pos hfits]
    simp only [hbits, extractWords_of_aligned hfile haligned hreach, Bool.false_eq_true, if_false]
    split <;> rfl
  · have hnone : s.wordLength? = none := if_neg hfits
    rw [sectionWords, hnone, if_neg hfits]

theorem exists_sectionWords_iff (hfile : files.lookup name = .ok (.file data))
    (hbits : s.isNobits = false) (hsize : 0 < s.size) :
    (∃ ws, sectionWords files name s = .ok ws) ↔
      s.reach < UInt64.size ∧ s.offset + s.reach < data.size + 4 := by
  rw [sectionWords_of_contents hfile hbits hsize]
  split
  · next hfits =>
      split
      · next hinside => simp [hfits, hinside]
      · next hbeyond => simp [hbeyond]
  · next hwide => simp [hwide]

end Binary

namespace Section

/-- The contents of a section are read when the last word of them starts inside the file. What that
word lacks is zero, and no section is loaded that lacks more. -/
theorem words_of_contents (hbits : s.isNobits = false) (hsize : 0 < s.size)
    (hfile : files.lookup name = .ok (.file data)) :
    ((∃ ws, Binary.sectionWords files name s = .ok ws) ↔
        s.reach < UInt64.size ∧ s.offset + s.reach < data.size + 4) ∧
      (s.offset + s.size ≤ data.size → data.size < Files.positionLimit →
        ∃ ws, Binary.sectionWords files name s = .ok ws) ∧
      (∀ ws, Binary.sectionWords files name s = .ok ws →
        s.offset + s.size < data.size + 4 ∧ 4 * ws.length = s.reach ∧
          ∀ position < s.reach, ws.byte? position = some (data.byteAt (s.offset + position)) ∧
            (data.size ≤ s.offset + position → position / 4 + 1 = ws.length)) ∧
      ∀ (host : Host) (config : LoadConfig) (file : String) (table : SectionTable) (image : Image),
        Binary.sectionTable host config.source file = .ok table →
        (config.source.after host file).files.lookup file = .ok (.file data) →
        s ∈ config.sections.filterMap table.get? → Image.load host config file = .ok image →
          s.offset + s.reach < data.size + 4 := by
  have hiff := Binary.exists_sectionWords_iff hfile hbits hsize
  have hreach : s.size ≤ s.reach ∧ s.reach < s.size + 4 := by
    rw [reach]
    omega
  refine ⟨hiff, fun hinside hlimit => hiff.2 ⟨?_, by omega⟩, fun ws hws => ?_, ?_⟩
  · have hlimits : Files.positionLimit + 4 < UInt64.size := by decide
    omega
  · obtain ⟨-, hlast⟩ := hiff.1 ⟨ws, hws⟩
    have hwhole : 4 * ws.length = s.reach := by
      rw [Binary.length_of_sectionWords hws, reach, Nat.mul_comm]
    refine ⟨by omega, hwhole, fun position hposition => ⟨?_, fun hmissing => by omega⟩⟩
    rw [Binary.byte?_of_sectionWords hfile hws (hwhole ▸ hposition), byteAt,
      if_neg (Bool.eq_false_iff.1 hbits)]
  · intro host config file table image htable hloaded hlisted hload
    have hwords := Image.exists_sectionWords_of_load htable hload hlisted
    exact ((Binary.exists_sectionWords_iff hloaded hbits hsize).1 hwords).2

def shortSection : Section :=
  ⟨1, ".text", "PROGBITS", 0, 1, 7, 0⟩

theorem words_of_contents_short :
    ∃ ws, Binary.sectionWords (.single #[1, 2, 3, 4, 5, 6]) "a" shortSection = .ok ws ∧
      ws.length = 2 ∧ ws.byte? 4 = some 6 ∧ ws.byte? 5 = some 0 := by
  have hbits : shortSection.isNobits = false := by decide
  obtain ⟨hiff, -, hcontents, -⟩ :=
    words_of_contents hbits (by decide) (Files.lookup_single #[1, 2, 3, 4, 5, 6])
  obtain ⟨ws, hws⟩ := hiff.2 (by decide)
  obtain ⟨-, hlength, hbytes⟩ := hcontents ws hws
  have hreach : shortSection.reach = 8 := by decide
  exact ⟨ws, hws, by omega, (hbytes 4 (by decide)).1, (hbytes 5 (by decide)).1⟩

theorem words_of_missing_contents :
    let s : Section := ⟨1, ".text", "PROGBITS", 0, 0, 8, 0⟩
    let data : Bytes := #[0x11, 0x22, 0x33, 0x44, 0x55]
    s.isNobits = false ∧ 0 < s.size ∧
      Binary.sectionWords (Files.single data) "a" s = .ok (.listed [0x44332211, 0x55]) ∧
      ¬ ((∃ ws, Binary.sectionWords (Files.single data) "a" s = .ok ws) ↔
        s.offset + s.size ≤ data.size) := by
  intro s data
  have hwords : Binary.sectionWords (Files.single data) "a" s =
      .ok (.listed [0x44332211, 0x55]) := by
    decide
  exact ⟨rfl, by decide, hwords, fun h => absurd (h.1 ⟨_, hwords⟩) (by decide)⟩

end Section

end Testbench
