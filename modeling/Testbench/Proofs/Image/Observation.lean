import Testbench.Elf.Builder
import Testbench.Proofs.Image.Load

namespace Testbench

def Section.reach (s : Section) : Nat :=
  (s.size + 3) / 4 * 4

namespace Binary

variable {files others : Files} {file name : String} {first second : Bytes}

theorem wordsAt_congr {offset count : Nat}
    (h : ∀ i < 4 * count, first.byteAt (offset + i) = second.byteAt (offset + i)) :
    wordsAt first offset count = wordsAt second offset count := by
  refine List.map_congr_left fun i hi => ?_
  have hcount : i < count := List.mem_range.1 hi
  have hbytes : ∀ j ∈ List.range 4,
      first.byteAt (offset + 4 * i + j) = second.byteAt (offset + 4 * i + j) := by
    intro j hj
    have hword : j < 4 := List.mem_range.1 hj
    rw [Nat.add_assoc]
    exact h (4 * i + j) (by omega)
  rw [Bytes.wordAt, Bytes.wordAt, List.map_congr_left hbytes]

theorem extractWords_congr {offset length : Nat}
    (hfirst : files.lookup file = .ok (.file first))
    (hsecond : others.lookup name = .ok (.file second))
    (hsystem : files.SameSystem others) (hsize : first.size = second.size)
    (h : ∀ i < length, first.byteAt (offset + i) = second.byteAt (offset + i)) :
    extractWords files file offset length = extractWords others name offset length := by
  by_cases haligned : length % 4 = 0
  · have hwords : wordsAt first offset (length / 4) = wordsAt second offset (length / 4) :=
      wordsAt_congr fun i hi => h i (by omega)
    have hsizes : files.sizeOf (.file first) = others.sizeOf (.file second) := hsize
    simp only [extractWords, hfirst, hsecond, hsystem.seekLimit_eq, hsizes, hwords]
  · rw [extractWords, extractWords, if_pos haligned, if_pos haligned]

theorem sectionWords_congr {s : Section} (hfirst : files.lookup file = .ok (.file first))
    (hsecond : others.lookup name = .ok (.file second))
    (hsystem : files.SameSystem others) (hsize : first.size = second.size)
    (h : s.isNobits = false → ∀ i < s.reach,
      first.byteAt (s.offset + i) = second.byteAt (s.offset + i)) :
    sectionWords files file s = sectionWords others name s := by
  rw [sectionWords, sectionWords]
  cases hlength : s.wordLength? with
  | none => rfl
  | some length =>
      have hreach : s.reach = length := (Section.wordLength?_eq_some_iff.1 hlength).1
      cases hnobits : s.isNobits with
      | true => rfl
      | false =>
          have hwords : extractWords files file s.offset length =
              extractWords others name s.offset length :=
            extractWords_congr hfirst hsecond hsystem hsize fun i hi => h hnobits i (hreach ▸ hi)
          simp only [hwords]

end Binary

structure LoadConfig.SameContents (config : LoadConfig) (table : SectionTable)
    (extent : Section → Nat) (first second : Bytes) : Prop where
  size_eq : first.size = second.size
  byte_eq : ∀ s ∈ config.sections.filterMap table.get?, s.isNobits = false →
    ∀ i < extent s, first.byteAt (s.offset + i) = second.byteAt (s.offset + i)

namespace Image

/-- An image shows nothing of a file but its size, its table of sections and the listed sections,
each up to the end of its last word. -/
theorem load_eq_of_sameContents {config : LoadConfig} {host other : Host} {file name : String}
    {table : SectionTable} {first second : Bytes}
    (hhost : Binary.sectionTable host config.source file = .ok table)
    (hother : Binary.sectionTable other config.source name = .ok table)
    (hfirst : (config.source.after host file).files.lookup file = .ok (.file first))
    (hsecond : (config.source.after other name).files.lookup name = .ok (.file second))
    (hsystem : host.files.SameSystem other.files)
    (hsame : config.SameContents table Section.reach first second) :
    load host config file = load other config name := by
  have hafter : (config.source.after host file).files.SameSystem
      (config.source.after other name).files :=
    ((config.source.sameSystem_after host file).trans hsystem).trans
      (config.source.sameSystem_after other name).symm
  rw [load_of_table hhost, load_of_table hother]
  refine congrArg _ (mapM_congr_of_forall fun s hs => ?_)
  rw [blockOf, blockOf,
    Binary.sectionWords_congr hfirst hsecond hafter hsame.size_eq (hsame.byte_eq s hs)]

/-- A file whose section `.text` ends in the middle of a word; the given bytes, a section
`.comment`, follow at once. -/
def remarkFile (remark : List UInt8) : Bytes :=
  (Elf.Builder.fileHeader 52 4 ++
    Elf.Builder.entry [1, 1, 0, 0x80000000, 233, 3, 0, 0, 4, 0] ++
    Elf.Builder.entry [7, 8, 0, 0x80000004, 236, 2, 0, 0, 4, 0] ++
    Elf.Builder.entry [12, 1, 0, 0, 236, 2, 0, 0, 1, 0] ++
    Elf.Builder.entry [0, 3, 0, 0, 212, 21, 0, 0, 1, 0] ++
    0 :: Elf.Builder.nameBytes ".text" ++ Elf.Builder.nameBytes ".bss" ++
    Elf.Builder.nameBytes ".comment" ++ [1, 2, 3] ++ remark).toArray

def remarkEntries : List Elf.Entry :=
  [⟨1, 1, 0x80000000, 233, 3, 0⟩, ⟨7, 8, 0x80000004, 236, 2, 0⟩, ⟨12, 1, 0, 236, 2, 0⟩,
    ⟨0, 3, 0, 212, 21, 0⟩]

def remarkSections : List Section :=
  [⟨0, ".text", "PROGBITS", 0x80000000, 233, 3, 0⟩, ⟨1, ".bss", "NOBITS", 0x80000004, 236, 2, 0⟩,
    ⟨2, ".comment", "PROGBITS", 0, 236, 2, 0⟩]

def remarkHost (remark : List UInt8) : Host where
  files := .ofEntries [] [] [(["a"], remarkFile remark)]
  searchPath := []
  program? _ := none

def remarkConfig : LoadConfig :=
  ⟨[".text", ".data", ".bss"], true, .native⟩

def remarks : List (List UInt8) :=
  [[4, 5], [4, 6], [7, 5]]

theorem readTable_remark : ∀ remark ∈ remarks,
    Elf.readTable (remarkFile remark) = .ok (.ofList remarkSections) := by
  have hheader : ∀ remark ∈ remarks,
      Elf.readHeader (remarkFile remark) = .ok ⟨.elf32, 52, 40, 4, 3⟩ := by decide +kernel
  have hentries : ∀ remark ∈ remarks,
      Elf.readEntries (remarkFile remark) ⟨.elf32, 52, 40, 4, 3⟩ = .ok remarkEntries := by
    decide +kernel
  have hrows : ∀ remark ∈ remarks, remarkEntries.zipIdx.filterMap
      (fun entry => entry.1.section? (remarkFile remark) 212 entry.2) = remarkSections := by
    decide +kernel
  intro remark h
  rw [Elf.readTable, hheader remark h]
  simp only [bind, Except.bind, hentries remark h]
  exact congrArg (fun sections => Except.ok (SectionTable.ofList sections)) (hrows remark h)

theorem sectionTable_remark {remark : List UInt8} (h : remark ∈ remarks) :
    Binary.sectionTable (remarkHost remark) .native "a" = .ok (.ofList remarkSections) :=
  sectionTable_native_eq_ok_iff.2 ⟨remarkFile remark, rfl, readTable_remark remark h⟩

theorem listed_remark :
    remarkConfig.sections.filterMap (SectionTable.ofList remarkSections).get? =
      remarkSections.take 2 := by
  have hget : (SectionTable.ofList remarkSections).get? = fun name =>
      remarkSections.reverse.find? (·.name = name) :=
    funext fun name => SectionTable.get?_ofList _ name
  rw [hget]
  decide +kernel

theorem load_remark {remark : List UInt8} (h : remark ∈ remarks) {image : Image}
    (hblocks : (remarkSections.take 2).mapM
      (blockOf (remarkHost remark).files "a" remarkConfig) = .ok image.blocks) :
    load (remarkHost remark) remarkConfig "a" = .ok image := by
  refine (load_native_eq_ok_iff rfl).2
    ⟨remarkFile remark, .ofList remarkSections, rfl, readTable_remark remark h, ?_⟩
  rwa [listed_remark, ← mapM_eq_ok_iff]

theorem load_eq_of_sameContents_remark :
    remarkFile [4, 5] ≠ remarkFile [4, 6] ∧
      load (remarkHost [4, 5]) remarkConfig "a" = load (remarkHost [4, 6]) remarkConfig "a" := by
  have hsame : remarkConfig.SameContents (.ofList remarkSections) Section.reach
      (remarkFile [4, 5]) (remarkFile [4, 6]) := by
    refine ⟨by decide +kernel, ?_⟩
    rw [listed_remark]
    decide +kernel
  exact ⟨by decide +kernel, load_eq_of_sameContents (sectionTable_remark (by decide))
    (sectionTable_remark (by decide)) rfl rfl (Files.sameSystem_ofEntries ..) hsame⟩

/-- The first byte of the remark fills up the last word of `.text`, though it lies beyond the size
of that section. -/
theorem load_ne_of_last_word :
    remarkConfig.SameContents (.ofList remarkSections) Section.size (remarkFile [4, 5])
        (remarkFile [7, 5]) ∧
      Binary.sectionTable (remarkHost [4, 5]) .native "a" = .ok (.ofList remarkSections) ∧
      Binary.sectionTable (remarkHost [7, 5]) .native "a" = .ok (.ofList remarkSections) ∧
      load (remarkHost [4, 5]) remarkConfig "a" ≠ load (remarkHost [7, 5]) remarkConfig "a" := by
  have hfour : load (remarkHost [4, 5]) remarkConfig "a" =
      .ok ⟨[⟨".text", 0, .listed [0x04030201]⟩, ⟨".bss", 4, .zeros 1⟩]⟩ :=
    load_remark (by decide) (by decide +kernel)
  have hseven : load (remarkHost [7, 5]) remarkConfig "a" =
      .ok ⟨[⟨".text", 0, .listed [0x07030201]⟩, ⟨".bss", 4, .zeros 1⟩]⟩ :=
    load_remark (by decide) (by decide +kernel)
  refine ⟨⟨by decide +kernel, ?_⟩, sectionTable_remark (by decide),
    sectionTable_remark (by decide), ?_⟩
  · rw [listed_remark]
    decide +kernel
  · rw [hfour, hseven]
    decide

end Image

end Testbench
