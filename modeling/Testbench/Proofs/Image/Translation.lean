import Testbench.Proofs.Elf.Decoded
import Testbench.Proofs.Image.Dump

namespace Testbench

namespace LoadConfig

variable {address : Nat}

theorem translateAddress_lt_iff :
    translateAddress address < linkerBase ↔ address < 0x100000000 := by
  rw [translateAddress, linkerBase]
  split <;> omega

theorem translateAddress_eq_self_iff :
    translateAddress address = address ↔ address < linkerBase := by
  rw [translateAddress, linkerBase]
  split <;> omega

theorem translateAddress_again_iff :
    translateAddress (translateAddress address) = translateAddress address ↔
      address < 0x100000000 :=
  translateAddress_eq_self_iff.trans translateAddress_lt_iff

end LoadConfig

namespace Image

open LoadConfig

section Translated

variable {host : Host} {config : LoadConfig} {file : String} {table : SectionTable} {image : Image}

/-- A block stands below the linker base when its section is linked below 2³², and only then it does
not move again. All sections of a 32-bit file are linked there. -/
theorem translated_below_linkerBase_iff (htranslate : config.translate = true)
    (htable : Binary.sectionTable host config.source file = .ok table)
    (hload : load host config file = .ok image) :
    (∀ b ∈ image.blocks, ∃ s, table.get? b.name = some s ∧ b.base = translateAddress s.address ∧
      (b.base < linkerBase ↔ s.address < 0x100000000) ∧
      (translateAddress b.base = b.base ↔ s.address < 0x100000000)) ∧
    ∀ data native, Elf.classOf data = .ok .elf32 → Elf.readTable data = .ok native →
      (∀ name ∈ config.sections, table.get? name = native.get? name) →
      ∀ b ∈ image.blocks, b.base < linkerBase ∧ translateAddress b.base = b.base := by
  have hblocks (b : Block) (hb : b ∈ image.blocks) :
      ∃ s, table.get? b.name = some s ∧ b.base = translateAddress s.address := by
    obtain ⟨s, hs, hbase, -⟩ := exists_section_of_mem_blocks htable hload hb
    rw [targetAddress, if_pos htranslate] at hbase
    exact ⟨s, hs, hbase⟩
  constructor
  · intro b hb
    obtain ⟨s, hs, hbase⟩ := hblocks b hb
    rw [hbase]
    exact ⟨s, hs, rfl, translateAddress_lt_iff, translateAddress_again_iff⟩
  · intro data native hclass hnative hsame b hb
    obtain ⟨s, hs, hbase⟩ := hblocks b hb
    have hlisted : b.name ∈ config.sections := by
      have hname := List.mem_map_of_mem (f := Block.name) hb
      rw [map_name_blocks htable hload] at hname
      exact (List.mem_filter.1 hname).1
    rw [hsame _ hlisted, SectionTable.get?_eq_some_iff] at hs
    have haddress : s.address < 0x100000000 := Elf.address_lt_of_classOf hclass hnative hs.1
    rw [hbase]
    exact ⟨translateAddress_lt_iff.2 haddress, translateAddress_again_iff.2 haddress⟩

end Translated

namespace High

def header : Elf.FileHeader :=
  ⟨List.replicate 10 0, 2, 243, 1, 0, 0, 64, 0, 64, 0, 0, 64, 3, 2⟩

def entries : List Elf.FullEntry :=
  [⟨⟨1, 1, 0xFFFFFFFC, 269, 4, 0⟩, 0, 0, 0, 4⟩, ⟨⟨7, 1, 0x100000000, 273, 4, 0⟩, 0, 0, 0, 4⟩,
    ⟨⟨0, 3, 0, 256, 13, 0⟩, 0, 0, 0, 1⟩]

def name : Nat → List UInt8
  | 0 => [0x2E, 0x74, 0x65, 0x78, 0x74]
  | 1 => [0x2E, 0x64, 0x61, 0x74, 0x61]
  | _ => []

def data : Bytes :=
  (header.bytes .elf64 ++ entries.flatMap (Elf.FullEntry.bytes .elf64) ++
    0 :: name 0 ++ 0 :: name 1 ++ [0, 1, 2, 3, 4, 5, 6, 7, 8]).toArray

def host : Host where
  files := .ofEntries [] [] [(["a"], data)]
  searchPath := []
  program? _ := none

def config : LoadConfig :=
  ⟨[".text", ".data"], true, .native⟩

def image : Image :=
  ⟨[⟨".text", 0x7FFFFFFC, .listed [0x04030201]⟩, ⟨".data", 0x80000000, .listed [0x08070605]⟩]⟩

theorem readTable_eq : Elf.readTable data = .ok (Elf.tableOf entries name 2) :=
  Elf.readTable_of_written (c := .elf64) (h := header) (by decide +kernel)

theorem sectionTable_eq :
    Binary.sectionTable host config.source "a" = .ok (Elf.tableOf entries name 2) :=
  sectionTable_native_eq_ok_iff.2 ⟨data, rfl, readTable_eq⟩

theorem load_eq : load host config "a" = .ok image := by
  have hget : (Elf.tableOf entries name 2).get? = fun sought =>
      (entries.zipIdx.filterMap fun p => p.1.section? name p.2).reverse.find? (·.name = sought) :=
    funext fun sought => SectionTable.get?_ofList _ sought
  refine (load_native_eq_ok_iff rfl).2 ⟨data, _, rfl, readTable_eq, ?_⟩
  rw [← mapM_eq_ok_iff, hget]
  decide +kernel

end High

theorem translated_below_linkerBase_iff_high :
    (∀ b ∈ High.image.blocks, ∃ s, (Elf.tableOf High.entries High.name 2).get? b.name = some s ∧
        b.base = translateAddress s.address ∧ (b.base < linkerBase ↔ s.address < 0x100000000) ∧
        (translateAddress b.base = b.base ↔ s.address < 0x100000000)) ∧
      ∀ b ∈ overlapImage.blocks, b.base < linkerBase ∧ translateAddress b.base = b.base := by
  obtain ⟨data, table, hdata, hread, -⟩ := (load_native_eq_ok_iff rfl).1 load_overlap
  have htable : Binary.sectionTable overlapHost overlapConfig.source "a" = .ok table :=
    sectionTable_native_eq_ok_iff.2 ⟨data, hdata, hread⟩
  have hclass : Elf.classOf data = .ok .elf32 := by
    have hlookup : overlapHost.files.lookup "a" = .ok (.file overlapFile) := by decide +kernel
    rw [hlookup] at hdata
    cases hdata
    decide +kernel
  exact ⟨(translated_below_linkerBase_iff rfl High.sectionTable_eq High.load_eq).1,
    (translated_below_linkerBase_iff rfl htable load_overlap).2 data table hclass hread
      fun _ _ => rfl⟩

theorem translated_reaches_linkerBase :
    (∃ table, Elf.readTable High.data = .ok table) ∧ High.config.translate = true ∧
      load High.host High.config "a" = .ok High.image ∧
      ¬ (∀ b ∈ High.image.blocks, b.base < linkerBase) ∧
      ¬ (∀ b ∈ High.image.blocks, translateAddress b.base = b.base) :=
  ⟨⟨_, High.readTable_eq⟩, rfl, High.load_eq, by decide, by decide⟩

end Image

end Testbench
