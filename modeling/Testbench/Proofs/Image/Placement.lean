import Testbench.Elf.Builder
import Testbench.Proofs.Binary.Contents
import Testbench.Proofs.Image.Load

namespace Testbench

namespace LoadConfig

def covers (config : LoadConfig) (s : Section) (address : Nat) : Bool :=
  config.targetAddress s.address ≤ address &&
    address < config.targetAddress s.address + (s.size + 3) / 4 * 4

def covering? (config : LoadConfig) (sections : List Section) (address : Nat) : Option Section :=
  (sections.filter (config.covers · address)).getLast?

theorem covering?_cons (config : LoadConfig) (s : Section) (sections : List Section)
    (address : Nat) :
    config.covering? (s :: sections) address =
      (config.covering? sections address).or
        (if config.covers s address then some s else none) := by
  rw [covering?, covering?, List.filter_cons]
  by_cases h : config.covers s address
  · rw [if_pos h, if_pos h, List.getLast?_cons]
    cases (sections.filter (config.covers · address)).getLast? <;> rfl
  · rw [if_neg h, if_neg h, Option.or_none]

def placed (config : LoadConfig) (data : Bytes) (sections : List Section) (address : Nat)
    (before : Option UInt8) : Option UInt8 :=
  match config.covering? sections address with
  | some s => some (s.byteAt data (address - config.targetAddress s.address))
  | none => before

theorem placed_cons (config : LoadConfig) (data : Bytes) (s : Section) (sections : List Section)
    (address : Nat) (before : Option UInt8) :
    config.placed data (s :: sections) address before =
      config.placed data sections address
        (if config.covers s address then
          some (s.byteAt data (address - config.targetAddress s.address))
        else before) := by
  rw [placed, placed, covering?_cons]
  cases config.covering? sections address with
  | some last => rfl
  | none => by_cases h : config.covers s address <;> simp [h]

end LoadConfig

namespace Image

/-- A memory whose bytes are seen through `view` takes an accepted block where it belongs. -/
def Takes {μ : Type} [WordSink μ] (view : μ → Nat → Option UInt8) (b : Block) : Prop :=
  ∀ memory last : μ, WordSink.store memory b.base b.words = (last, .ok ()) → ∀ a, view last a =
    if b.base ≤ a ∧ a < b.base + 4 * b.words.length then b.words.byte? (a - b.base)
    else view memory a

theorem view_of_blockOf {μ : Type} [WordSink μ] {view : μ → Nat → Option UInt8}
    {config : LoadConfig} {files : Files} {file : String} {data : Bytes} {s : Section} {b : Block}
    (htakes : Takes view b) (hfile : files.lookup file = .ok (.file data))
    (hblock : blockOf files file config s = .ok b) {memory next : μ}
    (hstore : WordSink.store memory b.base b.words = (next, .ok ())) (a : Nat) :
    view next a =
      if config.covers s a then some (s.byteAt data (a - config.targetAddress s.address))
      else view memory a := by
  obtain ⟨ws, hws, rfl⟩ := blockOf_eq_ok_iff.1 hblock
  rw [htakes memory next hstore a]
  simp only [LoadConfig.covers, Bool.and_eq_true, decide_eq_true_eq,
    ← Binary.length_of_sectionWords hws, Nat.mul_comm ws.length]
  refine if_ctx_congr Iff.rfl (fun hin => ?_) fun _ => rfl
  exact Binary.byte?_of_sectionWords hfile hws (by omega)

theorem view_of_storeBlocks {μ : Type} [WordSink μ] {view : μ → Nat → Option UInt8}
    {config : LoadConfig} {files : Files} {file : String} {data : Bytes} {sections : List Section}
    {blocks : List Block} (htakes : ∀ b ∈ blocks, Takes view b)
    (hfile : files.lookup file = .ok (.file data))
    (hblocks : List.Forall₂ (fun s b => blockOf files file config s = .ok b) sections blocks)
    {memory last : μ} (hstore : storeBlocks blocks memory = (last, .ok ())) (a : Nat) :
    view last a = config.placed data sections a (view memory a) := by
  induction hblocks generalizing memory with
  | nil =>
      cases hstore
      rfl
  | cons hblock _ ih =>
      obtain ⟨next, hfirst, hrest⟩ := storeBlocks_cons_eq_ok_iff.1 hstore
      rw [LoadConfig.placed_cons, ih (fun b hb => htakes b (List.mem_cons_of_mem _ hb)) hrest]
      rw [view_of_blockOf (htakes _ List.mem_cons_self) hfile hblock hfirst]

theorem aligned_of_storeBlocks {blocks : List Block} {ram last : BusRam}
    (h : storeBlocks blocks ram = (last, .ok ())) :
    ∀ b ∈ blocks, b.words.length ≠ 0 → b.base % 4 = 0 := by
  induction blocks generalizing ram with
  | nil => simp
  | cons b bs ih =>
      obtain ⟨next, hfirst, hrest⟩ := storeBlocks_cons_eq_ok_iff.1 h
      intro b' hb' hlength
      rcases List.mem_cons.1 hb' with rfl | hb'
      · change ram.store b'.base b'.words = _ at hfirst
        rw [BusRam.store_eq, BusRam.storeList_eq_ok_iff] at hfirst
        exact (hfirst.1 (by rwa [Ne, Words.toList_eq_nil_iff])).1
      · exact ih hrest b' hb' hlength

/-- Byte by byte, a native load leaves what the last listed section over the address has there. -/
theorem byte?_loadInto_native {host : Host} {config : LoadConfig} {file : String}
    (hnative : config.source = .native) :
    (∀ (ram last : BusRam) (image : Image), loadInto host config file ram = (last, .ok image) →
      (∀ b ∈ image.blocks, b.words.length ≠ 0 → b.base % 4 = 0) ∧
      ∃ data table, host.files.lookup file = .ok (.file data) ∧ Elf.readTable data = .ok table ∧
        ∀ a, last.byte? a =
          config.placed data (config.sections.filterMap table.get?) a (ram.byte? a)) ∧
    (∀ (memory last : WordMemory) (image : Image),
      loadInto host config file memory = (last, .ok image) →
      (∀ b ∈ image.blocks, b.base % 4 = 0) →
      ∃ data table, host.files.lookup file = .ok (.file data) ∧ Elf.readTable data = .ok table ∧
        ∀ a, last.byte? a =
          config.placed data (config.sections.filterMap table.get?) a (memory.byte? a)) := by
  constructor
  · intro ram last image h
    obtain ⟨hload, hstore⟩ := loadInto_eq_ok_iff.1 h
    obtain ⟨data, table, hdata, htable, hblocks⟩ := (load_native_eq_ok_iff hnative).1 hload
    refine ⟨aligned_of_storeBlocks hstore, data, table, hdata, htable, ?_⟩
    exact view_of_storeBlocks (fun b _ _ _ => BusRam.byte?_of_store) hdata hblocks hstore
  · intro memory last image h haligned
    obtain ⟨hload, hstore⟩ := loadInto_eq_ok_iff.1 h
    obtain ⟨data, table, hdata, htable, hblocks⟩ := (load_native_eq_ok_iff hnative).1 hload
    refine ⟨data, table, hdata, htable, ?_⟩
    exact view_of_storeBlocks (fun b hb _ _ => WordMemory.byte?_of_store (haligned b hb)) hdata
      hblocks hstore

/-- A file with a section `.text` of seven bytes, of which six are there, and a section `.bss` over
its last three. -/
def overlapFile : Bytes :=
  (Elf.Builder.fileHeader 52 3 ++
    Elf.Builder.entry [1, 1, 0, 0x80000000, 184, 7, 0, 0, 4, 0] ++
    Elf.Builder.entry [7, 8, 0, 0x80000004, 0, 3, 0, 0, 4, 0] ++
    Elf.Builder.entry [0, 3, 0, 0, 172, 12, 0, 0, 1, 0] ++
    0 :: Elf.Builder.nameBytes ".text" ++ Elf.Builder.nameBytes ".bss" ++
    [1, 2, 3, 4, 5, 6]).toArray

def overlapEntries : List Elf.Entry :=
  [⟨1, 1, 0x80000000, 184, 7, 0⟩, ⟨7, 8, 0x80000004, 0, 3, 0⟩, ⟨0, 3, 0, 172, 12, 0⟩]

def overlapHost : Host where
  files := .ofEntries [] [] [(["a"], overlapFile)]
  searchPath := []
  program? _ := none

def overlapConfig : LoadConfig :=
  ⟨[".bss", ".data", ".text", ".bss"], true, .native⟩

def overlapImage : Image :=
  ⟨[⟨".bss", 4, .zeros 1⟩, ⟨".text", 0, .listed [0x04030201, 0x0605]⟩, ⟨".bss", 4, .zeros 1⟩]⟩

theorem load_overlap : load overlapHost overlapConfig "a" = .ok overlapImage := by
  have hheader : Elf.readHeader overlapFile = .ok ⟨.elf32, 52, 40, 3, 2⟩ := by decide +kernel
  have hentries : Elf.readEntries overlapFile ⟨.elf32, 52, 40, 3, 2⟩ = .ok overlapEntries := by
    decide +kernel
  have hget : (Elf.tableOfEntries overlapFile 2 overlapEntries).get? = fun name =>
      (overlapEntries.zipIdx.filterMap fun entry =>
        entry.1.section? overlapFile 172 entry.2).reverse.find? (·.name = name) :=
    funext fun name => SectionTable.get?_ofList _ name
  refine (load_native_eq_ok_iff rfl).2 ⟨overlapFile,
    Elf.tableOfEntries overlapFile 2 overlapEntries, by decide +kernel, ?_, ?_⟩
  · rw [Elf.readTable, hheader]
    simp only [bind, Except.bind, hentries, pure, Except.pure]
  · rw [← mapM_eq_ok_iff, hget]
    decide +kernel

theorem byte?_loadInto_native_overlap :
    (∃ table, Elf.readTable overlapFile = .ok table ∧
      ∀ a, (BusRam.mk #[1, 2, 3, 4, 0, 0, 0, 0, 9]).byte? a =
        overlapConfig.placed overlapFile (overlapConfig.sections.filterMap table.get?) a
          ((BusRam.mk (.replicate 9 9)).byte? a)) ∧
      ∃ table, Elf.readTable overlapFile = .ok table ∧
        ∀ a, (WordMemory.mk #[0x04030201, 0, 9]).byte? a =
          overlapConfig.placed overlapFile (overlapConfig.sections.filterMap table.get?) a
            ((WordMemory.mk (.replicate 3 9)).byte? a) := by
  have hnative : overlapConfig.source = .native := rfl
  have hlookup : overlapHost.files.lookup "a" = .ok (.file overlapFile) := by decide +kernel
  have hbus : loadInto overlapHost overlapConfig "a" (BusRam.mk (.replicate 9 9)) =
      (⟨#[1, 2, 3, 4, 0, 0, 0, 0, 9]⟩, .ok overlapImage) :=
    loadInto_eq_ok_iff.2 ⟨load_overlap, by decide +kernel⟩
  have hwords : loadInto overlapHost overlapConfig "a" (WordMemory.mk (.replicate 3 9)) =
      (⟨#[0x04030201, 0, 9]⟩, .ok overlapImage) :=
    loadInto_eq_ok_iff.2 ⟨load_overlap, by decide +kernel⟩
  constructor
  · obtain ⟨-, data, table, hdata, htable, hbytes⟩ :=
      (byte?_loadInto_native hnative).1 _ _ _ hbus
    rw [hlookup] at hdata
    cases hdata
    exact ⟨table, htable, hbytes⟩
  · obtain ⟨data, table, hdata, htable, hbytes⟩ :=
      (byte?_loadInto_native hnative).2 _ _ _ hwords (by decide)
    rw [hlookup] at hdata
    cases hdata
    exact ⟨table, htable, hbytes⟩

end Image

end Testbench
