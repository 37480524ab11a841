import Testbench.Image.Basic
import Testbench.Proofs.Traversal

namespace Testbench

namespace Image

section Table

variable {host : Host} {config : LoadConfig} {file : String} {table : SectionTable} {image : Image}
  {e : BinaryError}

theorem blockOf_eq_ok_iff {files : Files} {s : Section} {b : Block} :
    blockOf files file config s = .ok b ↔ ∃ ws, Binary.sectionWords files file s = .ok ws ∧
      b = ⟨s.name, config.targetAddress s.address, ws⟩ := by
  rw [blockOf]
  cases Binary.sectionWords files file s with
  | error e => simp [bind, Except.bind]
  | ok ws => simp [bind, Except.bind, pure, Except.pure, eq_comm]

theorem blockOf_eq_error_iff {files : Files} {s : Section} :
    blockOf files file config s = .error e ↔ Binary.sectionWords files file s = .error e := by
  rw [blockOf]
  cases Binary.sectionWords files file s with
  | error e => simp [bind, Except.bind]
  | ok ws => simp [bind, Except.bind, pure, Except.pure]

theorem load_of_table (h : Binary.sectionTable host config.source file = .ok table) :
    load host config file = ((config.sections.filterMap table.get?).mapM
      (blockOf (config.source.after host file).files file config)).map Image.mk := by
  rw [load, h]
  exact bind_pure_comp (m := Except BinaryError) Image.mk _

theorem load_of_table_error (h : Binary.sectionTable host config.source file = .error e) :
    load host config file = .error e := by
  rw [load, h]
  rfl

theorem load_eq_ok_iff (h : Binary.sectionTable host config.source file = .ok table) :
    load host config file = .ok image ↔
      List.Forall₂
        (fun s b => blockOf (config.source.after host file).files file config s = .ok b)
        (config.sections.filterMap table.get?) image.blocks := by
  rw [load_of_table h, ← mapM_eq_ok_iff]
  cases List.mapM (m := Except BinaryError) _ (config.sections.filterMap table.get?) with
  | error e => exact ⟨nofun, nofun⟩
  | ok blocks =>
      simp only [Except.map, Except.ok.injEq]
      exact ⟨fun heq => heq ▸ rfl, fun heq => heq ▸ rfl⟩

theorem exists_sectionWords_of_load {s : Section}
    (h : Binary.sectionTable host config.source file = .ok table)
    (hload : load host config file = .ok image) (hs : s ∈ config.sections.filterMap table.get?) :
    ∃ ws, Binary.sectionWords (config.source.after host file).files file s = .ok ws := by
  have hblocks := mapM_eq_ok_iff.2 ((load_eq_ok_iff h).1 hload)
  obtain ⟨b, hb⟩ := exists_mapM_eq_ok_iff.1 ⟨image.blocks, hblocks⟩ s hs
  obtain ⟨ws, hws, -⟩ := blockOf_eq_ok_iff.1 hb
  exact ⟨ws, hws⟩

theorem sectionTable_native_eq_ok_iff :
    Binary.sectionTable host .native file = .ok table ↔
      ∃ data, host.files.lookup file = .ok (.file data) ∧ Elf.readTable data = .ok table := by
  rw [Binary.sectionTable]
  cases host.files.lookup file with
  | error e => simp
  | ok node => cases node <;> simp [Node.contents, Except.mapError, Except.bind]

theorem load_native_eq_ok_iff (hnative : config.source = .native) :
    load host config file = .ok image ↔
      ∃ data table, host.files.lookup file = .ok (.file data) ∧ Elf.readTable data = .ok table ∧
        List.Forall₂ (fun s b => blockOf host.files file config s = .ok b)
          (config.sections.filterMap table.get?) image.blocks := by
  have hafter : config.source.after host file = host := by rw [hnative]; rfl
  constructor
  · intro h
    obtain ⟨table, htable, -⟩ := Files.eq_ok_of_bind h
    have hblocks := (load_eq_ok_iff htable).1 h
    rw [hnative] at htable
    obtain ⟨data, hdata, hread⟩ := sectionTable_native_eq_ok_iff.1 htable
    rw [hafter] at hblocks
    exact ⟨data, table, hdata, hread, hblocks⟩
  · rintro ⟨data, table, hdata, hread, hblocks⟩
    have htable := sectionTable_native_eq_ok_iff.2 ⟨data, hdata, hread⟩
    rw [← hnative] at htable
    rwa [load_eq_ok_iff htable, hafter]

end Table

theorem storeBlocks_cons_eq_ok_iff {μ : Type} [WordSink μ] {b : Block} {bs : List Block}
    {memory last : μ} :
    storeBlocks (b :: bs) memory = (last, .ok ()) ↔
      ∃ next, WordSink.store memory b.base b.words = (next, .ok ()) ∧
        storeBlocks bs next = (last, .ok ()) := by
  rw [storeBlocks]
  rcases hstore : WordSink.store memory b.base b.words with ⟨next, e | u⟩
  · simp
  · simp

theorem loadInto_eq_ok_iff {μ : Type} [WordSink μ] {host : Host} {config : LoadConfig}
    {file : String} {memory last : μ} {image : Image} :
    loadInto host config file memory = (last, .ok image) ↔
      load host config file = .ok image ∧ image.storeIn memory = (last, .ok ()) := by
  rw [loadInto]
  cases load host config file with
  | error e => simp
  | ok loaded =>
      simp only [Except.ok.injEq]
      constructor
      · intro h
        rcases hstore : loaded.storeIn memory with ⟨next, e | u⟩
        · rw [hstore] at h
          cases h
        · rw [hstore] at h
          cases h
          exact ⟨rfl, hstore⟩
      · rintro ⟨rfl, hstore⟩
        rw [hstore]

end Image

end Testbench
