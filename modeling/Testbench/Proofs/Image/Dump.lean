import Testbench.Proofs.Image.Placement

namespace Testbench

namespace SectionTable

variable {table : SectionTable} {files : Files} {file : String} {names : List String}
  {e : BinaryError}

theorem map_name_filterMap_get? (table : SectionTable) (names : List String) :
    (names.filterMap table.get?).map Section.name = names.filter table.contains := by
  induction names with
  | nil => rfl
  | cons name names ih =>
      rw [List.filterMap_cons, List.filter_cons, contains]
      cases hget : table.get? name with
      | none => exact ih
      | some s =>
          simp only [Option.isSome_some, if_true, List.map_cons, ih, name_of_get? hget]

def Readable (table : SectionTable) (files : Files) (file : String) (names : List String) : Prop :=
  ∀ name ∈ names, ∀ s, table.get? name = some s → ∃ ws, Binary.sectionWords files file s = .ok ws

def FirstFault (table : SectionTable) (files : Files) (file : String) (names : List String)
    (e : BinaryError) : Prop :=
  ∃ earlier name later s, names = earlier ++ name :: later ∧ table.Readable files file earlier ∧
    table.get? name = some s ∧ Binary.sectionWords files file s = .error e

theorem readable_iff :
    table.Readable files file names ↔
      ∀ s ∈ names.filterMap table.get?, ∃ ws, Binary.sectionWords files file s = .ok ws := by
  simp only [Readable, List.mem_filterMap]
  constructor
  · rintro h s ⟨name, hname, hs⟩
    exact h name hname s hs
  · intro h name hname s hs
    exact h s ⟨name, hname, hs⟩

theorem firstFault_iff :
    table.FirstFault files file names e ↔
      ∃ earlier s later, names.filterMap table.get? = earlier ++ s :: later ∧
        (∀ t ∈ earlier, ∃ ws, Binary.sectionWords files file t = .ok ws) ∧
        Binary.sectionWords files file s = .error e := by
  constructor
  · rintro ⟨earlier, name, later, s, rfl, hearlier, hs, he⟩
    refine ⟨earlier.filterMap table.get?, s, later.filterMap table.get?, ?_,
      readable_iff.1 hearlier, he⟩
    rw [List.filterMap_append, List.filterMap_cons_some hs]
  · rintro ⟨earlier, s, later, hnames, hearlier, he⟩
    obtain ⟨first, rest, rfl, rfl, hrest⟩ := List.filterMap_eq_append_iff.1 hnames
    obtain ⟨absent, name, last, rfl, habsent, hs, rfl⟩ := List.filterMap_eq_cons_iff.1 hrest
    refine ⟨first ++ absent, name, last, s, (List.append_assoc ..).symm, ?_, hs, he⟩
    rw [readable_iff, List.filterMap_append, List.filterMap_eq_nil_iff.2 habsent, List.append_nil]
    exact hearlier

end SectionTable

/-- In other surroundings, the source gives the same table of a file and leaves the same file. -/
structure SectionSource.Steady (source : SectionSource) (host other : Host) (file : String) :
    Prop where
  sameSystem : other.files.SameSystem host.files
  table_eq : Binary.sectionTable other source file = Binary.sectionTable host source file
  file_eq : (source.after other file).files.lookup file = (source.after host file).files.lookup file

namespace Image

variable {host other : Host} {config : LoadConfig} {file name : String} {table : SectionTable}
  {image : Image} {b : Block} {e : BinaryError}

theorem exists_load_iff (h : Binary.sectionTable host config.source file = .ok table) :
    (∃ image, load host config file = .ok image) ↔
      table.Readable (config.source.after host file).files file config.sections := by
  rw [SectionTable.readable_iff]
  constructor
  · rintro ⟨image, hload⟩ s hs
    exact exists_sectionWords_of_load h hload hs
  · intro hreadable
    obtain ⟨blocks, hblocks⟩ := exists_mapM_eq_ok_iff.2 fun s hs =>
      (hreadable s hs).elim fun ws hws => ⟨_, blockOf_eq_ok_iff.2 ⟨ws, hws, rfl⟩⟩
    exact ⟨⟨blocks⟩, (load_eq_ok_iff h).2 (mapM_eq_ok_iff.1 hblocks)⟩

theorem load_eq_error_iff (h : Binary.sectionTable host config.source file = .ok table) :
    load host config file = .error e ↔
      table.FirstFault (config.source.after host file).files file config.sections e := by
  have hblock (s : Section) :
      (∃ b, blockOf (config.source.after host file).files file config s = .ok b) ↔
        ∃ ws, Binary.sectionWords (config.source.after host file).files file s = .ok ws := by
    simp only [blockOf_eq_ok_iff]
    exact ⟨fun ⟨_, ws, hws, _⟩ => ⟨ws, hws⟩, fun ⟨ws, hws⟩ => ⟨_, ws, hws, rfl⟩⟩
  have herror (result : Except BinaryError (List Block)) :
      result.map Image.mk = .error e ↔ result = .error e := by
    cases result <;> simp [Except.map]
  rw [load_of_table h, herror, mapM_eq_error_iff, SectionTable.firstFault_iff]
  simp only [hblock, blockOf_eq_error_iff]

theorem exists_section_of_mem_blocks
    (h : Binary.sectionTable host config.source file = .ok table)
    (hload : load host config file = .ok image) (hb : b ∈ image.blocks) :
    ∃ s, table.get? b.name = some s ∧ b.base = config.targetAddress s.address ∧
      Binary.sectionWords (config.source.after host file).files file s = .ok b.words := by
  obtain ⟨s, hs, hblock⟩ := exists_of_mem_of_mapM (mapM_eq_ok_iff.2 ((load_eq_ok_iff h).1 hload)) hb
  obtain ⟨name, -, hget⟩ := List.mem_filterMap.1 hs
  obtain ⟨ws, hws, rfl⟩ := blockOf_eq_ok_iff.1 hblock
  exact ⟨s, by rwa [SectionTable.name_of_get? hget], rfl, hws⟩

theorem map_name_of_blockOf {files : Files} {sections : List Section} {blocks : List Block}
    (h : List.Forall₂ (fun s b => blockOf files file config s = .ok b) sections blocks) :
    blocks.map Block.name = sections.map Section.name := by
  induction h with
  | nil => rfl
  | cons hblock _ ih =>
      obtain ⟨ws, -, rfl⟩ := blockOf_eq_ok_iff.1 hblock
      rw [List.map_cons, List.map_cons, ih]

theorem map_name_blocks (h : Binary.sectionTable host config.source file = .ok table)
    (hload : load host config file = .ok image) :
    image.blocks.map Block.name = config.sections.filter table.contains := by
  rw [map_name_of_blockOf ((load_eq_ok_iff h).1 hload), SectionTable.map_name_filterMap_get?]

theorem block?_eq_none_iff (h : Binary.sectionTable host config.source file = .ok table)
    (hload : load host config file = .ok image) (hname : name ∈ config.sections) :
    image.block? name = none ↔ table.get? name = none := by
  have hnames := map_name_blocks h hload
  have habsent : image.block? name = none ↔ name ∉ image.blocks.map Block.name := by
    simp only [block?, List.find?_eq_none, decide_eq_true_eq, List.mem_map, not_exists, not_and]
  rw [habsent, hnames, List.mem_filter, SectionTable.contains, Option.isSome_iff_ne_none]
  simp only [hname, true_and, not_not]

section Dump

variable {source : SectionSource}

theorem dumpSection_of_absent (h : Binary.sectionTable host source file = .ok table)
    (hname : table.get? name = none) :
    dumpSection host source file name = .error (.sectionNotFound name) := by
  rw [dumpSection, h]
  simp only [hname]

theorem dumpSection_of_present {s : Section}
    (h : Binary.sectionTable host source file = .ok table) (hname : table.get? name = some s) :
    dumpSection host source file name =
      (Binary.sectionWords (source.after host file).files file s).mapError .binary := by
  rw [dumpSection, h]
  simp only [hname]

theorem dumpSection_eq_notFound_iff (h : Binary.sectionTable host source file = .ok table) :
    dumpSection host source file name = .error (.sectionNotFound name) ↔
      table.get? name = none := by
  refine ⟨fun hdump => ?_, dumpSection_of_absent h⟩
  cases hname : table.get? name with
  | none => rfl
  | some s =>
      rw [dumpSection_of_present h hname] at hdump
      cases hwords : Binary.sectionWords (source.after host file).files file s with
      | error e =>
          rw [hwords] at hdump
          cases hdump
      | ok ws =>
          rw [hwords] at hdump
          cases hdump

end Dump

/-- An image and the words of single sections come from one table. Without the table there is
neither; with it the image exists when each listed section can be read, shows the listed sections
that are present, in the order of the list, and has of each of them the words that are given for it
alone. -/
theorem load_agrees_with_dump (hsteady : config.source.Steady host other file) :
    (∀ e, Binary.sectionTable host config.source file = .error e →
      load host config file = .error e ∧
        ∀ name, dumpSection other config.source file name = .error (.binary e)) ∧
    ∀ table, Binary.sectionTable host config.source file = .ok table →
      ((∃ image, load host config file = .ok image) ↔
        table.Readable (config.source.after host file).files file config.sections) ∧
      (∀ e, load host config file = .error e ↔
        table.FirstFault (config.source.after host file).files file config.sections e) ∧
      ∀ image, load host config file = .ok image →
        image.blocks.map Block.name = config.sections.filter table.contains ∧
        (∀ b ∈ image.blocks, ∃ s, table.get? b.name = some s ∧
          b.base = config.targetAddress s.address ∧ b.words.length = (s.size + 3) / 4) ∧
        ∀ name ∈ config.sections,
          (dumpSection other config.source file name = .error (.sectionNotFound name) ↔
            image.block? name = none) ∧
          ∀ b, image.block? name = some b →
            dumpSection other config.source file name = .ok b.words := by
  obtain ⟨hsystem, htables, hfiles⟩ := hsteady
  have hafter : (config.source.after other file).files.SameSystem
      (config.source.after host file).files :=
    ((config.source.sameSystem_after other file).trans hsystem).trans
      (config.source.sameSystem_after host file).symm
  constructor
  · intro e he
    refine ⟨load_of_table_error he, fun name => ?_⟩
    rw [dumpSection, htables, he]
  intro table htable
  refine ⟨exists_load_iff htable, fun e => load_eq_error_iff htable, fun image hload => ?_⟩
  refine ⟨map_name_blocks htable hload, fun b hb => ?_, fun name hname => ?_⟩
  · obtain ⟨s, hs, hbase, hwords⟩ := exists_section_of_mem_blocks htable hload hb
    exact ⟨s, hs, hbase, Binary.length_of_sectionWords hwords⟩
  · have hother := htables.trans htable
    refine ⟨(dumpSection_eq_notFound_iff hother).trans (block?_eq_none_iff htable hload hname).symm,
      fun b hb => ?_⟩
    obtain rfl : b.name = name := by simpa using List.find?_some hb
    obtain ⟨s, hs, -, hwords⟩ :=
      exists_section_of_mem_blocks htable hload (List.mem_of_find?_eq_some hb)
    rw [dumpSection_of_present hother hs, Binary.sectionWords_of_sameSystem hafter hfiles, hwords]
    rfl

theorem load_agrees_with_dump_overlap :
    let other : Host := { overlapHost with
      files := .ofEntries [] [] [(["a"], overlapFile), (["b"], #[1])] }
    overlapConfig.source.Steady overlapHost other "a" ∧
      load overlapHost overlapConfig "a" = .ok overlapImage ∧
      dumpSection other .native "a" ".data" = .error (.sectionNotFound ".data") ∧
      dumpSection other .native "a" ".text" = .ok (.listed [0x04030201, 0x0605]) ∧
      dumpSection other .native "a" ".bss" = .ok (.zeros 1) := by
  intro other
  have hsteady : overlapConfig.source.Steady overlapHost other "a" :=
    ⟨Files.sameSystem_ofEntries .., rfl, rfl⟩
  obtain ⟨data, table, hdata, hread, -⟩ := (load_native_eq_ok_iff rfl).1 load_overlap
  have htable : Binary.sectionTable overlapHost overlapConfig.source "a" = .ok table :=
    sectionTable_native_eq_ok_iff.2 ⟨data, hdata, hread⟩
  obtain ⟨-, -, hloaded⟩ := (load_agrees_with_dump hsteady).2 table htable
  obtain ⟨-, -, hdump⟩ := hloaded overlapImage load_overlap
  exact ⟨hsteady, load_overlap, (hdump ".data" (by decide)).1.2 rfl,
    (hdump ".text" (by decide)).2 _ rfl, (hdump ".bss" (by decide)).2 _ rfl⟩

end Image

end Testbench
