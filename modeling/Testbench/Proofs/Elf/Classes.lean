import Testbench.Proofs.Elf.Held
import Testbench.Proofs.Section.Lookup
import Testbench.Proofs.Traversal

namespace Testbench.Elf

inductive Class where
  | elf32
  | elf64
  deriving DecidableEq, Repr

namespace Class

def code : Class → UInt8
  | .elf32 => 1
  | .elf64 => 2

def wordWidth : Class → Nat
  | .elf32 => 4
  | .elf64 => 8

def layout : Class → Layout
  | .elf32 => .elf32
  | .elf64 => .elf64

def headerWidths (c : Class) : List Nat :=
  [2, 2, 4, c.wordWidth, c.wordWidth, c.wordWidth, 4, 2, 2, 2, 2, 2, 2]

def entryWidths (c : Class) : List Nat :=
  [4, 4, c.wordWidth, c.wordWidth, c.wordWidth, c.wordWidth, 4, 4, c.wordWidth, c.wordWidth]

end Class

/-- `rest` stands between the encoding and the first number. -/
structure FileHeader where
  rest : List UInt8
  kind : Nat
  machine : Nat
  version : Nat
  entryPoint : Nat
  programOffset : Nat
  tableOffset : Nat
  flags : Nat
  headerSize : Nat
  programStride : Nat
  programCount : Nat
  entryStride : Nat
  entryCount : Nat
  nameTableIndex : Nat
  deriving DecidableEq, Repr

def FileHeader.numbers (h : FileHeader) : List Nat :=
  [h.kind, h.machine, h.version, h.entryPoint, h.programOffset, h.tableOffset, h.flags,
    h.headerSize, h.programStride, h.programCount, h.entryStride, h.entryCount, h.nameTableIndex]

structure FullEntry extends Entry where
  flags : Nat
  link : Nat
  info : Nat
  alignment : Nat
  deriving DecidableEq, Repr

def FullEntry.numbers (e : FullEntry) : List Nat :=
  [e.name, e.kind, e.flags, e.address, e.offset, e.size, e.link, e.info, e.alignment, e.entrySize]

def written : List Nat → List Nat → List UInt8
  | width :: widths, n :: ns => LittleEndian.bytes width n ++ written widths ns
  | _, _ => []

def widthBefore : List Nat → Nat → Nat
  | width :: widths, i + 1 => width + widthBefore widths i
  | _, _ => 0

def Fit : List Nat → List Nat → Prop
  | width :: widths, n :: ns => n < LittleEndian.bound width ∧ Fit widths ns
  | _, _ => True

instance decidableFit : (widths ns : List Nat) → Decidable (Fit widths ns)
  | _ :: widths, _ :: ns =>
      have := decidableFit widths ns
      inferInstanceAs (Decidable (_ ∧ _))
  | [], _ => .isTrue trivial
  | _ :: _, [] => .isTrue trivial

def FileHeader.bytes (c : Class) (h : FileHeader) : List UInt8 :=
  [0x7F, 0x45, 0x4C, 0x46, c.code, 1] ++ h.rest ++ written c.headerWidths h.numbers

def FullEntry.bytes (c : Class) (e : FullEntry) : List UInt8 :=
  written c.entryWidths e.numbers

/-- The file holds the header, and the entries at the places that the header gives. Their names
stand where the entry for the names has them, if there is such an entry. -/
structure Written (c : Class) (h : FileHeader) (entries : List FullEntry)
    (names : Nat → List UInt8) (data : Bytes) : Prop where
  rest_length : h.rest.length = 10
  count_eq : h.entryCount = entries.length
  header_fits : Fit c.headerWidths h.numbers
  entries_fit : ∀ e ∈ entries, Fit c.entryWidths e.numbers
  header : data.Holds 0 (h.bytes c)
  entry : ∀ i e, entries[i]? = some e →
    data.Holds (h.tableOffset + i * h.entryStride) (e.bytes c)
  name : ∀ table, entries[h.nameTableIndex]? = some table → ∀ i e, entries[i]? = some e →
    0 ∉ names i ∧ data.Holds (table.offset + e.name) (names i ++ [0])

variable {c : Class} {h : FileHeader} {e : FullEntry} {entries : List FullEntry}
  {names : Nat → List UInt8} {data : Bytes} {base : Nat}

instance (data : Bytes) (position : Nat) (bs : List UInt8) : Decidable (data.Holds position bs) :=
  inferInstanceAs (Decidable (_ <+: _))

theorem written_iff :
    Written c h entries names data ↔
      h.rest.length = 10 ∧ h.entryCount = entries.length ∧ Fit c.headerWidths h.numbers ∧
      (∀ e ∈ entries, Fit c.entryWidths e.numbers) ∧ data.Holds 0 (h.bytes c) ∧
      (∀ p ∈ entries.zipIdx, data.Holds (h.tableOffset + p.2 * h.entryStride) (p.1.bytes c)) ∧
      ∀ table ∈ entries[h.nameTableIndex]?, ∀ p ∈ entries.zipIdx,
        0 ∉ names p.2 ∧ data.Holds (table.offset + p.1.name) (names p.2 ++ [0]) := by
  simp only [Prod.forall, List.mem_zipIdx_iff_getElem?, Option.mem_def]
  constructor
  · intro ⟨hrest, hcount, hheader, hentries, hheld, hentry, hname⟩
    exact ⟨hrest, hcount, hheader, hentries, hheld, fun e i => hentry i e,
      fun table htable e i => hname table htable i e⟩
  · intro ⟨hrest, hcount, hheader, hentries, hheld, hentry, hname⟩
    exact ⟨hrest, hcount, hheader, hentries, hheld, fun i e => hentry e i,
      fun table htable i e => hname table htable e i⟩

instance (c : Class) (h : FileHeader) (entries : List FullEntry) (names : Nat → List UInt8)
    (data : Bytes) : Decidable (Written c h entries names data) :=
  decidable_of_iff _ written_iff.symm

theorem Field.read_of_written {widths ns : List Nat} {f : Field} {start i n : Nat}
    (hheld : data.Holds (base + start) (written widths ns)) (hfits : Fit widths ns)
    (hwidth : widths[i]? = some f.width) (hn : ns[i]? = some n) (hpos : 0 < f.width)
    (hposition : start + widthBefore widths i = f.position) : f.read data base = .ok n := by
  induction i generalizing widths ns start with
  | zero =>
      cases widths with
      | nil => cases hwidth
      | cons width widths =>
          cases ns with
          | nil => cases hn
          | cons m ns =>
              cases hwidth
              cases hn
              obtain rfl : start = f.position := hposition
              rw [written, Bytes.holds_append_iff] at hheld
              exact Field.read_of_holds hpos hfits.1 hheld.1
  | succ i ih =>
      cases widths with
      | nil => cases hwidth
      | cons width widths =>
          cases ns with
          | nil => cases hn
          | cons m ns =>
              rw [written, Bytes.holds_append_iff, LittleEndian.length_bytes, Nat.add_assoc]
                at hheld
              rw [widthBefore, ← Nat.add_assoc] at hposition
              exact ih hheld.2 hfits.2 hwidth hn hposition

theorem readLayout_of_identified (hsize : c.layout.headerSize ≤ data.size)
    (hheld : data.Holds 0 [0x7F, 0x45, 0x4C, 0x46, c.code, 1]) :
    readLayout data = .ok c.layout := by
  have hsplit : [0x7F, 0x45, 0x4C, 0x46, c.code, 1] =
      written [4, 1, 1] [magic, c.code.toNat, littleEndian] := by cases c <;> decide
  have hfits : Fit [4, 1, 1] [magic, c.code.toNat, littleEndian] := by
    refine ⟨by decide, ?_, by decide, trivial⟩
    cases c <;> decide
  have hclass : layoutOfClass c.code.toNat = .ok c.layout := by cases c <;> rfl
  have hsix : 6 ≤ c.layout.headerSize := by cases c <;> decide
  rw [hsplit] at hheld
  change data.Holds (0 + 0) _ at hheld
  have hmagic : Field.read ⟨0, 4⟩ data 0 = .ok magic :=
    Field.read_of_written (i := 0) hheld hfits rfl rfl (by decide) (by decide)
  have hcode : Field.read ⟨4, 1⟩ data 0 = .ok c.code.toNat :=
    Field.read_of_written (i := 1) hheld hfits rfl rfl (by decide) (by decide)
  have hencoding : Field.read ⟨5, 1⟩ data 0 = .ok littleEndian :=
    Field.read_of_written (i := 2) hheld hfits rfl rfl (by decide) (by decide)
  rw [readLayout, if_neg (by omega)]
  simp only [hmagic, hcode, hencoding, hclass, bind, Except.bind, ne_eq, not_true_eq_false,
    if_false, Nat.not_lt.2 hsize]

theorem FullEntry.length_bytes (c : Class) (e : FullEntry) :
    (e.bytes c).length = c.layout.entryLength := by
  cases c <;> rfl

theorem FileHeader.length_bytes (c : Class) (hrest : h.rest.length = 10) :
    (h.bytes c).length = c.layout.headerSize := by
  rw [FileHeader.bytes, List.length_append, List.length_append, hrest]
  cases c <;> rfl

theorem readEntry_of_written (hfits : Fit c.entryWidths e.numbers)
    (hheld : data.Holds base (e.bytes c)) : readEntry c.layout data base = .ok e.toEntry := by
  have hsize : base + c.layout.entryLength ≤ data.size := by
    rw [← e.length_bytes c]
    refine hheld.le_size (List.ne_nil_of_length_pos ?_)
    rw [e.length_bytes c]
    cases c <;> decide
  change data.Holds (base + 0) _ at hheld
  have hread {f : Field} {i n : Nat} (hwidth : c.entryWidths[i]? = some f.width)
      (hn : e.numbers[i]? = some n) (hpos : 0 < f.width)
      (hposition : 0 + widthBefore c.entryWidths i = f.position) : f.read data base = .ok n :=
    Field.read_of_written hheld hfits hwidth hn hpos hposition
  have hname : c.layout.name.read data base = .ok e.name := by
    cases c <;> exact hread (i := 0) (by decide) rfl (by decide) (by decide)
  have hkind : c.layout.kind.read data base = .ok e.kind := by
    cases c <;> exact hread (i := 1) (by decide) rfl (by decide) (by decide)
  have haddress : c.layout.address.read data base = .ok e.address := by
    cases c <;> exact hread (i := 3) (by decide) rfl (by decide) (by decide)
  have hoffset : c.layout.offset.read data base = .ok e.offset := by
    cases c <;> exact hread (i := 4) (by decide) rfl (by decide) (by decide)
  have hlength : c.layout.size.read data base = .ok e.size := by
    cases c <;> exact hread (i := 5) (by decide) rfl (by decide) (by decide)
  have hentrySize : c.layout.entrySize.read data base = .ok e.entrySize := by
    cases c <;> exact hread (i := 9) (by decide) rfl (by decide) (by decide)
  rw [readEntry, if_neg (Nat.not_lt.2 hsize)]
  simp only [hname, hkind, haddress, hoffset, hlength, hentrySize]
  rfl

theorem readHeader_of_written (hrest : h.rest.length = 10) (hfits : Fit c.headerWidths h.numbers)
    (hheld : data.Holds 0 (h.bytes c)) :
    readHeader data =
      .ok ⟨c.layout, h.tableOffset, h.entryStride, h.entryCount, h.nameTableIndex⟩ := by
  have hlength := h.length_bytes c hrest
  have hsize : c.layout.headerSize ≤ data.size := by
    have hpos : 0 < c.layout.headerSize := by cases c <;> decide
    have := hheld.le_size (List.ne_nil_of_length_pos (hlength ▸ hpos))
    omega
  rw [FileHeader.bytes, Bytes.holds_append_iff, Bytes.holds_append_iff, List.length_append, hrest]
    at hheld
  obtain ⟨⟨hidentified, -⟩, hnumbers⟩ := hheld
  change data.Holds (0 + 16) _ at hnumbers
  have hread {f : Field} {i n : Nat} (hwidth : c.headerWidths[i]? = some f.width)
      (hn : h.numbers[i]? = some n) (hpos : 0 < f.width)
      (hposition : 16 + widthBefore c.headerWidths i = f.position) : f.read data 0 = .ok n :=
    Field.read_of_written hnumbers hfits hwidth hn hpos hposition
  have htable : c.layout.tableOffset.read data 0 = .ok h.tableOffset := by
    cases c <;> exact hread (i := 5) (by decide) rfl (by decide) (by decide)
  have hstride : c.layout.entryStride.read data 0 = .ok h.entryStride := by
    cases c <;> exact hread (i := 10) (by decide) rfl (by decide) (by decide)
  have hcount : c.layout.entryCount.read data 0 = .ok h.entryCount := by
    cases c <;> exact hread (i := 11) (by decide) rfl (by decide) (by decide)
  have hindex : c.layout.nameTableIndex.read data 0 = .ok h.nameTableIndex := by
    cases c <;> exact hread (i := 12) (by decide) rfl (by decide) (by decide)
  rw [readHeader, readLayout_of_identified hsize hidentified]
  simp only [htable, hstride, hcount, hindex, bind, Except.bind]
  rfl

theorem readEntries_of_written (hheld : Written c h entries names data) :
    readEntries data ⟨c.layout, h.tableOffset, h.entryStride, h.entryCount, h.nameTableIndex⟩ =
      .ok (entries.map FullEntry.toEntry) := by
  rw [readEntries, mapM_eq_ok_iff, List.forall₂_iff_get]
  refine ⟨by rw [List.length_range, List.length_map, hheld.count_eq], ?_⟩
  intro i hi hentry
  rw [List.length_map] at hentry
  simp only [List.get_eq_getElem, List.getElem_range, List.getElem_map]
  exact readEntry_of_written (hheld.entries_fit _ (List.getElem_mem hentry))
    (hheld.entry i _ (List.getElem?_eq_getElem hentry))

def nameOf (bytes : List UInt8) : String :=
  .ofList (Text.Utf8.decodeLossy bytes)

def FullEntry.section? (names : Nat → List UInt8) (e : FullEntry) (index : Nat) : Option Section :=
  if nameOf (names index) = "" then none
  else some ⟨index, nameOf (names index), kindName e.kind, e.address, e.offset, e.size, e.entrySize⟩

theorem FullEntry.section?_eq_some_iff {index : Nat} {s : Section} :
    e.section? names index = some s ↔ nameOf (names index) ≠ "" ∧
      s = ⟨index, nameOf (names index), kindName e.kind, e.address, e.offset, e.size,
        e.entrySize⟩ := by
  rw [section?, Option.ite_none_left_eq_some, Option.some.injEq, eq_comm (a := s)]

def tableOf (entries : List FullEntry) (names : Nat → List UInt8) (nameTableIndex : Nat) :
    SectionTable :=
  if nameTableIndex < entries.length then
    .ofList (entries.zipIdx.filterMap fun (e, i) => e.section? names i)
  else .empty

theorem tableOfEntries_of_written (hheld : Written c h entries names data) :
    tableOfEntries data h.nameTableIndex (entries.map FullEntry.toEntry) =
      tableOf entries names h.nameTableIndex := by
  rw [tableOfEntries, tableOf, List.getElem?_map]
  by_cases hindex : h.nameTableIndex < entries.length
  · have htable := List.getElem?_eq_getElem hindex
    rw [htable, if_pos hindex, Option.map_some]
    simp only [List.zipIdx_map, List.filterMap_map]
    congr 1
    refine List.filterMap_congr ?_
    rintro ⟨e, i⟩ hmem
    obtain ⟨hzero, hname⟩ := hheld.name _ htable i e (List.mem_zipIdx_iff_getElem?.1 hmem)
    have hnameAt : nameAt data (entries[h.nameTableIndex].offset + e.name) = nameOf (names i) := by
      rw [nameAt, hname.terminated_eq hzero, nameOf]
    simp only [Function.comp_apply, Prod.map_apply, Entry.section?, FullEntry.section?, hnameAt,
      id_eq]
  · rw [List.getElem?_eq_none (Nat.le_of_not_lt hindex), if_neg hindex]
    rfl

theorem readTable_of_written (hheld : Written c h entries names data) :
    readTable data = .ok (tableOf entries names h.nameTableIndex) := by
  rw [readTable, readHeader_of_written hheld.rest_length hheld.header_fits hheld.header]
  simp only [bind, Except.bind]
  rw [readEntries_of_written hheld]
  exact congrArg Except.ok (tableOfEntries_of_written hheld)

theorem get?_tableOf {nameTableIndex : Nat} {name : String} {s : Section} :
    (tableOf entries names nameTableIndex).get? name = some s ↔
      name ≠ "" ∧ nameTableIndex < entries.length ∧ ∃ i e, entries[i]? = some e ∧
        nameOf (names i) = name ∧ (∀ j, i < j → j < entries.length → nameOf (names j) ≠ name) ∧
        s = ⟨i, name, kindName e.kind, e.address, e.offset, e.size, e.entrySize⟩ := by
  rw [tableOf]
  split
  case isFalse hindex => simp [hindex]
  case isTrue hindex =>
    rw [SectionTable.get?_ofList_zipIdx]
    constructor
    · rintro ⟨rfl, i, e, he, hs, hlater⟩
      obtain ⟨hne, rfl⟩ := FullEntry.section?_eq_some_iff.1 hs
      refine ⟨hne, hindex, i, e, he, rfl, ?_, rfl⟩
      intro j hij hj hname
      have hsection := (@FullEntry.section?_eq_some_iff entries[j] names j _).2 ⟨hname ▸ hne, rfl⟩
      exact hlater j _ _ hij (List.getElem?_eq_getElem hj) hsection hname
    · rintro ⟨hne, -, i, e, he, rfl, hlater, rfl⟩
      refine ⟨rfl, i, e, he, FullEntry.section?_eq_some_iff.2 ⟨hne, rfl⟩, ?_⟩
      intro j other t hij hother ht
      obtain ⟨-, rfl⟩ := FullEntry.section?_eq_some_iff.1 ht
      exact hlater j hij (List.getElem?_eq_some_iff.1 hother).1

/-- Entries are read alike from both forms of a file, in the wider one whatever 64-bit numbers they
have. -/
theorem readTable_of_classes {wide : FileHeader} {data64 : Bytes}
    (hwide : Written .elf64 wide entries names data64) :
    ∃ table, readTable data64 = .ok table ∧
      (∀ narrow data32, Written .elf32 narrow entries names data32 →
        narrow.nameTableIndex = wide.nameTableIndex → readTable data32 = .ok table) ∧
      (∀ name s, table.get? name = some s ↔
        name ≠ "" ∧ wide.nameTableIndex < entries.length ∧ ∃ i e, entries[i]? = some e ∧
          nameOf (names i) = name ∧ (∀ j, i < j → j < entries.length → nameOf (names j) ≠ name) ∧
          s = ⟨i, name, kindName e.kind, e.address, e.offset, e.size, e.entrySize⟩) ∧
      (entries.length ≤ wide.nameTableIndex → table.sections = []) := by
  refine ⟨_, readTable_of_written hwide, ?_, fun _ _ => get?_tableOf, ?_⟩
  · intro narrow data32 hnarrow hindex
    rw [readTable_of_written hnarrow, hindex]
  · intro hindex
    rw [tableOf, if_neg (Nat.not_lt.2 hindex)]
    rfl

namespace Repeated

def list : List FullEntry :=
  [⟨⟨0, 0, 0, 0, 0, 0⟩, 0, 0, 0, 0⟩, ⟨⟨1, 1, 0x1000, 64, 4, 0⟩, 3, 0, 0, 4⟩,
    ⟨⟨1, 8, 0x2000, 68, 0x80000000, 16⟩, 3, 0, 0, 4⟩, ⟨⟨7, 3, 0, 68, 13, 0⟩, 0, 0, 0, 1⟩]

def name : Nat → List UInt8
  | 0 => []
  | 1 | 2 => [0x2E, 0x64, 0x61, 0x74, 0x61]
  | _ => [0x2E, 0x6E, 0x61, 0x6D, 0x65, 0x73]

def header (entryStride : Nat) : FileHeader :=
  ⟨List.replicate 10 0, 2, 243, 1, 0, 0, 84, 0, 0, 0, 0, entryStride, 4, 3⟩

def file (c : Class) (entryStride : Nat) : Bytes :=
  let start := (header entryStride).bytes c
  let apart : List UInt8 := List.replicate (entryStride - c.layout.entryLength) 0
  (start ++ List.replicate (64 - start.length) 0 ++ [1, 2, 3, 4] ++
    name 0 ++ [0] ++ name 1 ++ [0] ++ name 3 ++ [0, 0, 0] ++
    list.flatMap fun (e : FullEntry) => e.bytes c ++ apart).toArray

end Repeated

open Repeated in
theorem readTable_of_classes_repeated :
    Written .elf64 (header 72) list name (file .elf64 72) ∧
      Written .elf32 (header 40) list name (file .elf32 40) ∧
      ∃ table, readTable (file .elf64 72) = .ok table ∧ readTable (file .elf32 40) = .ok table ∧
        table.get? ".data" = some ⟨2, ".data", "NOBITS", 0x2000, 68, 0x80000000, 16⟩ := by
  have hwide : Written .elf64 (header 72) list name (file .elf64 72) := by decide +kernel
  have hnarrow : Written .elf32 (header 40) list name (file .elf32 40) := by decide +kernel
  obtain ⟨table, hread, hsame, hget, -⟩ := readTable_of_classes hwide
  refine ⟨hwide, hnarrow, table, hread, hsame _ _ hnarrow rfl, (hget _ _).2 ?_⟩
  have hname : nameOf (name 2) = ".data" := by decide +kernel
  refine ⟨by decide, by decide, 2, _, rfl, hname, ?_, rfl⟩
  intro j hlater hj
  obtain rfl : j = 3 := by
    have : list.length = 4 := rfl
    omega
  decide +kernel

end Testbench.Elf
