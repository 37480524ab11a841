import Testbench.Proofs.Elf.Acceptance

namespace Testbench.Elf

/-- How a reader that keeps positions in 64-bit words can end without a result. -/
inductive Halt where
  | rejected (e : BinaryError)
  | overflow
  | outside
  deriving DecidableEq, Repr

namespace Checked

def sum? (a b : Nat) : Option Nat :=
  if a + b < UInt64.size then some (a + b) else none

def product? (a b : Nat) : Option Nat :=
  if a * b < UInt64.size then some (a * b) else none

def add (a b : Nat) : Except Halt Nat :=
  if a + b < UInt64.size then .ok (a + b) else .error .overflow

def byte (data : Bytes) (position : Nat) : Except Halt UInt8 :=
  if h : position < data.size then .ok data[position] else .error .outside

def slice (data : Bytes) (start stop : Nat) : Except Halt (List UInt8) :=
  if start ≤ stop ∧ stop ≤ data.size then .ok (data.window start (stop - start))
  else .error .outside

def readField (f : Field) (data : Bytes) (base : Nat) : Except Halt Nat := do
  let position ← add base f.position
  if f.width = 8 then
    let stop ← add position 8
    return LittleEndian.value (← slice data position stop)
  else
    return LittleEndian.value
      (← (List.range f.width).mapM fun i => do byte data (← add position i))

def readLayout (data : Bytes) : Except Halt Layout :=
  if data.size < 6 then .error (.rejected .tooSmall)
  else do
    if (← readField ⟨0, 4⟩ data 0) ≠ magic then .error (.rejected .invalidMagic)
    else
      let code ← readField ⟨4, 1⟩ data 0
      if (← readField ⟨5, 1⟩ data 0) ≠ littleEndian then .error (.rejected .notLittleEndian)
      else
        let layout ← (layoutOfClass code).mapError .rejected
        if data.size < layout.headerSize then .error (.rejected .tooSmall) else .ok layout

def readHeader (data : Bytes) : Except Halt Header := do
  let layout ← readLayout data
  let _ ← readField ⟨16, 2⟩ data 0
  let _ ← readField ⟨18, 2⟩ data 0
  return {
    layout
    tableOffset := ← readField layout.tableOffset data 0
    entryStride := ← readField layout.entryStride data 0
    entryCount := ← readField layout.entryCount data 0
    nameTableIndex := ← readField layout.nameTableIndex data 0 }

/-- The flags of a section, its two links and its alignment, which are read and not kept. -/
def unkept (layout : Layout) : List Field :=
  let width := layout.address.width
  [⟨8, width⟩, ⟨8 + 4 * width, 4⟩, ⟨12 + 4 * width, 4⟩, ⟨16 + 4 * width, width⟩]

def readEntry (layout : Layout) (data : Bytes) (base : Nat) : Except Halt Entry :=
  if (sum? base layout.entryLength).all (data.size < ·) then
    .error (.rejected .sectionOutOfBounds)
  else do
    let _ ← (unkept layout).mapM fun f => readField f data base
    return {
      name := ← readField layout.name data base
      kind := ← readField layout.kind data base
      address := ← readField layout.address data base
      offset := ← readField layout.offset data base
      size := ← readField layout.size data base
      entrySize := ← readField layout.entrySize data base }

def readEntries (data : Bytes) (h : Header) : Except Halt (List Entry) :=
  (List.range h.entryCount).mapM fun i =>
    match (product? i h.entryStride).bind (sum? h.tableOffset) with
    | none => .error (.rejected .sectionOutOfBounds)
    | some base => readEntry h.layout data base

def terminated (data : Bytes) (start : Nat) : Except Halt (List UInt8) := do
  match (← slice data start data.size).findIdx? (· = 0) with
  | none => slice data start data.size
  | some length => slice data start (← add start length)

def nameAt (data : Bytes) (names position : Nat) : Except Halt String :=
  match (sum? names position).filter (· < data.size) with
  | none => .ok ""
  | some start => do return .ofList (Text.Utf8.decodeLossy (← terminated data start))

def sectionAt (data : Bytes) (names index : Nat) (e : Entry) : Except Halt (Option Section) := do
  let name ← nameAt data names e.name
  if name = "" then return none
  else return some {
    index, name
    kind := kindName e.kind
    address := e.address
    offset := e.offset
    size := e.size
    entrySize := e.entrySize }

def tableOfEntries (data : Bytes) (nameTableIndex : Nat) (entries : List Entry) :
    Except Halt SectionTable :=
  match entries[nameTableIndex]? with
  | none => .ok .empty
  | some names => do
      let sections ← entries.zipIdx.mapM fun p => sectionAt data names.offset p.2 p.1
      return .ofList (sections.filterMap id)

def readTable (data : Bytes) : Except Halt SectionTable := do
  let header ← readHeader data
  let entries ← readEntries data header
  tableOfEntries data header.nameTableIndex entries

variable {data : Bytes} {base position width start stop : Nat} {f : Field} {c : Class}

theorem add_of_lt {a b : Nat} (h : a + b < UInt64.size) : add a b = .ok (a + b) :=
  if_pos h

theorem slice_of_le (hstart : start ≤ stop) (hstop : stop ≤ data.size) :
    slice data start stop = .ok (data.window start (stop - start)) :=
  if_pos ⟨hstart, hstop⟩

theorem product?_bind_sum? (a b n : Nat) :
    (product? a b).bind (sum? n) = if n + a * b < UInt64.size then some (n + a * b) else none := by
  rw [product?]
  split
  case isTrue => rfl
  case isFalse h => rw [if_neg (by omega), Option.bind_none]

section Sized

/- The positions of a file are words. -/
variable (hsize : data.size < UInt64.size)
include hsize

theorem mapM_byte (h : position + width ≤ data.size) :
    ((List.range width).mapM fun i => do byte data (← add position i)) =
      .ok (data.window position width) := by
  rw [mapM_eq_ok_iff, List.forall₂_iff_get]
  refine ⟨by rw [List.length_range, Bytes.length_window h], ?_⟩
  intro i hi hwindow
  rw [List.length_range] at hi
  have hposition : position + i < data.size := by omega
  rw [List.get_eq_getElem, List.getElem_range, add_of_lt (Nat.lt_trans hposition hsize)]
  simp only [bind, Except.bind, byte, hposition, dif_pos, List.get_eq_getElem, Bytes.window,
    Array.getElem_toList, Array.getElem_extract]

theorem readField_of_le (h : base + f.position + f.width ≤ data.size) :
    readField f data base = .ok (data.number (base + f.position) f.width) := by
  rw [readField, add_of_lt (by omega)]
  simp only [bind, Except.bind]
  split
  case isTrue hwidth =>
    rw [hwidth] at h ⊢
    rw [add_of_lt (Nat.lt_of_le_of_lt h hsize)]
    simp only [slice_of_le (Nat.le_add_right ..) h, Nat.add_sub_cancel_left]
    rfl
  case isFalse =>
    have hbytes := mapM_byte hsize h
    simp only [bind, Except.bind] at hbytes
    rw [hbytes]
    rfl

theorem readLayout_eq : readLayout data = (Elf.readLayout data).mapError .rejected := by
  rw [readLayout, Elf.readLayout]
  split
  case isTrue => rfl
  case isFalse hsix =>
    have hread (f : Field) (hf : f.position + f.width ≤ 6) :
        readField f data 0 = .ok (data.number (0 + f.position) f.width) ∧
          f.read data 0 = .ok (data.number (0 + f.position) f.width) :=
      ⟨readField_of_le hsize (by omega), Field.read_of_le (by omega)⟩
    simp only [hread ⟨0, 4⟩ (by decide), hread ⟨4, 1⟩ (by decide), hread ⟨5, 1⟩ (by decide), bind,
      Except.bind]
    split
    · rfl
    · split
      · rfl
      · cases layoutOfClass (data.number (0 + 4) 1) with
        | error e => rfl
        | ok layout =>
            simp only [Except.mapError]
            split <;> rfl

theorem readHeader_eq : readHeader data = (Elf.readHeader data).mapError .rejected := by
  rw [readHeader, readLayout_eq hsize, Elf.readLayout_eq, Elf.readHeader_eq]
  cases hclass : classOf data with
  | error e => rfl
  | ok c =>
      have hheader := headerLength_le_of_classOf hclass
      have hread (f : Field) (hf : f.position + f.width ≤ c.headerLength) :
          readField f data 0 = .ok (data.number f.position f.width) := by
        rw [readField_of_le hsize (by omega), Nat.zero_add]
      simp only [Except.map, Except.mapError, bind, Except.bind]
      rw [hread _ (by cases c <;> decide), hread _ (by cases c <;> decide),
        hread _ (by cases c <;> decide), hread _ (by cases c <;> decide),
        hread _ (by cases c <;> decide), hread _ (by cases c <;> decide)]
      cases c <;> rfl

theorem readEntry_eq :
    readEntry c.layout data base = (Elf.readEntry c.layout data base).mapError .rejected := by
  have hlength : c.layout.entryLength = c.entryLength := by cases c <;> rfl
  rw [readEntry, Elf.readEntry, hlength, sum?]
  rcases Nat.lt_or_ge data.size (base + c.entryLength) with hlt | hle
  · rw [if_pos hlt, if_pos]
    · rfl
    · split <;> simp [hlt]
  · have hread (f : Field) (hf : f.position + f.width ≤ c.entryLength) :
        readField f data base = .ok (data.number (base + f.position) f.width) ∧
          f.read data base = .ok (data.number (base + f.position) f.width) :=
      ⟨readField_of_le hsize (by omega), Field.read_of_le (by omega)⟩
    have hunkept : ∀ f ∈ unkept c.layout, f.position + f.width ≤ c.entryLength := by
      cases c <;> decide
    obtain ⟨values, hvalues⟩ :=
      exists_mapM_eq_ok_iff.2 fun f hf => ⟨_, (hread f (hunkept f hf)).1⟩
    have hword : base + c.entryLength < UInt64.size := Nat.lt_of_le_of_lt hle hsize
    rw [if_neg (Nat.not_lt.2 hle), if_neg (by simp [hword, hle]), hvalues]
    simp only [hread c.layout.name (by cases c <;> decide),
      hread c.layout.kind (by cases c <;> decide), hread c.layout.address (by cases c <;> decide),
      hread c.layout.offset (by cases c <;> decide), hread c.layout.size (by cases c <;> decide),
      hread c.layout.entrySize (by cases c <;> decide)]
    rfl

theorem readEntries_eq :
    readEntries data (c.header data) =
      (Elf.readEntries data (c.header data)).mapError .rejected := by
  rw [readEntries, Elf.readEntries, ← mapM_mapError]
  refine mapM_congr_of_forall fun i _ => ?_
  rw [product?_bind_sum?]
  rcases Nat.lt_or_ge ((c.header data).tableOffset + i * (c.header data).entryStride) UInt64.size
    with hword | hword
  · rw [if_pos hword]
    exact readEntry_eq hsize
  · rw [if_neg (Nat.not_lt.2 hword)]
    have houtside := Nat.lt_add_right c.entryLength (Nat.lt_of_lt_of_le hsize hword)
    exact (congrArg (Except.mapError Halt.rejected) (readEntry_of_outside houtside)).symm

theorem terminated_eq (hstart : start < data.size) :
    terminated data start = .ok (data.terminated start) := by
  have hslice := slice_of_le (Nat.le_of_lt hstart) (Nat.le_refl data.size)
  have htail : data.window start (data.size - start) = data.toList.drop start := by
    rw [Bytes.window_eq, List.take_of_length_le]
    simp
  have hterminated : data.terminated start =
      (data.toList.drop start).take ((data.toList.drop start).findIdx (· = 0)) := by
    rw [Bytes.terminated_eq, List.takeWhile_eq_take_findIdx_not]
    simp
  rw [htail] at hslice
  simp only [terminated, hslice, hterminated, bind, Except.bind]
  split
  · next hfound =>
      rw [List.findIdx?_eq_none_iff_findIdx_eq] at hfound
      rw [hfound, List.take_length]
  · next length hfound =>
      obtain ⟨hlength, hindex⟩ := List.findIdx?_eq_some_iff_findIdx_eq.1 hfound
      rw [List.length_drop, Array.length_toList] at hlength
      have hstop : start + length ≤ data.size := by omega
      rw [add_of_lt (Nat.lt_of_le_of_lt hstop hsize), hindex]
      simp only [slice_of_le (Nat.le_add_right ..) hstop, Nat.add_sub_cancel_left, Bytes.window_eq]

theorem nameAt_eq {names : Nat} :
    nameAt data names position = .ok (Elf.nameAt data (names + position)) := by
  rw [nameAt, Elf.nameAt]
  rcases Nat.lt_or_ge (names + position) data.size with hlt | hle
  · have hstart : (sum? names position).filter (· < data.size) = some (names + position) := by
      rw [sum?, if_pos (Nat.lt_trans hlt hsize)]
      simpa using hlt
    rw [hstart]
    simp only [terminated_eq hsize hlt, bind, Except.bind]
    rfl
  · have hstart : (sum? names position).filter (· < data.size) = none := by
      rw [sum?]
      split <;> simp [hle]
    rw [hstart, Bytes.terminated_eq, List.drop_eq_nil_of_le (by simpa using hle)]
    rfl

theorem sectionAt_eq {names index : Nat} {e : Entry} :
    sectionAt data names index e = .ok (e.section? data names index) := by
  rw [sectionAt, nameAt_eq hsize, Entry.section?]
  simp only [bind, Except.bind]
  split <;> rfl

theorem tableOfEntries_eq {nameTableIndex : Nat} {entries : List Entry} :
    tableOfEntries data nameTableIndex entries =
      .ok (Elf.tableOfEntries data nameTableIndex entries) := by
  rw [tableOfEntries, Elf.tableOfEntries]
  cases entries[nameTableIndex]? with
  | none => rfl
  | some names =>
      have hsections : entries.zipIdx.mapM (fun p => sectionAt data names.offset p.2 p.1) =
          .ok (entries.zipIdx.map fun p => p.1.section? data names.offset p.2) := by
        simp only [sectionAt_eq hsize]
        exact List.mapM_pure
      simp only [hsections, bind, Except.bind, List.filterMap_map]
      rfl

theorem readTable_eq : readTable data = (Elf.readTable data).mapError .rejected := by
  rw [readTable, Elf.readTable, readHeader_eq hsize, mapError_bind, Elf.readHeader_eq]
  cases classOf data with
  | error e => rfl
  | ok c =>
      simp only [Except.map, Except.mapError, bind, Except.bind, readEntries_eq hsize,
        tableOfEntries_eq hsize]
      cases Elf.readEntries data (c.header data) <;> rfl

end Sized

end Checked

/-- With positions in words a file is read as it is with numbers of any size, so no sum is too large
and no access outside the file. Which files are read, and what is wrong with the others, is told by
their header and the places of their section headers alone. -/
theorem readTable_acceptance (data : Bytes) :
    (data.size < UInt64.size → Checked.readTable data = (readTable data).mapError .rejected) ∧
      ((∃ table, readTable data = .ok table) ↔ Accepted data) ∧
      ∀ e, readTable data = .error e ↔ fault? data = some e :=
  ⟨Checked.readTable_eq, exists_readTable_iff, fun _ => readTable_eq_error_iff⟩

namespace Far

def header (tableOffset : Nat) : FileHeader :=
  ⟨List.replicate 10 0, 2, 243, 1, 0, 0, tableOffset, 0, 0, 0, 0, 0xFFFF, 1, 0⟩

def entry : FullEntry :=
  ⟨⟨0xFFFFFFFF, 3, 0, 0xFFFFFFFFFFFFFFFF, 0xFFFFFFFFFFFFFFFF, 0⟩, 0, 0, 0, 1⟩

def file (tableOffset : Nat) : Bytes :=
  ((header tableOffset).bytes .elf64 ++ entry.bytes .elf64).toArray

end Far

open Far in
theorem readTable_acceptance_far :
    (file 64).size < UInt64.size ∧ (∃ table, Checked.readTable (file 64) = .ok table) ∧
      (file 0xFFFFFFFFFFFFFFFF).size < UInt64.size ∧
      Checked.readTable (file 0xFFFFFFFFFFFFFFFF) = .error (.rejected .sectionOutOfBounds) := by
  have hnear : (file 64).size < UInt64.size := by decide +kernel
  have hfar : (file 0xFFFFFFFFFFFFFFFF).size < UInt64.size := by decide +kernel
  obtain ⟨hchecked, haccepted, -⟩ := readTable_acceptance (file 64)
  obtain ⟨hchecked', -, herror⟩ := readTable_acceptance (file 0xFFFFFFFFFFFFFFFF)
  refine ⟨hnear, ?_, hfar, ?_⟩
  · have hsix : 6 ≤ (file 64).size := by decide +kernel
    obtain ⟨table, htable⟩ := haccepted.2 ⟨hsix, by decide +kernel, by decide +kernel, .elf64,
      by decide +kernel, by decide +kernel, by decide +kernel⟩
    exact ⟨table, by rw [hchecked hnear, htable]; rfl⟩
  · rw [hchecked' hfar, (herror .sectionOutOfBounds).2 (by decide +kernel)]
    rfl

end Testbench.Elf
