import Testbench.Proofs.Elf.Acceptance

namespace Testbench

theorem LittleEndian.bound_le {a b : Nat} (h : a ≤ b) : bound a ≤ bound b := by
  induction h with
  | refl => exact Nat.le_refl _
  | step _ ih =>
      rw [bound]
      omega

namespace Elf

variable {data : Bytes} {base n : Nat} {layout : Layout} {header : Header} {entry : Entry}

theorem Field.lt_bound_of_read {f : Field} (h : f.read data base = .ok n) :
    n < LittleEndian.bound f.width := by
  rw [Field.read] at h
  split at h
  · next hsize =>
      cases h
      have hvalue := LittleEndian.value_lt (data.window (base + f.position) f.width)
      rwa [Bytes.length_window hsize] at hvalue
  · cases h

theorem Field.read_lt {f : Field} (hwidth : f.width ≤ 8) (h : f.read data base = .ok n) :
    n < UInt64.size :=
  Nat.lt_of_lt_of_le (lt_bound_of_read h) (LittleEndian.bound_le hwidth)

structure Layout.Narrow (layout : Layout) : Prop where
  entryCount : layout.entryCount.width ≤ 8
  address : layout.address.width ≤ 8
  offset : layout.offset.width ≤ 8
  size : layout.size.width ≤ 8
  entrySize : layout.entrySize.width ≤ 8

theorem narrow_of_readLayout (h : readLayout data = .ok layout) : layout.Narrow := by
  rw [readLayout_eq] at h
  cases hclass : classOf data with
  | error e =>
      rw [hclass] at h
      cases h
  | ok c =>
      rw [hclass] at h
      cases h
      cases c <;> constructor <;> decide

structure Entry.Within (e : Entry) (layout : Layout) : Prop where
  address : e.address < LittleEndian.bound layout.address.width
  offset : e.offset < LittleEndian.bound layout.offset.width
  size : e.size < LittleEndian.bound layout.size.width
  entrySize : e.entrySize < LittleEndian.bound layout.entrySize.width

theorem within_of_readEntry (h : readEntry layout data base = .ok entry) : entry.Within layout := by
  rw [readEntry] at h
  split at h
  · cases h
  · obtain ⟨name, -, h⟩ := Files.eq_ok_of_bind h
    obtain ⟨kind, -, h⟩ := Files.eq_ok_of_bind h
    obtain ⟨address, haddress, h⟩ := Files.eq_ok_of_bind h
    obtain ⟨offset, hoffset, h⟩ := Files.eq_ok_of_bind h
    obtain ⟨size, hsize, h⟩ := Files.eq_ok_of_bind h
    obtain ⟨entrySize, hentrySize, h⟩ := Files.eq_ok_of_bind h
    cases h
    exact ⟨Field.lt_bound_of_read haddress, Field.lt_bound_of_read hoffset,
      Field.lt_bound_of_read hsize, Field.lt_bound_of_read hentrySize⟩

structure Entry.Bounded (e : Entry) : Prop where
  address : e.address < UInt64.size
  offset : e.offset < UInt64.size
  size : e.size < UInt64.size
  entrySize : e.entrySize < UInt64.size

theorem Entry.Within.bounded (h : entry.Within layout) (hlayout : layout.Narrow) :
    entry.Bounded where
  address := Nat.lt_of_lt_of_le h.address (LittleEndian.bound_le hlayout.address)
  offset := Nat.lt_of_lt_of_le h.offset (LittleEndian.bound_le hlayout.offset)
  size := Nat.lt_of_lt_of_le h.size (LittleEndian.bound_le hlayout.size)
  entrySize := Nat.lt_of_lt_of_le h.entrySize (LittleEndian.bound_le hlayout.entrySize)

theorem entryCount_lt_of_readHeader (h : readHeader data = .ok header) :
    header.layout.Narrow ∧ header.entryCount < UInt64.size := by
  obtain ⟨layout, hlayout, h⟩ := Files.eq_ok_of_bind h
  obtain ⟨tableOffset, -, h⟩ := Files.eq_ok_of_bind h
  obtain ⟨entryStride, -, h⟩ := Files.eq_ok_of_bind h
  obtain ⟨entryCount, hcount, h⟩ := Files.eq_ok_of_bind h
  obtain ⟨nameTableIndex, -, h⟩ := Files.eq_ok_of_bind h
  cases h
  have hnarrow := narrow_of_readLayout hlayout
  exact ⟨hnarrow, Field.read_lt hnarrow.entryCount hcount⟩

end Elf

structure Section.Decoded (s : Section) : Prop where
  name : s.name ≠ ""
  kind : ∃ code, s.kind = Elf.kindName code
  index : s.index < UInt64.size
  address : s.address < UInt64.size
  offset : s.offset < UInt64.size
  size : s.size < UInt64.size
  entrySize : s.entrySize < UInt64.size

namespace Elf

variable {data : Bytes} {names index : Nat} {entry : Entry} {table : SectionTable} {s : Section}

theorem decoded_of_section? (he : entry.Bounded) (hindex : index < UInt64.size)
    (h : entry.section? data names index = some s) : s.Decoded := by
  simp only [Entry.section?] at h
  split at h
  · cases h
  · next hname =>
      cases h
      exact ⟨hname, ⟨_, rfl⟩, hindex, he.address, he.offset, he.size, he.entrySize⟩

theorem exists_entry_of_readTable (h : readTable data = .ok table) (hs : s ∈ table.sections) :
    ∃ header names index base entry, readHeader data = .ok header ∧ index < header.entryCount ∧
      readEntry header.layout data base = .ok entry ∧ entry.section? data names index = some s := by
  obtain ⟨header, hheader, h⟩ := Files.eq_ok_of_bind h
  obtain ⟨entries, hentries, h⟩ := Files.eq_ok_of_bind h
  cases h
  rw [readEntries, mapM_eq_ok_iff, List.forall₂_iff_get] at hentries
  rw [tableOfEntries.eq_def] at hs
  split at hs
  · cases hs
  · obtain ⟨⟨e, i⟩, he, hsection⟩ := List.mem_filterMap.1 (SectionTable.mem_of_mem_ofList hs)
    have hget : entries[i]? = some e := List.mem_zipIdx_iff_getElem?.1 he
    obtain ⟨hi, rfl⟩ := List.getElem?_eq_some_iff.1 hget
    have hrange : i < header.entryCount := by
      rw [← List.length_range (n := header.entryCount), hentries.1]
      exact hi
    have hentry := hentries.2 i (by rwa [List.length_range]) hi
    exact ⟨header, _, i, _, _, hheader, hrange, hentry, hsection⟩

theorem decoded_of_readTable (h : readTable data = .ok table) (hs : s ∈ table.sections) :
    s.Decoded := by
  obtain ⟨header, names, index, base, entry, hheader, hindex, hentry, hsection⟩ :=
    exists_entry_of_readTable h hs
  obtain ⟨hlayout, hcount⟩ := entryCount_lt_of_readHeader hheader
  exact decoded_of_section? ((within_of_readEntry hentry).bounded hlayout)
    (Nat.lt_trans hindex hcount) hsection

theorem address_of_section? (h : entry.section? data names index = some s) :
    s.address = entry.address := by
  simp only [Entry.section?] at h
  split at h
  · cases h
  · cases h
    rfl

theorem address_lt_of_classOf {c : Class} (hclass : classOf data = .ok c)
    (h : readTable data = .ok table) (hs : s ∈ table.sections) :
    s.address < LittleEndian.bound c.wordWidth := by
  obtain ⟨header, names, index, base, entry, hheader, -, hentry, hsection⟩ :=
    exists_entry_of_readTable h hs
  rw [readHeader_eq, hclass] at hheader
  cases hheader
  have haddress := (within_of_readEntry hentry).address
  rw [address_of_section? hsection]
  cases c <;> exact haddress

end Elf

end Testbench
