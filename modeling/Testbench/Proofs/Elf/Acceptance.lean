import Testbench.Proofs.Elf.Classes

namespace Testbench

theorem LittleEndian.value_eq_iff {bs : List UInt8} {n : Nat} (hn : n < bound bs.length) :
    value bs = n ↔ bs = bytes bs.length n := by
  constructor
  · rintro rfl
    exact (bytes_value bs).symm
  · intro h
    rw [h, value_bytes, Nat.mod_eq_of_lt hn]

namespace Bytes

variable {data : Bytes} {position width : Nat}

def number (data : Bytes) (position width : Nat) : Nat :=
  LittleEndian.value (data.window position width)

theorem length_window (h : position + width ≤ data.size) :
    (data.window position width).length = width := by
  rw [window, Array.length_toList, Array.size_extract]
  omega

theorem window_eq_map (h : position + width ≤ data.size) :
    data.window position width = (List.range width).map fun i => data.byteAt (position + i) := by
  have hlength := length_window h
  refine List.ext_getElem (by rw [hlength, List.length_map, List.length_range]) fun i hi _ => ?_
  have hinside : position + i < data.size := by omega
  simp [window, byteAt, hinside]

theorem number_one (h : position < data.size) :
    data.number position 1 = (data.byteAt position).toNat := by
  rw [number, window_eq_map h]
  simp [LittleEndian.value]

end Bytes

namespace Elf

namespace Class

def ofCode? (code : UInt8) : Option Class :=
  [Class.elf32, .elf64].find? (·.code = code)

def headerLength : Class → Nat
  | .elf32 => 52
  | .elf64 => 64

def entryLength : Class → Nat
  | .elf32 => 40
  | .elf64 => 64

def entryCount (data : Bytes) : Class → Nat
  | .elf32 => data.number 48 2
  | .elf64 => data.number 60 2

def entryStart (data : Bytes) (i : Nat) : Class → Nat
  | .elf32 => data.number 32 4 + i * data.number 46 2
  | .elf64 => data.number 40 8 + i * data.number 58 2

def EntriesInside (data : Bytes) (c : Class) : Prop :=
  ∀ i < c.entryCount data, c.entryStart data i + c.entryLength ≤ data.size

instance (data : Bytes) (c : Class) : Decidable (c.EntriesInside data) :=
  inferInstanceAs (Decidable (∀ i < _, _))

end Class

structure Accepted (data : Bytes) : Prop where
  six_le : 6 ≤ data.size
  magic : data.window 0 4 = [0x7F, 0x45, 0x4C, 0x46]
  encoding : data.byteAt 5 = 1
  form : ∃ c : Class, data.byteAt 4 = c.code ∧ c.headerLength ≤ data.size ∧ c.EntriesInside data

def classOf (data : Bytes) : Except BinaryError Class :=
  if data.size < 6 then .error .tooSmall
  else if data.window 0 4 ≠ [0x7F, 0x45, 0x4C, 0x46] then .error .invalidMagic
  else if data.byteAt 5 ≠ 1 then .error .notLittleEndian
  else
    match Class.ofCode? (data.byteAt 4) with
    | none => .error (.unsupportedClass (data.byteAt 4).toNat)
    | some c => if data.size < c.headerLength then .error .tooSmall else .ok c

def fault? (data : Bytes) : Option BinaryError :=
  match classOf data with
  | .error e => some e
  | .ok c => if c.EntriesInside data then none else some .sectionOutOfBounds

variable {data : Bytes} {c : Class} {base : Nat} {f : Field} {e : BinaryError}

theorem Field.read_of_le (h : base + f.position + f.width ≤ data.size) :
    f.read data base = .ok (data.number (base + f.position) f.width) :=
  if_pos h

theorem Class.ofCode?_eq_some_iff {code : UInt8} : ofCode? code = some c ↔ code = c.code := by
  constructor
  · intro h
    have hcode := List.find?_some h
    exact (of_decide_eq_true hcode).symm
  · rintro rfl
    cases c <;> rfl

theorem layoutOfClass_eq (code : UInt8) :
    layoutOfClass code.toNat =
      match Class.ofCode? code with
      | none => .error (.unsupportedClass code.toNat)
      | some c => .ok c.layout := by
  cases hclass : Class.ofCode? code with
  | some c =>
      obtain rfl := Class.ofCode?_eq_some_iff.1 hclass
      cases c <;> rfl
  | none =>
      have hother (c : Class) : code.toNat ≠ c.code.toNat := by
        intro h
        rw [UInt8.toNat_inj] at h
        rw [Class.ofCode?_eq_some_iff.2 h] at hclass
        cases hclass
      rw [layoutOfClass.eq_def]
      split
      · next h => exact absurd h (hother .elf32)
      · next h => exact absurd h (hother .elf64)
      · rfl

theorem readLayout_eq (data : Bytes) : readLayout data = (classOf data).map Class.layout := by
  rw [readLayout, classOf]
  split
  case isTrue => rfl
  case isFalse hsix =>
    have hmagic : Field.read ⟨0, 4⟩ data 0 = .ok (data.number 0 4) :=
      Field.read_of_le (by simp; omega)
    have hbyte (i : Nat) (hi : i < data.size) :
        Field.read ⟨i, 1⟩ data 0 = .ok (data.byteAt i).toNat := by
      rw [Field.read_of_le (by simp; omega), Nat.zero_add, Bytes.number_one hi]
    have hmagic_iff : data.number 0 4 = magic ↔ data.window 0 4 = [0x7F, 0x45, 0x4C, 0x46] := by
      have hlength : (data.window 0 4).length = 4 := Bytes.length_window (by omega)
      rw [Bytes.number, LittleEndian.value_eq_iff (by rw [hlength]; decide), hlength]
      rfl
    have hencoding_iff : (data.byteAt 5).toNat = littleEndian ↔ data.byteAt 5 = 1 :=
      UInt8.toNat_inj (b := 1)
    simp only [hmagic, hbyte 4 (by omega), hbyte 5 (by omega), layoutOfClass_eq, bind, Except.bind,
      ne_eq, hmagic_iff, hencoding_iff]
    split
    · rfl
    · split
      · rfl
      · cases Class.ofCode? (data.byteAt 4) with
        | none => rfl
        | some c =>
            have hheader : c.layout.headerSize = c.headerLength := by cases c <;> rfl
            simp only [hheader]
            split <;> rfl

def Class.header (data : Bytes) (c : Class) : Header where
  layout := c.layout
  tableOffset := data.number c.layout.tableOffset.position c.layout.tableOffset.width
  entryStride := data.number c.layout.entryStride.position c.layout.entryStride.width
  entryCount := c.entryCount data
  nameTableIndex := data.number c.layout.nameTableIndex.position c.layout.nameTableIndex.width

theorem classOf_eq_ok_iff :
    classOf data = .ok c ↔
      6 ≤ data.size ∧ data.window 0 4 = [0x7F, 0x45, 0x4C, 0x46] ∧ data.byteAt 5 = 1 ∧
        data.byteAt 4 = c.code ∧ c.headerLength ≤ data.size := by
  constructor
  · intro h
    rw [classOf] at h
    split at h
    · cases h
    · next hsix =>
        split at h
        · cases h
        · next hmagic =>
            split at h
            · cases h
            · next hencoding =>
                split at h
                · cases h
                · next hcode =>
                    split at h
                    · cases h
                    · next hheader =>
                        cases h
                        exact ⟨Nat.not_lt.1 hsix, not_not.1 hmagic, not_not.1 hencoding,
                          Class.ofCode?_eq_some_iff.1 hcode, Nat.not_lt.1 hheader⟩
  · rintro ⟨hsix, hmagic, hencoding, hcode, hheader⟩
    rw [classOf, if_neg (Nat.not_lt.2 hsix), if_neg (not_not.2 hmagic),
      if_neg (not_not.2 hencoding), Class.ofCode?_eq_some_iff.2 hcode]
    exact if_neg (Nat.not_lt.2 hheader)

theorem headerLength_le_of_classOf (h : classOf data = .ok c) : c.headerLength ≤ data.size :=
  (classOf_eq_ok_iff.1 h).2.2.2.2

theorem readHeader_eq (data : Bytes) :
    readHeader data = (classOf data).map (Class.header data) := by
  rw [readHeader, readLayout_eq]
  cases hclass : classOf data with
  | error e => rfl
  | ok c =>
      have hsize := headerLength_le_of_classOf hclass
      have hread (f : Field) (hf : f.position + f.width ≤ c.headerLength) :
          f.read data 0 = .ok (data.number f.position f.width) := by
        rw [Field.read_of_le (by omega), Nat.zero_add]
      simp only [Except.map, bind, Except.bind]
      rw [hread _ (by cases c <;> decide), hread _ (by cases c <;> decide),
        hread _ (by cases c <;> decide), hread _ (by cases c <;> decide)]
      cases c <;> rfl

theorem readEntry_of_outside (h : data.size < base + c.entryLength) :
    readEntry c.layout data base = .error .sectionOutOfBounds := by
  cases c <;> exact if_pos h

theorem exists_readEntry (h : base + c.entryLength ≤ data.size) :
    ∃ entry, readEntry c.layout data base = .ok entry := by
  have hlength : c.layout.entryLength = c.entryLength := by cases c <;> rfl
  have hread (f : Field) (hf : f.position + f.width ≤ c.entryLength) :
      f.read data base = .ok (data.number (base + f.position) f.width) :=
    Field.read_of_le (by omega)
  rw [readEntry, hlength, if_neg (Nat.not_lt.2 h), hread _ (by cases c <;> decide),
    hread _ (by cases c <;> decide), hread _ (by cases c <;> decide),
    hread _ (by cases c <;> decide), hread _ (by cases c <;> decide),
    hread _ (by cases c <;> decide)]
  exact ⟨_, rfl⟩

theorem readEntries_header (data : Bytes) (c : Class) :
    readEntries data (c.header data) =
      (List.range (c.entryCount data)).mapM fun i =>
        readEntry c.layout data (c.entryStart data i) := by
  cases c <;> rfl

theorem exists_readEntries_iff :
    (∃ entries, readEntries data (c.header data) = .ok entries) ↔ c.EntriesInside data := by
  rw [readEntries_header, exists_mapM_eq_ok_iff]
  simp only [List.mem_range]
  constructor
  · intro h i hi
    obtain ⟨entry, hentry⟩ := h i hi
    refine Nat.not_lt.1 fun hlt => ?_
    rw [readEntry_of_outside hlt] at hentry
    cases hentry
  · intro h i hi
    exact exists_readEntry (h i hi)

theorem eq_of_readEntries_error (h : readEntries data (c.header data) = .error e) :
    e = .sectionOutOfBounds := by
  rw [readEntries_header] at h
  obtain ⟨i, -, h⟩ := exists_of_mapM_eq_error h
  rcases Nat.lt_or_ge data.size (c.entryStart data i + c.entryLength) with hlt | hle
  · rw [readEntry_of_outside hlt] at h
    cases h
    rfl
  · obtain ⟨entry, hentry⟩ := exists_readEntry hle
    rw [hentry] at h
    cases h

theorem accepted_iff : Accepted data ↔ ∃ c, classOf data = .ok c ∧ c.EntriesInside data := by
  simp only [classOf_eq_ok_iff]
  constructor
  · rintro ⟨hsix, hmagic, hencoding, c, hcode, hheader, hentries⟩
    exact ⟨c, ⟨hsix, hmagic, hencoding, hcode, hheader⟩, hentries⟩
  · rintro ⟨c, ⟨hsix, hmagic, hencoding, hcode, hheader⟩, hentries⟩
    exact ⟨hsix, hmagic, hencoding, c, hcode, hheader, hentries⟩

theorem readTable_of_classOf_error (h : classOf data = .error e) : readTable data = .error e := by
  rw [readTable, readHeader_eq, h]
  rfl

theorem readTable_of_outside (hclass : classOf data = .ok c) (h : ¬c.EntriesInside data) :
    readTable data = .error .sectionOutOfBounds := by
  rw [← exists_readEntries_iff] at h
  rw [readTable, readHeader_eq, hclass]
  simp only [Except.map, bind, Except.bind]
  cases hentries : readEntries data (c.header data) with
  | ok entries => exact absurd ⟨entries, hentries⟩ h
  | error e => rw [eq_of_readEntries_error hentries]

theorem exists_readTable_of_inside (hclass : classOf data = .ok c) (h : c.EntriesInside data) :
    ∃ table, readTable data = .ok table := by
  obtain ⟨entries, hentries⟩ := exists_readEntries_iff.2 h
  rw [readTable, readHeader_eq, hclass]
  simp only [Except.map, bind, Except.bind, hentries]
  exact ⟨_, rfl⟩

theorem readTable_eq_error_iff : readTable data = .error e ↔ fault? data = some e := by
  rw [fault?]
  cases hclass : classOf data with
  | error e' => rw [readTable_of_classOf_error hclass, Except.error.injEq, Option.some.injEq]
  | ok c =>
      by_cases hentries : c.EntriesInside data
      · obtain ⟨table, htable⟩ := exists_readTable_of_inside hclass hentries
        simp [htable, hentries]
      · simp [readTable_of_outside hclass hentries, hentries]

theorem exists_readTable_iff : (∃ table, readTable data = .ok table) ↔ Accepted data := by
  rw [accepted_iff]
  constructor
  · rintro ⟨table, htable⟩
    cases hclass : classOf data with
    | error e =>
        rw [readTable_of_classOf_error hclass] at htable
        cases htable
    | ok c =>
        refine ⟨c, rfl, by_contra fun hentries => ?_⟩
        rw [readTable_of_outside hclass hentries] at htable
        cases htable
  · rintro ⟨c, hclass, hentries⟩
    exact exists_readTable_of_inside hclass hentries

end Elf

end Testbench
