import Testbench.Proofs.Elf.Places
import Testbench.Proofs.Section.Lookup
import Testbench.Proofs.Text.Decoding

namespace Testbench

namespace Text.Utf8

theorem zero_notMem_encode {s : List Char} (h : '\x00' ∉ s) : 0 ∉ encode s := by
  rw [encode, List.mem_flatMap]
  rintro ⟨c, hc, hzero⟩
  rcases Nat.lt_or_ge c.toNat 128 with hascii | hlarge
  · rw [encodeChar_of_ascii hascii, List.mem_singleton] at hzero
    have hnul : '\x00' = Char.ofUInt8 (.ofNat c.toNat) := congrArg Char.ofUInt8 hzero
    rw [ofUInt8_ofNat hascii] at hnul
    exact h (hnul ▸ hc)
  · exact absurd (le_of_mem_encodeChar hlarge hzero) (by decide)

end Text.Utf8

namespace Elf

theorem nameAt_of_holds {data : Bytes} {position : Nat} {name : String}
    (hname : '\x00' ∉ name.toList) (h : data.Holds position (Builder.nameBytes name)) :
    nameAt data position = name := by
  rw [nameAt, h.terminated_eq (Text.Utf8.zero_notMem_encode hname), Text.Utf8.decodeLossy_encode,
    String.ofList_toList]

namespace Piece

structure Fits (p : Piece) : Prop where
  name : '\x00' ∉ p.name.toList
  kind : p.kind < UInt32.size
  address : p.address < UInt32.size
  reserved : p.reserved < UInt32.size

theorem stored_eq {p : Piece} (h : p.kind ≠ nobits) : p.stored = p.data := by
  rw [stored, if_neg h]

theorem size_lt {p : Piece} (h : p.Fits) {bound : Nat} (hbound : UInt32.size ≤ bound)
    (hstored : p.stored.length < bound) : p.size < bound := by
  rw [size]
  split
  · exact Nat.lt_of_lt_of_le h.reserved hbound
  · next hkind => rwa [stored_eq hkind] at hstored

end Piece

namespace Place

def section? (p : Place) (index : Nat) : Option Section :=
  if p.piece.name = "" then none
  else some ⟨index, p.piece.name, kindName p.piece.kind, p.piece.address, p.offset, p.piece.size, 0⟩

theorem section?_eq_some_iff {p : Place} {index : Nat} {s : Section} :
    p.section? index = some s ↔ p.piece.name ≠ "" ∧
      s = ⟨index, p.piece.name, kindName p.piece.kind, p.piece.address, p.offset, p.piece.size,
        0⟩ := by
  rw [section?, Option.ite_none_left_eq_some, Option.some.injEq, eq_comm (a := s)]

theorem section?_entry {p : Place} (hp : p.piece.Fits) {data : Bytes} {names : Nat}
    (h : data.Holds (names + p.name) (Builder.nameBytes p.piece.name)) (index : Nat) :
    p.entry.section? data names index = p.section? index := by
  have hname : nameAt data (names + p.entry.name) = p.piece.name := nameAt_of_holds hp.name h
  rw [Entry.section?, hname]
  rfl

end Place

namespace Builder

variable {pieces : List Piece} {data : Bytes} {place : Place}

theorem fits_of_mem_places (hpieces : ∀ p ∈ pieces, p.Fits) (h : place ∈ places pieces) :
    place.piece.Fits := by
  have hmem : place.piece ∈ emptyPlace.piece :: listed pieces := by
    rw [← map_piece_described]
    exact List.mem_map_of_mem h
  rw [listed, List.mem_cons, List.mem_append, List.mem_singleton] at hmem
  rcases hmem with hempty | hpiece | hown
  · rw [hempty]
    exact ⟨by decide, by decide, by decide, by decide⟩
  · exact hpieces _ hpiece
  · rw [hown]
    exact ⟨show '\x00' ∉ ownName.toList by decide, show strtab < UInt32.size by decide,
      show 0 < UInt32.size by decide, show 0 < UInt32.size by decide⟩

theorem holds_name_of_mem_places (hdata : Parts pieces data) (h : place ∈ places pieces) :
    data.Holds (namesOffset pieces + place.name) (nameBytes place.piece.name) := by
  have hnames := hdata.names
  have hfirst : namesOf pieces = nameBytes "" ++ pieces.flatMap fun p => nameBytes p.name := rfl
  rw [nameTable, Bytes.holds_append_iff] at hnames
  rw [places, described, List.mem_cons, List.mem_append, List.mem_singleton] at h
  rcases h with rfl | h | rfl
  · rw [hfirst, Bytes.holds_append_iff] at hnames
    exact hnames.1.1
  · rw [hfirst, Bytes.holds_append_iff] at hnames
    exact holds_name hnames.1.2 h
  · exact hnames.2

theorem within_of_mem_places (h : place ∈ places pieces) :
    place.name ≤ (nameTable pieces).length ∧ place.finish ≤ tableOffset pieces := by
  have htable := le_aligned (namesOffset pieces + (nameTable pieces).length)
  have hnames : (nameTable pieces).length = (namesOf pieces).length + (nameBytes ownName).length :=
    List.length_append
  rw [places, described, List.mem_cons, List.mem_append, List.mem_singleton] at h
  rw [tableOffset]
  rcases h with rfl | h | rfl
  · exact ⟨Nat.zero_le _, Nat.zero_le _⟩
  · have hname := name_of_mem_placesFrom h
    have hfinish := (offset_of_mem_placesFrom h).2.2
    have hlength : (namesOf pieces).length =
        1 + (pieces.flatMap fun p => nameBytes p.name).length := Nat.add_comm ..
    rw [namesOffset] at htable ⊢
    constructor <;> omega
  · have hfinish : (ownPlace pieces).finish = namesOffset pieces + (nameTable pieces).length := rfl
    have hname : (ownPlace pieces).name = (namesOf pieces).length := rfl
    constructor <;> omega

theorem readEntry_of_mem_places (hpieces : ∀ p ∈ pieces, p.Fits) (hdata : Parts pieces data)
    (hsize : data.size < UInt32.size) {i : Nat} (h : (places pieces)[i]? = some place) :
    readEntry .elf32 data (tableOffset pieces + i * 40) = .ok place.entry := by
  have hmem := List.mem_of_getElem? h
  have hfits := fits_of_mem_places hpieces hmem
  obtain ⟨hname, hfinish⟩ := within_of_mem_places hmem
  have htable := hdata.table.part (fun p _ => length_entry_fields p) h
  have htotal := hdata.size
  have hnames := le_aligned (namesOffset pieces + (nameTable pieces).length)
  rw [← tableOffset] at hnames
  rw [Place.finish] at hfinish
  rw [Nat.mul_comm]
  refine readEntry_of_holds ?_ htable
  simp only [List.forall_mem_cons]
  refine ⟨by omega, hfits.kind, hfits.address, by omega, ?_, by simp⟩
  exact Piece.size_lt hfits (Nat.le_refl _) (by omega)

theorem readEntries_of_parts (hpieces : ∀ p ∈ pieces, p.Fits) (hdata : Parts pieces data)
    (hsize : data.size < UInt32.size) :
    readEntries data ⟨.elf32, tableOffset pieces, 40, pieces.length + 2, pieces.length + 1⟩ =
      .ok ((places pieces).map Place.entry) := by
  rw [readEntries, mapM_eq_ok_iff, List.forall₂_iff_get]
  refine ⟨by rw [List.length_range, List.length_map, length_places], ?_⟩
  intro i hi hplace
  rw [List.length_map] at hplace
  simp only [List.get_eq_getElem, List.getElem_range, List.getElem_map]
  exact readEntry_of_mem_places hpieces hdata hsize (List.getElem?_eq_getElem hplace)

theorem tableOfEntries_of_parts (hpieces : ∀ p ∈ pieces, p.Fits) (hdata : Parts pieces data) :
    tableOfEntries data (pieces.length + 1) ((places pieces).map Place.entry) =
      .ofList ((places pieces).zipIdx.filterMap fun (p, i) => p.section? i) := by
  have hown :
      ((places pieces).map Place.entry)[pieces.length + 1]? = some (ownPlace pieces).entry := by
    have hlength : (placesFrom contentStart 1 pieces).length = pieces.length := by
      rw [← List.length_map Place.piece, map_piece_placesFrom]
    rw [List.getElem?_map, places, List.getElem?_cons_succ, described, ← hlength,
      List.getElem?_concat_length]
    rfl
  have hoffset : (ownPlace pieces).entry.offset = namesOffset pieces := rfl
  rw [tableOfEntries, hown]
  simp only [hoffset]
  rw [List.zipIdx_map, List.filterMap_map]
  congr 1
  refine List.filterMap_congr ?_
  rintro ⟨p, i⟩ hmem
  have hp := List.mem_of_getElem? (List.mem_zipIdx_iff_getElem?.1 hmem)
  exact Place.section?_entry (fits_of_mem_places hpieces hp) (holds_name_of_mem_places hdata hp) i

/-- Where the contents of the listed pieces stand in a file. Contents that are stored end before
those of later pieces and the header table begin. -/
structure Arranged (pieces : List Piece) (data : Bytes) (header : Header) (offsets : List Nat) :
    Prop where
  length_eq : offsets.length = pieces.length + 1
  multiple : ∀ (i offset : Nat), i < pieces.length → offsets[i]? = some offset →
    offset % 4 = 0 ∧ 0x1000 ≤ offset
  contents : ∀ (i : Nat) (p : Piece) (offset : Nat), (listed pieces)[i]? = some p →
    p.kind ≠ nobits → offsets[i]? = some offset →
    data.window offset p.data.length = p.data ∧ offset + p.data.length ≤ header.tableOffset
  apart : ∀ (i j : Nat) (p : Piece) (offset later : Nat), i < j → (listed pieces)[i]? = some p →
    p.kind ≠ nobits → offsets[i]? = some offset → offsets[j]? = some later →
    offset + p.data.length ≤ later
  table : header.tableOffset + header.entryCount * header.entryStride = data.size

theorem listed_of_described {i : Nat} (h : (described pieces)[i]? = some place) :
    (listed pieces)[i]? = some place.piece := by
  rw [← map_piece_described, List.getElem?_map, h]
  rfl

theorem exists_of_listed {i : Nat} {p : Piece} (h : (listed pieces)[i]? = some p) :
    ∃ place, (described pieces)[i]? = some place ∧ place.piece = p := by
  rwa [← map_piece_described, List.getElem?_map, Option.map_eq_some_iff] at h

theorem pairwise_described (pieces : List Piece) :
    (described pieces).Pairwise fun a b => a.finish ≤ b.offset := by
  rw [described, List.pairwise_append]
  refine ⟨pairwise_placesFrom _ _ _, List.pairwise_singleton .., ?_⟩
  intro a ha b hb
  rw [List.mem_singleton] at hb
  subst hb
  exact (offset_of_mem_placesFrom ha).2.2

theorem holds_stored_of_mem_described (hdata : Parts pieces data) (h : place ∈ described pieces) :
    data.Holds place.offset place.piece.stored := by
  rw [described, List.mem_append, List.mem_singleton] at h
  rcases h with h | rfl
  · exact holds_contents hdata.contents h
  · exact hdata.names

theorem arranged_of_parts (hdata : Parts pieces data) :
    Arranged pieces data
      ⟨.elf32, tableOffset pieces, 40, pieces.length + 2, pieces.length + 1⟩
      ((described pieces).map Place.offset) := by
  constructor
  · rw [List.length_map, length_described]
  · intro i offset hi hoffset
    have hlength : (placesFrom contentStart 1 pieces).length = pieces.length := by
      rw [← List.length_map Place.piece, map_piece_placesFrom]
    rw [List.getElem?_map, described, List.getElem?_append_left (by omega),
      Option.map_eq_some_iff] at hoffset
    obtain ⟨place, hplace, rfl⟩ := hoffset
    obtain ⟨haligned, hstart, -⟩ := offset_of_mem_placesFrom (List.mem_of_getElem? hplace)
    exact ⟨haligned, hstart⟩
  · intro i p offset hp hkind hoffset
    obtain ⟨place, hplace, rfl⟩ := exists_of_listed hp
    rw [List.getElem?_map, hplace] at hoffset
    obtain rfl := Option.some.inj hoffset
    have hmem := List.mem_of_getElem? hplace
    have hholds := holds_stored_of_mem_described hdata hmem
    have hwithin := (within_of_mem_places (List.mem_cons_of_mem _ hmem)).2
    rw [Place.finish, Piece.stored_eq hkind] at hwithin
    rw [Piece.stored_eq hkind] at hholds
    exact ⟨hholds.window_eq, hwithin⟩
  · intro i j p offset later hij hp hkind hoffset hlater
    obtain ⟨place, hplace, rfl⟩ := exists_of_listed hp
    rw [List.getElem?_map, hplace] at hoffset
    obtain rfl := Option.some.inj hoffset
    rw [List.getElem?_map, Option.map_eq_some_iff] at hlater
    obtain ⟨place', hplace', rfl⟩ := hlater
    obtain ⟨hi, rfl⟩ := List.getElem?_eq_some_iff.1 hplace
    obtain ⟨hj, rfl⟩ := List.getElem?_eq_some_iff.1 hplace'
    have hapart := List.pairwise_iff_getElem.1 (pairwise_described pieces) i j hi hj hij
    rwa [Place.finish, Piece.stored_eq hkind] at hapart
  · change tableOffset pieces + (pieces.length + 2) * 40 = data.size
    rw [hdata.size, Nat.mul_comm]

theorem isLast_places_iff {name : String} {s : Section} :
    SectionTable.IsLast Place.section? (places pieces) name s ↔
      name ≠ "" ∧ ∃ i p offset, (listed pieces)[i]? = some p ∧
        ((described pieces).map Place.offset)[i]? = some offset ∧ p.name = name ∧
        (∀ j q, i < j → (listed pieces)[j]? = some q → q.name ≠ name) ∧
        s = ⟨i + 1, name, kindName p.kind, p.address, offset, p.size, 0⟩ := by
  constructor
  · rintro ⟨hname, i, place, hplace, hs, hlater⟩
    obtain ⟨hne, rfl⟩ := Place.section?_eq_some_iff.1 hs
    subst hname
    cases i with
    | zero =>
        obtain rfl := Option.some.inj hplace
        exact absurd rfl hne
    | succ i =>
        have hdescribed : (described pieces)[i]? = some place := hplace
        refine ⟨hne, i, place.piece, place.offset, listed_of_described hdescribed, ?_, rfl, ?_, rfl⟩
        · rw [List.getElem?_map, hdescribed]
          rfl
        · intro j q hj hq hqname
          obtain ⟨later, hplace', rfl⟩ := exists_of_listed hq
          have hsection := (@Place.section?_eq_some_iff later (j + 1) _).2 ⟨hqname ▸ hne, rfl⟩
          exact hlater (j + 1) later _ (Nat.succ_lt_succ hj) hplace' hsection hqname
  · rintro ⟨hne, i, p, offset, hp, hoffset, rfl, hlater, rfl⟩
    obtain ⟨place, hplace, rfl⟩ := exists_of_listed hp
    rw [List.getElem?_map, hplace] at hoffset
    obtain rfl := Option.some.inj hoffset
    refine ⟨rfl, i + 1, place, hplace, Place.section?_eq_some_iff.2 ⟨hne, rfl⟩, ?_⟩
    intro j later t hj hlt ht htname
    obtain ⟨-, rfl⟩ := Place.section?_eq_some_iff.1 ht
    cases j with
    | zero => omega
    | succ j =>
        exact hlater j later.piece (Nat.lt_of_succ_lt_succ hj) (listed_of_described hlt) htname

/-- A built file is read back: each name stands for the last of the listed pieces that bear it. -/
theorem readTable_build {pieces : List Piece} (hpieces : ∀ p ∈ pieces, p.Fits)
    (hcount : pieces.length ≤ 65533) (hsize : (build pieces).length < UInt32.size) :
    ∃ header entries table offsets,
      readHeader (build pieces).toArray = .ok header ∧
      readEntries (build pieces).toArray header = .ok entries ∧
      readTable (build pieces).toArray = .ok table ∧
      entries.map Entry.offset = 0 :: offsets ∧
      (∀ name s, table.get? name = some s ↔
        name ≠ "" ∧ ∃ i p offset, (listed pieces)[i]? = some p ∧ offsets[i]? = some offset ∧
          p.name = name ∧ (∀ j q, i < j → (listed pieces)[j]? = some q → q.name ≠ name) ∧
          s = ⟨i + 1, name, kindName p.kind, p.address, offset,
            if p.kind = nobits then p.reserved else p.data.length, 0⟩) ∧
      Arranged pieces (build pieces).toArray header offsets := by
  have hdata := parts_build pieces
  have hbound : (build pieces).toArray.size < UInt32.size := hsize
  have htotal := hdata.size
  have hheader : readHeader (build pieces).toArray =
      .ok ⟨.elf32, tableOffset pieces, 40, pieces.length + 2, pieces.length + 1⟩ :=
    readHeader_of_holds (by omega)
      (Nat.lt_of_le_of_lt (Nat.add_le_add_right hcount 2) (by decide)) hdata.header
  have hentries := readEntries_of_parts hpieces hdata hbound
  refine ⟨_, _, .ofList ((places pieces).zipIdx.filterMap fun (p, i) => p.section? i),
    (described pieces).map Place.offset, hheader, hentries, ?_, ?_, ?_, arranged_of_parts hdata⟩
  · rw [readTable, hheader]
    simp only [bind, Except.bind]
    rw [hentries]
    exact congrArg Except.ok (tableOfEntries_of_parts hpieces hdata)
  · rw [List.map_map]
    rfl
  · intro name s
    exact SectionTable.get?_ofList_zipIdx.trans isLast_places_iff

def repeatedPieces : List Piece :=
  [.contents ".text" 0x80000000 [1, 2, 3, 4, 5], .empty ".bss" 0x80000100 64,
    .typed ".text" 7 0 [9], .typed "" strtab 0 [6, 7], .typed ".noinit" nobits 0 [8]]

theorem readTable_build_repeated : ∃ table offset bss noinit,
    readTable (build repeatedPieces).toArray = .ok table ∧
      table.get? ".text" = some ⟨3, ".text", "NOTE", 0, offset, 1, 0⟩ ∧
      Bytes.window (build repeatedPieces).toArray offset 1 = [9] ∧
      table.get? ".bss" = some ⟨2, ".bss", "NOBITS", 0x80000100, bss, 64, 0⟩ ∧
      table.get? ".noinit" = some ⟨5, ".noinit", "NOBITS", 0, noinit, 0, 0⟩ ∧
      table.get? "" = none := by
  have hfits : ∀ p ∈ repeatedPieces, p.Fits := by
    simp only [repeatedPieces, List.forall_mem_cons]
    refine ⟨?_, ?_, ?_, ?_, ?_, by simp⟩ <;> constructor <;> decide
  obtain ⟨_, _, table, offsets, -, -, htable, -, hget, harranged⟩ :=
    readTable_build hfits (by decide) (by decide +kernel)
  have hlength : offsets.length = 6 := harranged.length_eq
  have hoffset {i : Nat} (hi : i < 6) : offsets[i]? = some (offsets.get ⟨i, hlength ▸ hi⟩) :=
    List.getElem?_eq_getElem _
  have hlast {i : Nat} {name : String}
      (h : name ∉ ((listed repeatedPieces).drop (i + 1)).map Piece.name) :
      ∀ j q, i < j → (listed repeatedPieces)[j]? = some q → q.name ≠ name := by
    rintro j q hij hq rfl
    refine h (List.mem_map_of_mem (List.mem_of_getElem? (i := j - (i + 1)) ?_))
    rwa [List.getElem?_drop, Nat.add_sub_cancel' hij]
  refine ⟨table, offsets[2], offsets[1], offsets[4], htable, ?_, ?_, ?_, ?_, ?_⟩
  · exact (hget _ _).2 ⟨by decide, 2, .typed ".text" 7 0 [9], _, rfl, hoffset (by decide), rfl,
      hlast (by decide), rfl⟩
  · exact (harranged.contents 2 (.typed ".text" 7 0 [9]) _ rfl (by decide) (hoffset (by decide))).1
  · exact (hget _ _).2 ⟨by decide, 1, .empty ".bss" 0x80000100 64, _, rfl, hoffset (by decide), rfl,
      hlast (by decide), rfl⟩
  · exact (hget _ _).2 ⟨by decide, 4, .typed ".noinit" nobits 0 [8], _, rfl, hoffset (by decide),
      rfl, hlast (by decide), rfl⟩
  · refine Option.eq_none_iff_forall_ne_some.2 ?_
    intro s hs
    exact ((hget _ _).1 hs).1 rfl

end Builder

end Elf

end Testbench
