import Testbench.Elf.Builder
import Testbench.Proofs.Elf.Classes

namespace Testbench.Elf

structure Place where
  piece : Piece
  name : Nat
  offset : Nat
  alignment : Nat

namespace Place

def fields (p : Place) : List Nat :=
  [p.name, p.piece.kind, p.piece.flags, p.piece.address, p.offset, p.piece.size, 0, 0,
    p.alignment, 0]

def entry (p : Place) : Entry :=
  ⟨p.name, p.piece.kind, p.piece.address, p.offset, p.piece.size, 0⟩

def finish (p : Place) : Nat :=
  p.offset + p.piece.stored.length

end Place

namespace Builder

@[simp] theorem length_zeros (count : Nat) : (zeros count).length = count :=
  List.length_replicate

@[simp] theorem length_entry (fields : List Nat) : (entry fields).length = 4 * fields.length :=
  length_flatMap_of_forall fun n _ => LittleEndian.length_bytes 4 n

theorem readEntry_of_holds {data : Bytes} {base name kind flags address offset size align : Nat}
    (hbounds : ∀ n ∈ [name, kind, address, offset, size], n < UInt32.size)
    (h : data.Holds base (entry [name, kind, flags, address, offset, size, 0, 0, align, 0])) :
    readEntry .elf32 data base = .ok ⟨name, kind, address, offset, size, 0⟩ := by
  -- What is not kept is written modulo its width, so it may be any number.
  let full : FullEntry := ⟨⟨name, kind, address, offset, size, 0⟩, flags % LittleEndian.bound 4,
    0, 0, align % LittleEndian.bound 4⟩
  have hbytes : full.bytes .elf32 =
      entry [name, kind, flags, address, offset, size, 0, 0, align, 0] := by
    simp only [full, FullEntry.bytes, FullEntry.numbers, Class.entryWidths, Class.wordWidth,
      written, LittleEndian.bytes_mod_bound]
    rfl
  have hfits : Fit Class.elf32.entryWidths full.numbers := by
    simp only [List.forall_mem_cons, UInt32.size] at hbounds
    simp only [full, Fit, FullEntry.numbers, Class.entryWidths, Class.wordWidth, LittleEndian.bound,
      and_true]
    omega
  exact readEntry_of_written hfits (hbytes ▸ h)

theorem readHeader_of_holds {data : Bytes} {tableOffset count : Nat}
    (htable : tableOffset < UInt32.size) (hcount : count < UInt16.size)
    (h : data.Holds 0 (fileHeader tableOffset count)) :
    readHeader data = .ok ⟨.elf32, tableOffset, 40, count, count - 1⟩ := by
  let header : FileHeader :=
    ⟨1 :: zeros 9, 2, 243, 1, 0, 0, tableOffset, 0, 52, 0, 0, 40, count, count - 1⟩
  have hbytes : header.bytes .elf32 = fileHeader tableOffset count := by
    simp only [header, FileHeader.bytes, FileHeader.numbers, Class.headerWidths, Class.wordWidth,
      written, fileHeader, List.append_assoc, List.append_nil]
    rfl
  have hfits : Fit Class.elf32.headerWidths header.numbers := by
    change tableOffset < 4294967296 at htable
    change count < 65536 at hcount
    simp only [header, Fit, FileHeader.numbers, Class.headerWidths, Class.wordWidth,
      LittleEndian.bound, and_true]
    omega
  exact readHeader_of_written rfl hfits (hbytes ▸ h)

def placesFrom : Nat → Nat → List Piece → List Place
  | _, _, [] => []
  | position, name, p :: ps =>
      ⟨p, name, aligned position, 4⟩ ::
        placesFrom (aligned position + p.stored.length) (name + (nameBytes p.name).length) ps

theorem entriesFrom_eq (position name : Nat) (ps : List Piece) :
    entriesFrom position name ps =
      (placesFrom position name ps).flatMap fun p => entry p.fields := by
  induction ps generalizing position name with
  | nil => rfl
  | cons p ps ih =>
      rw [entriesFrom, placesFrom, List.flatMap_cons, ih]
      rfl

theorem map_piece_placesFrom (position name : Nat) (ps : List Piece) :
    (placesFrom position name ps).map Place.piece = ps := by
  induction ps generalizing position name with
  | nil => rfl
  | cons p ps ih => rw [placesFrom, List.map_cons, ih]

theorem le_aligned (position : Nat) : position ≤ aligned position := by
  rw [aligned]
  omega

theorem aligned_mod (position : Nat) : aligned position % 4 = 0 :=
  Nat.mul_mod_left ..

section Contents

variable {position name : Nat} {ps : List Piece} {place : Place}

theorem length_contentsFrom_cons (position : Nat) (p : Piece) (ps : List Piece) :
    position + (contentsFrom position (p :: ps)).length =
      aligned position + p.stored.length +
        (contentsFrom (aligned position + p.stored.length) ps).length := by
  have hle := le_aligned position
  simp only [contentsFrom, List.length_append, length_zeros]
  omega

theorem offset_of_mem_placesFrom (h : place ∈ placesFrom position name ps) :
    place.offset % 4 = 0 ∧ position ≤ place.offset ∧
      place.finish ≤ position + (contentsFrom position ps).length := by
  induction ps generalizing position name with
  | nil => cases h
  | cons p ps ih =>
      have hle := le_aligned position
      rw [length_contentsFrom_cons]
      rcases List.mem_cons.1 h with rfl | h
      · exact ⟨aligned_mod position, hle, Nat.le_add_right ..⟩
      · obtain ⟨haligned, hstart, hfinish⟩ := ih h
        exact ⟨haligned, by omega, hfinish⟩

theorem pairwise_placesFrom (position name : Nat) (ps : List Piece) :
    (placesFrom position name ps).Pairwise fun a b => a.finish ≤ b.offset := by
  induction ps generalizing position name with
  | nil => exact .nil
  | cons p ps ih =>
      refine .cons ?_ (ih _ _)
      intro place hplace
      exact (offset_of_mem_placesFrom hplace).2.1

theorem holds_contents {data : Bytes} (hdata : data.Holds position (contentsFrom position ps))
    (h : place ∈ placesFrom position name ps) : data.Holds place.offset place.piece.stored := by
  induction ps generalizing position name with
  | nil => cases h
  | cons p ps ih =>
      have hposition : position + (aligned position - position) = aligned position :=
        Nat.add_sub_cancel' (le_aligned position)
      rw [contentsFrom, Bytes.holds_append_iff, Bytes.holds_append_iff, List.length_append,
        length_zeros, ← Nat.add_assoc, hposition] at hdata
      obtain ⟨⟨-, hstored⟩, hrest⟩ := hdata
      rcases List.mem_cons.1 h with rfl | h
      · exact hstored
      · exact ih hrest h

end Contents

section Names

variable {position name base : Nat} {ps : List Piece} {place : Place}

theorem name_of_mem_placesFrom (h : place ∈ placesFrom position name ps) :
    place.name < name + (ps.flatMap fun p => nameBytes p.name).length := by
  induction ps generalizing position name with
  | nil => cases h
  | cons p ps ih =>
      rw [List.flatMap_cons, List.length_append, ← Nat.add_assoc]
      rcases List.mem_cons.1 h with rfl | h
      · have hpos : 0 < (nameBytes p.name).length := by simp [nameBytes]
        change name < _
        omega
      · exact ih h

theorem holds_name {data : Bytes}
    (hdata : data.Holds (base + name) (ps.flatMap fun p => nameBytes p.name))
    (h : place ∈ placesFrom position name ps) :
    data.Holds (base + place.name) (nameBytes place.piece.name) := by
  induction ps generalizing position name with
  | nil => cases h
  | cons p ps ih =>
      rw [List.flatMap_cons, Bytes.holds_append_iff, Nat.add_assoc] at hdata
      rcases List.mem_cons.1 h with rfl | h
      · exact hdata.1
      · exact ih hdata.2 h

end Names

def namesOffset (pieces : List Piece) : Nat :=
  contentStart + (contentsFrom contentStart pieces).length

def tableOffset (pieces : List Piece) : Nat :=
  aligned (namesOffset pieces + (nameTable pieces).length)

def ownPiece (pieces : List Piece) : Piece :=
  .typed ownName strtab 0 (nameTable pieces)

def listed (pieces : List Piece) : List Piece :=
  pieces ++ [ownPiece pieces]

def ownPlace (pieces : List Piece) : Place :=
  ⟨ownPiece pieces, (namesOf pieces).length, namesOffset pieces, 1⟩

def emptyPlace : Place :=
  ⟨⟨"", 0, 0, 0, [], 0⟩, 0, 0, 0⟩

def described (pieces : List Piece) : List Place :=
  placesFrom contentStart 1 pieces ++ [ownPlace pieces]

def places (pieces : List Piece) : List Place :=
  emptyPlace :: described pieces

theorem map_piece_described (pieces : List Piece) :
    (described pieces).map Place.piece = listed pieces := by
  rw [described, List.map_append, map_piece_placesFrom]
  rfl

theorem length_described (pieces : List Piece) : (described pieces).length = pieces.length + 1 := by
  rw [← List.length_map Place.piece, map_piece_described, listed, List.length_append,
    List.length_singleton]

theorem length_places (pieces : List Piece) : (places pieces).length = pieces.length + 2 := by
  rw [places, List.length_cons, length_described]

def tableBytes (pieces : List Piece) : List UInt8 :=
  (places pieces).flatMap fun p => entry p.fields

theorem length_entry_fields (p : Place) : (entry p.fields).length = 40 :=
  length_entry _

theorem length_tableBytes (pieces : List Piece) :
    (tableBytes pieces).length = 40 * (pieces.length + 2) := by
  rw [tableBytes, length_flatMap_of_forall fun p _ => length_entry_fields p, length_places]

theorem build_eq (pieces : List Piece) :
    build pieces = fileHeader (tableOffset pieces) (pieces.length + 2) ++
      zeros (contentStart - 52) ++ contentsFrom contentStart pieces ++ nameTable pieces ++
      zeros (tableOffset pieces - (namesOffset pieces + (nameTable pieces).length)) ++
      tableBytes pieces := by
  have hheader : (fileHeader (tableOffset pieces) (pieces.length + 2)).length = 52 := by
    simp [fileHeader]
  have hempty : zeros 40 = entry emptyPlace.fields := rfl
  have hown : entry [(namesOf pieces).length, strtab, 0, 0, namesOffset pieces,
      (nameTable pieces).length, 0, 0, 1, 0] = entry (ownPlace pieces).fields := rfl
  have htable : tableBytes pieces = zeros 40 ++ entriesFrom contentStart 1 pieces ++
      entry [(namesOf pieces).length, strtab, 0, 0, namesOffset pieces,
        (nameTable pieces).length, 0, 0, 1, 0] := by
    rw [tableBytes, places, described, List.flatMap_cons, List.flatMap_append,
      List.flatMap_singleton, entriesFrom_eq, hempty, hown, List.append_assoc]
  rw [htable]
  simp only [← List.append_assoc, build, ← hheader]
  rfl

structure Parts (pieces : List Piece) (data : Bytes) : Prop where
  header : data.Holds 0 (fileHeader (tableOffset pieces) (pieces.length + 2))
  contents : data.Holds contentStart (contentsFrom contentStart pieces)
  names : data.Holds (namesOffset pieces) (nameTable pieces)
  table : data.Holds (tableOffset pieces) (tableBytes pieces)
  size : data.size = tableOffset pieces + 40 * (pieces.length + 2)

theorem parts_build (pieces : List Piece) : Parts pieces (build pieces).toArray := by
  have hall := Bytes.holds_zero_toArray (build pieces)
  have hheader : (fileHeader (tableOffset pieces) (pieces.length + 2)).length = 52 := by
    simp [fileHeader]
  have hstart : 52 + (contentStart - 52) = contentStart := rfl
  have hnames : contentStart + (contentsFrom contentStart pieces).length = namesOffset pieces := rfl
  have hend : namesOffset pieces + (nameTable pieces).length +
      (tableOffset pieces - (namesOffset pieces + (nameTable pieces).length)) =
        tableOffset pieces :=
    Nat.add_sub_cancel' (le_aligned _)
  have hsize : (build pieces).length = tableOffset pieces + 40 * (pieces.length + 2) := by
    rw [build_eq]
    simp only [List.length_append, hheader, length_zeros, length_tableBytes]
    omega
  have hparts := congrArg (Bytes.Holds (build pieces).toArray 0) (build_eq pieces)
  simp only [Bytes.holds_append_iff, List.length_append, hheader, length_zeros, Nat.zero_add]
    at hparts
  obtain ⟨⟨⟨⟨⟨hheads, -⟩, hcontents⟩, hnameTable⟩, -⟩, htable⟩ := hparts.mp hall
  simp only [hstart, hnames, hend] at hcontents hnameTable htable
  exact ⟨hheads, hcontents, hnameTable, htable, hsize⟩

end Builder

end Testbench.Elf
