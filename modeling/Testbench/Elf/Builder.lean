import Testbench.Elf.Kind
import Testbench.LittleEndian
import Testbench.Text.Utf8

namespace Testbench.Elf

/-- `reserved` is the size of a section without contents. -/
structure Piece where
  name : String
  kind : Nat
  flags : Nat
  address : Nat
  data : List UInt8
  reserved : Nat
  deriving DecidableEq, Repr

namespace Piece

def write : Nat := 1

def alloc : Nat := 2

def typed (name : String) (kind address : Nat) (data : List UInt8) : Piece where
  name
  kind
  flags := if kind = progbits ∧ address ≠ 0 then alloc else 0
  address
  data
  reserved := 0

def contents (name : String) (address : Nat) (data : List UInt8) : Piece :=
  typed name progbits address data

def empty (name : String) (address reserved : Nat) : Piece where
  name
  kind := nobits
  flags := alloc + write
  address
  data := []
  reserved

def stored (p : Piece) : List UInt8 :=
  if p.kind = nobits then [] else p.data

def size (p : Piece) : Nat :=
  if p.kind = nobits then p.reserved else p.data.length

end Piece

namespace Builder

def contentStart : Nat := 0x1000

def ownName : String := ".shstrtab"

def aligned (position : Nat) : Nat :=
  (position + 3) / 4 * 4

def zeros (count : Nat) : List UInt8 :=
  List.replicate count 0

def contentsFrom : Nat → List Piece → List UInt8
  | _, [] => []
  | position, p :: ps =>
      zeros (aligned position - position) ++ p.stored ++
        contentsFrom (aligned position + p.stored.length) ps

def nameBytes (name : String) : List UInt8 :=
  Text.Utf8.encode name.toList ++ [0]

def namesOf (pieces : List Piece) : List UInt8 :=
  0 :: pieces.flatMap fun p => nameBytes p.name

def nameTable (pieces : List Piece) : List UInt8 :=
  namesOf pieces ++ nameBytes ownName

def entry (fields : List Nat) : List UInt8 :=
  fields.flatMap (LittleEndian.bytes 4)

def pieceEntry (p : Piece) (offset name : Nat) : List UInt8 :=
  entry [name, p.kind, p.flags, p.address, offset, p.size, 0, 0, 4, 0]

def entriesFrom : Nat → Nat → List Piece → List UInt8
  | _, _, [] => []
  | position, name, p :: ps =>
      pieceEntry p (aligned position) name ++
        entriesFrom (aligned position + p.stored.length) (name + (nameBytes p.name).length) ps

def fileHeader (tableOffset count : Nat) : List UInt8 :=
  [0x7F, 0x45, 0x4C, 0x46, 1, 1, 1] ++ zeros 9 ++
    LittleEndian.bytes 2 2 ++ LittleEndian.bytes 2 243 ++ LittleEndian.bytes 4 1 ++ zeros 8 ++
    LittleEndian.bytes 4 tableOffset ++ zeros 4 ++ LittleEndian.bytes 2 52 ++ zeros 4 ++
    LittleEndian.bytes 2 40 ++ LittleEndian.bytes 2 count ++ LittleEndian.bytes 2 (count - 1)

def build (pieces : List Piece) : List UInt8 :=
  let contents := contentsFrom contentStart pieces
  let names := nameTable pieces
  let namesOffset := contentStart + contents.length
  let namesEnd := namesOffset + names.length
  let header := fileHeader (aligned namesEnd) (pieces.length + 2)
  header ++ zeros (contentStart - header.length) ++ contents ++ names ++
    zeros (aligned namesEnd - namesEnd) ++ zeros 40 ++
    entriesFrom contentStart 1 pieces ++
    entry [(namesOf pieces).length, strtab, 0, 0, namesOffset, names.length, 0, 0, 1, 0]

end Builder

end Testbench.Elf
