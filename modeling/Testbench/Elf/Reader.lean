import Testbench.Elf.Kind
import Testbench.Elf.Layout
import Testbench.Section.Table
import Testbench.Text.Utf8

namespace Testbench.Elf

structure Header where
  layout : Layout
  tableOffset : Nat
  entryStride : Nat
  entryCount : Nat
  nameTableIndex : Nat
  deriving DecidableEq, Repr

/-- `name` is a position in the name table. -/
structure Entry where
  name : Nat
  kind : Nat
  address : Nat
  offset : Nat
  size : Nat
  entrySize : Nat
  deriving DecidableEq, Repr

def magic : Nat := 0x464C457F

def littleEndian : Nat := 1

def layoutOfClass : Nat → Except BinaryError Layout
  | 1 => .ok .elf32
  | 2 => .ok .elf64
  | code => .error (.unsupportedClass code)

def readLayout (data : Bytes) : Except BinaryError Layout :=
  if data.size < 6 then .error .tooSmall
  else do
    if (← Field.read ⟨0, 4⟩ data 0) ≠ magic then .error .invalidMagic
    else if (← Field.read ⟨5, 1⟩ data 0) ≠ littleEndian then .error .notLittleEndian
    else
      let layout ← layoutOfClass (← Field.read ⟨4, 1⟩ data 0)
      if data.size < layout.headerSize then .error .tooSmall else .ok layout

def readHeader (data : Bytes) : Except BinaryError Header := do
  let layout ← readLayout data
  return {
    layout
    tableOffset := ← layout.tableOffset.read data 0
    entryStride := ← layout.entryStride.read data 0
    entryCount := ← layout.entryCount.read data 0
    nameTableIndex := ← layout.nameTableIndex.read data 0 }

def readEntry (layout : Layout) (data : Bytes) (base : Nat) : Except BinaryError Entry :=
  if data.size < base + layout.entryLength then .error .sectionOutOfBounds
  else do
    return {
      name := ← layout.name.read data base
      kind := ← layout.kind.read data base
      address := ← layout.address.read data base
      offset := ← layout.offset.read data base
      size := ← layout.size.read data base
      entrySize := ← layout.entrySize.read data base }

def readEntries (data : Bytes) (h : Header) : Except BinaryError (List Entry) :=
  (List.range h.entryCount).mapM fun i =>
    readEntry h.layout data (h.tableOffset + i * h.entryStride)

def nameAt (data : Bytes) (position : Nat) : String :=
  .ofList (Text.Utf8.decodeLossy (data.terminated position))

def Entry.section? (data : Bytes) (names : Nat) (index : Nat) (e : Entry) : Option Section :=
  let name := nameAt data (names + e.name)
  if name = "" then none
  else some {
    index, name
    kind := kindName e.kind
    address := e.address
    offset := e.offset
    size := e.size
    entrySize := e.entrySize }

def tableOfEntries (data : Bytes) (nameTableIndex : Nat) (entries : List Entry) : SectionTable :=
  match entries[nameTableIndex]? with
  | none => .empty
  | some names =>
      .ofList (entries.zipIdx.filterMap fun (e, index) => e.section? data names.offset index)

def readTable (data : Bytes) : Except BinaryError SectionTable := do
  let header ← readHeader data
  let entries ← readEntries data header
  return tableOfEntries data header.nameTableIndex entries

end Testbench.Elf
