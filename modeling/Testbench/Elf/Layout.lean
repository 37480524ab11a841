import Testbench.Binary.Error
import Testbench.Bytes
import Testbench.LittleEndian

namespace Testbench.Elf

structure Field where
  position : Nat
  width : Nat
  deriving DecidableEq, Repr

def Field.read (f : Field) (data : Bytes) (base : Nat) : Except BinaryError Nat :=
  if base + f.position + f.width ≤ data.size then
    .ok (LittleEndian.value (data.window (base + f.position) f.width))
  else .error (.readOutside (base + f.position) f.width data.size)

structure Layout where
  headerSize : Nat
  tableOffset : Field
  entryStride : Field
  entryCount : Field
  nameTableIndex : Field
  entryLength : Nat
  name : Field
  kind : Field
  address : Field
  offset : Field
  size : Field
  entrySize : Field
  deriving DecidableEq, Repr

def Layout.elf32 : Layout where
  headerSize := 52
  tableOffset := ⟨32, 4⟩
  entryStride := ⟨46, 2⟩
  entryCount := ⟨48, 2⟩
  nameTableIndex := ⟨50, 2⟩
  entryLength := 40
  name := ⟨0, 4⟩
  kind := ⟨4, 4⟩
  address := ⟨12, 4⟩
  offset := ⟨16, 4⟩
  size := ⟨20, 4⟩
  entrySize := ⟨36, 4⟩

def Layout.elf64 : Layout where
  headerSize := 64
  tableOffset := ⟨40, 8⟩
  entryStride := ⟨58, 2⟩
  entryCount := ⟨60, 2⟩
  nameTableIndex := ⟨62, 2⟩
  entryLength := 64
  name := ⟨0, 4⟩
  kind := ⟨4, 4⟩
  address := ⟨16, 8⟩
  offset := ⟨24, 8⟩
  size := ⟨32, 8⟩
  entrySize := ⟨56, 8⟩

end Testbench.Elf
