import Testbench.Bytes
import Testbench.Memory.Basic
import Testbench.Overwrite

namespace Testbench

structure BusRam where
  bytes : Bytes
  deriving DecidableEq, Repr

namespace BusRam

def zeroed (size : Nat) : BusRam :=
  ⟨.replicate size 0⟩

def size (ram : BusRam) : Nat :=
  ram.bytes.size

def check (ram : BusRam) (address : Nat) : Except MemoryError Unit :=
  if address % 4 ≠ 0 then .error (.misaligned address)
  else if address + 4 ≤ ram.size then .ok ()
  else .error (.addressOutOfRange address ram.size)

def read (ram : BusRam) (address : Nat) : Except MemoryError UInt32 :=
  (ram.check address).map fun _ => ram.bytes.wordAt address

def put (ram : BusRam) (address : Nat) (value : UInt32) : BusRam :=
  ⟨overwrite ram.bytes address (LittleEndian.bytes 4 value.toNat)⟩

def write (ram : BusRam) (address : Nat) (value : UInt32) : Except MemoryError BusRam :=
  (ram.check address).map fun _ => ram.put address value

/-- What stands before the first refusal is written. Addresses go on without a bound here; 64-bit
words with overflow checks stop with a fault at base 2^64 - 1, before that base is refused. -/
def storeList (ram : BusRam) : Nat → List UInt32 → BusRam × Except MemoryError Unit
  | _, [] => (ram, .ok ())
  | address, w :: ws =>
      match ram.check address with
      | .ok () => (ram.put address w).storeList (address + 4) ws
      | .error e => (ram, .error e)

def storeZeros (ram : BusRam) : Nat → Nat → BusRam × Except MemoryError Unit
  | _, 0 => (ram, .ok ())
  | address, count + 1 =>
      match ram.check address with
      | .ok () => (ram.put address 0).storeZeros (address + 4) count
      | .error e => (ram, .error e)

theorem storeZeros_eq (ram : BusRam) (address count : Nat) :
    ram.storeZeros address count = ram.storeList address (.replicate count 0) := by
  induction count generalizing ram address with
  | zero => rfl
  | succ count ih => simp only [storeZeros, List.replicate_succ, storeList, ih]

def store (ram : BusRam) (address : Nat) : Words → BusRam × Except MemoryError Unit
  | .listed ws => ram.storeList address ws
  | .zeros count => ram.storeZeros address count

theorem store_eq (ram : BusRam) (address : Nat) (ws : Words) :
    ram.store address ws = ram.storeList address ws.toList := by
  cases ws with
  | listed ws => rfl
  | zeros count => exact storeZeros_eq ram address count

instance : WordSink BusRam where
  targetAddress _ base := base
  store := store

end BusRam

end Testbench
