import Testbench.Binary.Words
import Testbench.Failure
import Testbench.Image.Config
import Testbench.Memory.Basic

namespace Testbench

/-- Addresses are 64-bit words, though any number may stand for one here. -/
structure Block where
  name : String
  base : Nat
  words : Words
  deriving DecidableEq, Repr

namespace Block

def wordAddress (b : Block) : Nat :=
  b.base / 4

def endWord (b : Block) : Nat :=
  b.wordAddress + b.words.length

end Block

structure Image where
  blocks : List Block
  deriving DecidableEq, Repr

namespace Image

def block? (image : Image) (name : String) : Option Block :=
  image.blocks.find? (·.name = name)

def wordCount (image : Image) : Nat :=
  image.blocks.foldr (fun b count => b.words.length + count) 0

def isEmpty (image : Image) : Bool :=
  image.blocks.isEmpty

def storeBlocks {μ : Type} [WordSink μ] : List Block → μ → μ × Except MemoryError Unit
  | [], memory => (memory, .ok ())
  | b :: bs, memory =>
      match WordSink.store memory b.base b.words with
      | (memory, .ok ()) => storeBlocks bs memory
      | (memory, .error e) => (memory, .error e)

def storeIn {μ : Type} [WordSink μ] (image : Image) (memory : μ) : μ × Except MemoryError Unit :=
  storeBlocks image.blocks memory

def blockOf (files : Files) (file : String) (config : LoadConfig) (s : Section) :
    Except BinaryError Block := do
  let words ← Binary.sectionWords files file s
  return ⟨s.name, config.targetAddress s.address, words⟩

def load (host : Host) (config : LoadConfig) (file : String) : Except BinaryError Image := do
  let table ← Binary.sectionTable host config.source file
  let files := (config.source.after host file).files
  let blocks ← (config.sections.filterMap table.get?).mapM (blockOf files file config)
  return ⟨blocks⟩

def loadInto {μ : Type} [WordSink μ] (host : Host) (config : LoadConfig) (file : String)
    (memory : μ) : μ × Except Failure Image :=
  match load host config file with
  | .error e => (memory, .error (.binary e))
  | .ok image =>
      match image.storeIn memory with
      | (memory, .ok ()) => (memory, .ok image)
      | (memory, .error e) => (memory, .error (.memory e))

def dumpSection (host : Host) (source : SectionSource) (file name : String) :
    Except Failure Words :=
  match Binary.sectionTable host source file with
  | .error e => .error (.binary e)
  | .ok table =>
      match table.get? name with
      | none => .error (.sectionNotFound name)
      | some s => (Binary.sectionWords (source.after host file).files file s).mapError .binary

end Image

end Testbench
