import Mathlib.Data.List.Induction
import Testbench.Proofs.Image.Capacity
import Testbench.Toolchain

namespace Testbench

def Block.covers (b : Block) (index : Nat) : Bool :=
  b.wordAddress ≤ index && index < b.endWord

theorem Block.covers_iff {b : Block} {index : Nat} :
    b.covers index = true ↔ b.wordAddress ≤ index ∧ index < b.endWord := by
  rw [covers, Bool.and_eq_true, decide_eq_true_eq, decide_eq_true_eq]

/-- The word that the last block over an index has there, and `before` where there is none. -/
def Block.wordIn (blocks : List Block) (index : Nat) (before : Option UInt32) : Option UInt32 :=
  match blocks.reverse.find? (·.covers index) with
  | some b => b.words.toList[index - b.wordAddress]?
  | none => before

theorem Block.wordIn_concat (blocks : List Block) (b : Block) (index : Nat)
    (before : Option UInt32) :
    wordIn (blocks ++ [b]) index before =
      if b.covers index then b.words.toList[index - b.wordAddress]?
      else wordIn blocks index before := by
  rw [wordIn, wordIn, List.reverse_concat, List.find?_cons]
  cases b.covers index <;> rfl

namespace WordMemory

variable {m : WordMemory} {b : Block} {blocks : List Block}

def place (m : WordMemory) (b : Block) : WordMemory :=
  ⟨overwrite m.words b.wordAddress b.words.toList⟩

def placeAll (m : WordMemory) (blocks : List Block) : WordMemory :=
  blocks.foldl place m

@[simp] theorem size_place (m : WordMemory) (b : Block) : (m.place b).size = m.size :=
  size_overwrite ..

theorem get?_place_eq (m : WordMemory) (b : Block) (index : Nat) :
    (m.place b).get? index =
      if b.covers index ∧ index < m.size then b.words.toList[index - b.wordAddress]?
      else m.get? index := by
  rw [place, get?, getElem?_overwrite, Words.length_toList]
  simp only [Block.covers_iff, and_assoc]
  rfl

theorem get?_place (hfits : b.endWord ≤ m.size) (index : Nat) :
    (m.place b).get? index =
      if b.covers index then b.words.toList[index - b.wordAddress]? else m.get? index := by
  have hinside : b.covers index = true ∧ index < m.size ↔ b.covers index = true :=
    and_iff_left_of_imp fun h => Nat.lt_of_lt_of_le (Block.covers_iff.1 h).2 hfits
  rw [get?_place_eq]
  simp only [hinside]

theorem placeAll_concat (m : WordMemory) (blocks : List Block) (b : Block) :
    m.placeAll (blocks ++ [b]) = (m.placeAll blocks).place b :=
  List.foldl_concat ..

@[simp] theorem size_placeAll (m : WordMemory) (blocks : List Block) :
    (m.placeAll blocks).size = m.size := by
  induction blocks using List.reverseRecOn with
  | nil => rfl
  | append_singleton blocks b ih => rw [placeAll_concat, size_place, ih]

theorem get?_placeAll (hfits : ∀ b ∈ blocks, b.endWord ≤ m.size) (index : Nat) :
    (m.placeAll blocks).get? index = Block.wordIn blocks index (m.get? index) := by
  induction blocks using List.reverseRecOn with
  | nil => rfl
  | append_singleton blocks b ih =>
      have hb := hfits b (List.mem_append_right _ List.mem_cons_self)
      rw [← size_placeAll m blocks] at hb
      rw [placeAll_concat, get?_place hb, ih fun c hc => hfits c (List.mem_append_left _ hc),
        Block.wordIn_concat]

theorem store_of_fits (h : b.endWord ≤ m.size) :
    WordSink.store m b.base b.words = (m.place b, .ok ()) :=
  if_pos h

theorem store_of_beyond (h : m.size < b.endWord) :
    WordSink.store m b.base b.words =
      (m, .error (.indexOutOfRange (max b.wordAddress m.size) m.size)) :=
  if_neg (Nat.not_le.2 h)

end WordMemory

namespace Image

variable {image : Image} {m : WordMemory} {blocks earlier later : List Block} {b : Block}

theorem storeBlocks_append (hfits : ∀ c ∈ earlier, c.endWord ≤ m.size) :
    storeBlocks (earlier ++ blocks) m = storeBlocks blocks (m.placeAll earlier) := by
  induction earlier generalizing m with
  | nil => rfl
  | cons c earlier ih =>
      obtain ⟨hc, hearlier⟩ := List.forall_mem_cons.1 hfits
      rw [List.cons_append, storeBlocks, WordMemory.store_of_fits hc]
      exact ih (by simpa using hearlier)

theorem storeBlocks_of_beyond (hfits : ∀ c ∈ earlier, c.endWord ≤ m.size)
    (hbeyond : m.size < b.endWord) :
    storeBlocks (earlier ++ b :: later) m =
      (m.placeAll earlier, .error (.indexOutOfRange (max b.wordAddress m.size) m.size)) := by
  have hlast : (m.placeAll earlier).size < b.endWord := by rwa [WordMemory.size_placeAll]
  rw [storeBlocks_append hfits, storeBlocks, WordMemory.store_of_beyond hlast,
    WordMemory.size_placeAll]

theorem exists_first_beyond (h : ∃ b ∈ image.blocks, m.size < b.endWord) :
    ∃ earlier b later, image.blocks = earlier ++ b :: later ∧
      (∀ c ∈ earlier, c.endWord ≤ m.size) ∧ m.size < b.endWord := by
  have hsome : (image.blocks.find? fun b => m.size < b.endWord).isSome := by
    simpa only [List.find?_isSome, decide_eq_true_eq] using h
  obtain ⟨b, hb⟩ := Option.isSome_iff_exists.1 hsome
  obtain ⟨hbeyond, earlier, later, hblocks, hearlier⟩ := List.find?_eq_some_iff_append.1 hb
  refine ⟨earlier, b, later, hblocks, fun c hc => ?_, of_decide_eq_true hbeyond⟩
  simpa using hearlier c hc

theorem storeIn_array_failed_iff :
    (image.storeIn m).2 ≠ .ok () ↔ ∃ b ∈ image.blocks, m.size < b.endWord := by
  rw [Ne, storeIn_array_isOk_iff]
  simp

section Load

variable {μ : Type} [WordSink μ] {host : Host} {config : LoadConfig} {file : String}
  {memory last : μ} {f : Failure}

inductive Fails (loaded : Except BinaryError Image) (memory : μ) : μ → Failure → Prop where
  | unread {e : BinaryError} (h : loaded = .error e) : Fails loaded memory memory (.binary e)
  | refused {image : Image} {last : μ} {e : MemoryError} (h : loaded = .ok image)
      (hstore : image.storeIn memory = (last, .error e)) : Fails loaded memory last (.memory e)

theorem loadInto_eq_error_iff :
    loadInto host config file memory = (last, .error f) ↔
      Fails (load host config file) memory last f := by
  constructor
  · intro h
    rw [loadInto] at h
    cases hload : load host config file with
    | error e =>
        rw [hload] at h
        cases h
        exact .unread rfl
    | ok image =>
        simp only [hload] at h
        rcases hstore : image.storeIn memory with ⟨next, e | u⟩
        · rw [hstore] at h
          cases h
          exact .refused rfl hstore
        · rw [hstore] at h
          cases h
  · intro h
    cases h with
    | unread hload => rw [loadInto, hload]
    | refused hload hstore =>
        rw [loadInto, hload]
        simp only [hstore]

theorem assembleInto_eq_error_iff {tools : Toolchain} {object source : String} :
    tools.assembleInto host object source memory = (last, .error f) ↔
      (tools.assembler.assemble host object source = .error f ∧ last = memory) ∨
      ∃ built, tools.assembler.assemble host object source = .ok built ∧
        Fails (load built { LoadConfig.riscvTests with source := tools.source } object) memory last
          f := by
  simp only [← loadInto_eq_error_iff]
  rw [Toolchain.assembleInto]
  cases tools.assembler.assemble host object source with
  | error e => simp [and_comm, eq_comm]
  | ok built => simp

end Load

/-- A load that an array refuses has stored the blocks before the first one that does not fit, and
one that fails earlier has left any memory as it was. -/
theorem failed_load_boundary :
    (∀ (image : Image) (m : WordMemory),
      ((image.storeIn m).2 ≠ .ok () ↔ ∃ b ∈ image.blocks, m.size < b.endWord) ∧
      ((image.storeIn m).2 ≠ .ok () → ∃ earlier b later, image.blocks = earlier ++ b :: later ∧
        (∀ c ∈ earlier, c.endWord ≤ m.size) ∧ m.size < b.endWord ∧
        image.storeIn m = (m.placeAll earlier,
          .error (.indexOutOfRange (max b.wordAddress m.size) m.size)) ∧
        (m.placeAll earlier).size = m.size ∧
        ∀ i, (m.placeAll earlier).get? i = Block.wordIn earlier i (m.get? i))) ∧
    ∀ {μ : Type} [WordSink μ] (memory last : μ) (f : Failure) (host : Host),
      (∀ config file, loadInto host config file memory = (last, .error f) ↔
        Fails (load host config file) memory last f) ∧
      ∀ (tools : Toolchain) object source,
        tools.assembleInto host object source memory = (last, .error f) ↔
          (tools.assembler.assemble host object source = .error f ∧ last = memory) ∨
          ∃ built, tools.assembler.assemble host object source = .ok built ∧
            Fails (load built { LoadConfig.riscvTests with source := tools.source } object) memory
              last f := by
  refine ⟨fun image m => ⟨storeIn_array_failed_iff, fun hfailed => ?_⟩, fun memory last f host =>
    ⟨fun _ _ => loadInto_eq_error_iff, fun _ _ _ => assembleInto_eq_error_iff⟩⟩
  obtain ⟨earlier, b, later, hblocks, hfits, hbeyond⟩ :=
    exists_first_beyond (storeIn_array_failed_iff.1 hfailed)
  refine ⟨earlier, b, later, hblocks, hfits, hbeyond, ?_, WordMemory.size_placeAll m earlier,
    WordMemory.get?_placeAll hfits⟩
  rw [storeIn, hblocks, storeBlocks_of_beyond hfits hbeyond]

theorem failed_load_boundary_late :
    let image : Image := ⟨[⟨".text", 0, .listed [1, 2]⟩, ⟨".data", 4, .listed [3]⟩,
      ⟨".bss", 12, .zeros 2⟩, ⟨".late", 0, .listed [5]⟩]⟩
    let m : WordMemory := ⟨#[9, 9, 9, 9]⟩
    image.storeIn m = (⟨#[1, 3, 9, 9]⟩, .error (.indexOutOfRange 4 4)) ∧
      ∃ earlier b later, image.blocks = earlier ++ b :: later ∧
        (∀ c ∈ earlier, c.endWord ≤ m.size) ∧ m.size < b.endWord ∧
        image.storeIn m = (m.placeAll earlier,
          .error (.indexOutOfRange (max b.wordAddress m.size) m.size)) ∧
        (m.placeAll earlier).size = m.size ∧
        ∀ i, (m.placeAll earlier).get? i = Block.wordIn earlier i (m.get? i) := by
  intro image m
  have hstore : image.storeIn m = (⟨#[1, 3, 9, 9]⟩, .error (.indexOutOfRange 4 4)) := by
    decide +kernel
  exact ⟨hstore, (failed_load_boundary.1 image m).2 (by simp [hstore])⟩

end Image

end Testbench
