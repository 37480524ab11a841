import Testbench.Image.HexFile
import Testbench.Proofs.Image.Load
import Testbench.Proofs.Memory.ByteView

namespace Testbench

def Block.Exceeds (b : Block) (maxWords : Nat) : Prop :=
  b.words.length ≠ 0 ∧ maxWords < b.endWord

instance (b : Block) (maxWords : Nat) : Decidable (b.Exceeds maxWords) :=
  inferInstanceAs (Decidable (_ ∧ _))

theorem Block.not_exceeds_iff {b : Block} {maxWords : Nat} :
    ¬ b.Exceeds maxWords ↔ (b.words.length ≠ 0 → b.endWord ≤ maxWords) := by
  rw [Exceeds, not_and, Nat.not_lt]

theorem Block.aligned_and_fits_iff {b : Block} {maxWords : Nat} :
    (b.words.length ≠ 0 → b.base % 4 = 0 ∧ b.base + 4 * b.words.length ≤ 4 * maxWords) ↔
      ¬ b.Exceeds maxWords ∧ (b.words.length ≠ 0 → b.base % 4 = 0) := by
  rw [not_exceeds_iff, endWord, wordAddress]
  constructor
  · intro h
    refine ⟨fun hwords => ?_, fun hwords => (h hwords).1⟩
    have := h hwords
    omega
  · rintro ⟨hfits, haligned⟩ hwords
    have := hfits hwords
    have := haligned hwords
    omega

theorem WordMemory.store_isOk_iff {m : WordMemory} {base : Nat} {ws : Words} :
    (m.store base ws).2 = .ok () ↔ base / 4 + ws.length ≤ m.size := by
  by_cases hfits : base / 4 + ws.length ≤ m.size <;> simp [store, hfits]

theorem WordMemory.size_of_store {m last : WordMemory} {base : Nat} {ws : Words}
    (h : m.store base ws = (last, .ok ())) : last.size = m.size := by
  obtain ⟨-, rfl⟩ := store_eq_ok_iff.1 h
  exact size_overwrite ..

theorem BusRam.size_of_store {ram last : BusRam} {base : Nat} {ws : Words}
    (h : ram.store base ws = (last, .ok ())) : last.size = ram.size := by
  rw [store_eq, storeList_eq_ok_iff] at h
  obtain ⟨-, rfl⟩ := h
  exact size_overwrite ..

theorem BusRam.store_isOk_iff {ram : BusRam} {base : Nat} {ws : Words} :
    (ram.store base ws).2 = .ok () ↔
      (ws.length ≠ 0 → base % 4 = 0 ∧ base + 4 * ws.length ≤ ram.size) := by
  have hfits : (ws.toList ≠ [] → base % 4 = 0 ∧ base + 4 * ws.toList.length ≤ ram.size) ↔
      (ws.length ≠ 0 → base % 4 = 0 ∧ base + 4 * ws.length ≤ ram.size) := by
    rw [Ne, Words.toList_eq_nil_iff, Words.length_toList]
  rw [store_eq, ← hfits]
  constructor
  · intro h
    exact (storeList_eq_ok_iff.1 (Prod.ext rfl h)).1
  · intro h
    rw [storeList_eq_ok_iff.2 ⟨h, rfl⟩]

namespace Image

theorem storeBlocks_isOk_iff {μ : Type} [WordSink μ] {accepts : μ → Block → Prop}
    (hstore : ∀ m b, (WordSink.store m b.base b.words).2 = .ok () ↔ accepts m b)
    (hkeep : ∀ m next (b : Block), WordSink.store m b.base b.words = (next, .ok ()) →
      ∀ c, accepts next c ↔ accepts m c) {blocks : List Block} {memory : μ} :
    (storeBlocks blocks memory).2 = .ok () ↔ ∀ b ∈ blocks, accepts memory b := by
  induction blocks generalizing memory with
  | nil => simp [storeBlocks]
  | cons b bs ih =>
      rw [List.forall_mem_cons, ← hstore, storeBlocks]
      rcases hfirst : WordSink.store memory b.base b.words with ⟨next, e | u⟩
      · simp
      · simp only [true_and, ih, hkeep memory next b hfirst]

variable {image : Image} {array : WordMemory} {bus : BusRam} {maxWords : Nat}

theorem storeIn_array_isOk_iff :
    (image.storeIn array).2 = .ok () ↔ ∀ b ∈ image.blocks, b.endWord ≤ array.size :=
  storeBlocks_isOk_iff (fun _ _ => WordMemory.store_isOk_iff) fun _ _ _ h _ => by
    rw [WordMemory.size_of_store h]

theorem storeIn_bus_isOk_iff :
    (image.storeIn bus).2 = .ok () ↔ ∀ b ∈ image.blocks,
      b.words.length ≠ 0 → b.base % 4 = 0 ∧ b.base + 4 * b.words.length ≤ bus.size :=
  storeBlocks_isOk_iff (fun _ _ => BusRam.store_isOk_iff) fun _ _ _ h _ => by
    rw [BusRam.size_of_store h]

theorem overflow?_eq_some_iff {b : Block} :
    image.overflow? maxWords = some b ↔ b.Exceeds maxWords ∧
      ∃ earlier later, image.blocks = earlier ++ b :: later ∧
        ∀ c ∈ earlier, ¬ c.Exceeds maxWords := by
  rw [overflow?, List.find?_eq_some_iff_append]
  simp only [decide_eq_true_eq, Bool.not_eq_true', decide_eq_false_iff_not, Block.Exceeds]

theorem checkCapacity_eq_ok_iff :
    image.checkCapacity maxWords = .ok () ↔ ∀ b ∈ image.blocks, ¬ b.Exceeds maxWords := by
  have hnone : image.overflow? maxWords = none ↔ ∀ b ∈ image.blocks, ¬ b.Exceeds maxWords := by
    simp only [overflow?, List.find?_eq_none, decide_eq_true_eq, Block.Exceeds]
  rw [← hnone, checkCapacity]
  cases image.overflow? maxWords <;> simp

theorem checkCapacity_eq_error_iff {e : Failure} :
    image.checkCapacity maxWords = .error e ↔ ∃ b, image.overflow? maxWords = some b ∧
      e = .capacityExceeded b.name b.endWord maxWords := by
  rw [checkCapacity]
  cases image.overflow? maxWords <;> simp [eq_comm]

/-- A capacity check stands for a bus when the blocks with words are aligned, and for an array when
the blocks without words start inside it. -/
theorem checkCapacity_iff_storeIn (hsize : bus.size = 4 * array.size) :
    ((image.storeIn bus).2 = .ok () ↔ image.checkCapacity array.size = .ok () ∧
      ∀ b ∈ image.blocks, b.words.length ≠ 0 → b.base % 4 = 0) ∧
    ((image.storeIn array).2 = .ok () → image.checkCapacity array.size = .ok ()) ∧
    ((∀ b ∈ image.blocks, b.words.length = 0 → b.wordAddress ≤ array.size) →
      ((image.storeIn array).2 = .ok () ↔ image.checkCapacity array.size = .ok ())) := by
  have hforward (h : (image.storeIn array).2 = .ok ()) :
      image.checkCapacity array.size = .ok () := by
    rw [checkCapacity_eq_ok_iff]
    intro b hb
    exact Block.not_exceeds_iff.2 fun _ => storeIn_array_isOk_iff.1 h b hb
  refine ⟨?_, hforward, fun hempty => ⟨hforward, fun h => ?_⟩⟩
  · rw [storeIn_bus_isOk_iff, checkCapacity_eq_ok_iff, hsize]
    simp only [Block.aligned_and_fits_iff]
    exact forall₂_and
  · rw [checkCapacity_eq_ok_iff] at h
    refine storeIn_array_isOk_iff.2 fun b hb => ?_
    by_cases hwords : b.words.length = 0
    · rw [Block.endWord, hwords]
      exact hempty b hb hwords
    · exact Block.not_exceeds_iff.1 (h b hb) hwords

theorem checkCapacity_iff_storeIn_full :
    let image : Image := ⟨[⟨".data", 4, .listed [7, 8]⟩, ⟨".empty", 12, .zeros 0⟩]⟩
    image.checkCapacity 3 = .ok () ∧ (image.storeIn (WordMemory.zeroed 3)).2 = .ok () ∧
      (image.storeIn (BusRam.zeroed 12)).2 = .ok () := by
  intro image
  have hsize : (BusRam.zeroed 12).size = 4 * (WordMemory.zeroed 3).size := by decide
  have hcheck : image.checkCapacity (WordMemory.zeroed 3).size = .ok () := by decide
  obtain ⟨hbus, -, harray⟩ := @checkCapacity_iff_storeIn image _ _ hsize
  exact ⟨hcheck, (harray (by decide)).2 hcheck, hbus.2 ⟨hcheck, by decide⟩⟩

theorem checkCapacity_ne_storeIn :
    let astride : Image := ⟨[⟨".text", 2, .listed [1]⟩]⟩
    let beyond : Image := ⟨[⟨".bss", 8, .zeros 0⟩]⟩
    (astride.checkCapacity 1 = .ok () ∧ (astride.storeIn (WordMemory.zeroed 1)).2 = .ok () ∧
      (astride.storeIn (BusRam.zeroed 4)).2 = .error (.misaligned 2)) ∧
    (beyond.checkCapacity 1 = .ok () ∧ (beyond.storeIn (BusRam.zeroed 4)).2 = .ok () ∧
      (beyond.storeIn (WordMemory.zeroed 1)).2 = .error (.indexOutOfRange 2 1)) := by
  decide

end Image

end Testbench
