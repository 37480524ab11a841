import Testbench.Proofs.Image.Load
import Testbench.Proofs.Memory.Mirror

namespace Testbench

namespace Image

structure RefusedAt {μ : Type} [WordSink μ] (image : Image) (memory : μ) (k : Nat) (b : Block)
    (stored last : μ) (e : MemoryError) : Prop where
  block_eq : image.blocks[k]? = some b
  earlier : storeBlocks (image.blocks.take k) memory = (stored, .ok ())
  refused : WordSink.store stored b.base b.words = (last, .error e)

section Run

variable {μ : Type} [WordSink μ] {b : Block} {bs : List Block} {memory next stored last : μ}
  {e : MemoryError} {k : Nat}

theorem RefusedAt.head (h : WordSink.store memory b.base b.words = (last, .error e)) :
    RefusedAt ⟨b :: bs⟩ memory 0 b memory last e :=
  ⟨rfl, rfl, h⟩

theorem RefusedAt.tail (hfirst : WordSink.store memory b.base b.words = (next, .ok ())) {c : Block}
    (h : RefusedAt ⟨bs⟩ next k c stored last e) :
    RefusedAt ⟨b :: bs⟩ memory (k + 1) c stored last e := by
  refine ⟨h.block_eq, ?_, h.refused⟩
  rw [List.take_succ_cons]
  exact storeBlocks_cons_eq_ok_iff.2 ⟨next, hfirst, h.earlier⟩

theorem RefusedAt.storeBlocks_eq (h : RefusedAt ⟨bs⟩ memory k b stored last e) :
    storeBlocks bs memory = (last, .error e) := by
  induction k generalizing bs memory with
  | zero =>
      cases bs with
      | nil => cases h.block_eq
      | cons c cs =>
          obtain rfl := Option.some.inj h.block_eq
          cases h.earlier
          rw [storeBlocks, h.refused]
  | succ k ih =>
      cases bs with
      | nil => cases h.block_eq
      | cons c cs =>
          obtain ⟨next, hfirst, hrest⟩ := storeBlocks_cons_eq_ok_iff.1 h.earlier
          rw [storeBlocks, hfirst]
          exact ih ⟨h.block_eq, hrest, h.refused⟩

end Run

/-- How an array and a bus differ once the same block has been refused: the array holds what the
blocks before it left, the bus holds its words from its first word on. -/
structure Diverge (n : Nat) (b : Block) (array : WordMemory) (bus : BusRam) : Prop where
  array_size : array.size = n
  bus_size : bus.size = 4 * n
  before : ∀ i < b.wordAddress, ∀ w, array.get? i = some w → bus.read (4 * i) = .ok w
  within : ∀ i < n, b.wordAddress ≤ i →
    ∃ w, b.words.toList[i - b.wordAddress]? = some w ∧ bus.read (4 * i) = .ok w

theorem diverge_of_mirrors {array : WordMemory} {bus : BusRam} {b : Block}
    (h : (WordMemory.mk (overwrite array.words b.wordAddress b.words.toList)).Mirrors bus)
    (hbeyond : array.size < b.endWord) : Diverge array.size b array bus := by
  have hlength := Words.length_toList b.words
  have hsize := h.size_eq
  simp only [WordMemory.size, size_overwrite] at hsize
  simp only [Block.endWord, WordMemory.size] at hbeyond
  refine ⟨rfl, hsize, ?_, ?_⟩
  · intro i hi w hw
    refine h.read_eq i w ?_
    rw [WordMemory.get?, getElem?_overwrite, if_neg (by omega)]
    exact hw
  · intro i hi hle
    have hbound : i - b.wordAddress < b.words.toList.length := by
      simp only [WordMemory.size] at hi
      omega
    refine ⟨b.words.toList[i - b.wordAddress], List.getElem?_eq_getElem hbound, ?_⟩
    refine h.read_eq i _ ?_
    rw [WordMemory.get?, getElem?_overwrite, if_pos ⟨hle, by omega, hi⟩]
    exact List.getElem?_eq_getElem hbound

theorem storeBlocks_mirrors {bs : List Block} {array : WordMemory} {bus : BusRam}
    (h : array.Mirrors bus) (hbs : ∀ b ∈ bs, b.words.length ≠ 0 ∧ b.base % 4 = 0) :
    (∃ array' bus', storeBlocks bs array = (array', .ok ()) ∧ storeBlocks bs bus = (bus', .ok ()) ∧
      array'.size = array.size ∧ array'.Mirrors bus') ∨
    ∃ k b array' stored bus' index,
      RefusedAt ⟨bs⟩ array k b array' array' (.indexOutOfRange index array.size) ∧
      RefusedAt ⟨bs⟩ bus k b stored bus' (.addressOutOfRange (4 * index) (4 * array.size)) ∧
      Diverge array.size b array' bus' := by
  induction bs generalizing array bus with
  | nil => exact .inl ⟨array, bus, rfl, rfl, rfl, h⟩
  | cons b bs ih =>
      obtain ⟨hlength, hbase⟩ := hbs b List.mem_cons_self
      obtain ⟨bus', hbus', hstore⟩ := h.store hbase hlength
      by_cases hfits : b.base / 4 + b.words.length ≤ array.size
      · rw [if_pos hfits] at hstore
        have harray := WordMemory.store_eq_ok_iff.2 ⟨hfits, rfl⟩
        have hsize : (WordMemory.mk (overwrite array.words (b.base / 4) b.words.toList)).size =
            array.size := size_overwrite ..
        rcases ih hbus' fun c hc => hbs c (List.mem_cons_of_mem _ hc) with hall | hrefused
        · obtain ⟨array', last, hstored, hlast, hsame, hmirrors⟩ := hall
          exact .inl ⟨array', last, storeBlocks_cons_eq_ok_iff.2 ⟨_, harray, hstored⟩,
            storeBlocks_cons_eq_ok_iff.2 ⟨_, hstore, hlast⟩, hsame.trans hsize, hmirrors⟩
        · obtain ⟨k, c, array', stored, last, index, hleft, hright, hdiverge⟩ := hrefused
          rw [hsize] at hleft hright hdiverge
          exact .inr ⟨k + 1, c, array', stored, last, index, hleft.tail harray, hright.tail hstore,
            hdiverge⟩
      · rw [if_neg hfits] at hstore
        have harray : array.store b.base b.words =
            (array, .error (.indexOutOfRange (max (b.base / 4) array.size) array.size)) :=
          if_neg hfits
        exact .inr ⟨0, b, array, bus, bus', _, .head harray, .head hstore,
          diverge_of_mirrors hbus' (Nat.lt_of_not_le hfits)⟩

/-- An array and a bus with the same words take an image alike. Where they refuse it they refuse the
same block at the same word, and only the words that this block would have covered differ. -/
theorem storeIn_simulates {image : Image} {array : WordMemory} {bus : BusRam}
    (h : array.Mirrors bus)
    (hblocks : ∀ b ∈ image.blocks, b.words.length ≠ 0 ∧ b.base % 4 = 0) :
    ((image.storeIn array).2 = .ok () ↔ (image.storeIn bus).2 = .ok ()) ∧
    ((image.storeIn array).2 = .ok () →
      (image.storeIn array).1.size = array.size ∧
        (image.storeIn array).1.Mirrors (image.storeIn bus).1) ∧
    ((image.storeIn array).2 ≠ .ok () → ∃ k b array' stored bus' index,
      image.storeIn array = (array', .error (.indexOutOfRange index array.size)) ∧
      image.storeIn bus = (bus', .error (.addressOutOfRange (4 * index) (4 * array.size))) ∧
      image.RefusedAt array k b array' array' (.indexOutOfRange index array.size) ∧
      image.RefusedAt bus k b stored bus' (.addressOutOfRange (4 * index) (4 * array.size)) ∧
      Diverge array.size b array' bus') := by
  rcases storeBlocks_mirrors h hblocks with hall | hrefused
  · obtain ⟨array', bus', harray, hbus, hsize, hmirrors⟩ := hall
    rw [storeIn, storeIn, harray, hbus]
    exact ⟨Iff.rfl, fun _ => ⟨hsize, hmirrors⟩, fun hne => absurd rfl hne⟩
  · obtain ⟨k, b, array', stored, bus', index, hleft, hright, hdiverge⟩ := hrefused
    have harray : image.storeIn array = _ := hleft.storeBlocks_eq
    have hbus : image.storeIn bus = _ := hright.storeBlocks_eq
    refine ⟨?_, ?_, ?_⟩
    · simp [harray, hbus]
    · simp [harray]
    · intro _
      exact ⟨k, b, array', stored, bus', index, harray, hbus, hleft, hright, hdiverge⟩

theorem storeIn_simulates_beyond :
    let image : Image := ⟨[⟨".text", 4, .listed [1, 2]⟩, ⟨".bss", 8, .zeros 3⟩]⟩
    let array : WordMemory := ⟨#[9, 9, 9]⟩
    let bus : BusRam := ⟨#[9, 0, 0, 0, 9, 0, 0, 0, 9, 0, 0, 0]⟩
    image.storeIn array = (⟨#[9, 1, 2]⟩, .error (.indexOutOfRange 3 3)) ∧
      ∃ k b array' stored bus' index,
        image.storeIn array = (array', .error (.indexOutOfRange index 3)) ∧
        image.storeIn bus = (bus', .error (.addressOutOfRange (4 * index) 12)) ∧
        image.RefusedAt array k b array' array' (.indexOutOfRange index 3) ∧
        image.RefusedAt bus k b stored bus' (.addressOutOfRange (4 * index) 12) ∧
        Diverge 3 b array' bus' := by
  intro image array bus
  have hmirrors : array.Mirrors bus := by
    refine ⟨rfl, fun i w hw => ?_⟩
    have hi : i < 3 := (Array.getElem?_eq_some_iff.1 hw).1
    have hcases : i = 0 ∨ i = 1 ∨ i = 2 := by omega
    rcases hcases with rfl | rfl | rfl
    all_goals
      obtain rfl : 9 = w := Option.some.inj hw
      decide +kernel
  have harray : image.storeIn array = (⟨#[9, 1, 2]⟩, .error (.indexOutOfRange 3 3)) := by
    decide +kernel
  have hsimulates := @storeIn_simulates image array bus hmirrors (by decide)
  exact ⟨harray, hsimulates.2.2 (by simp [harray])⟩

end Image

end Testbench
