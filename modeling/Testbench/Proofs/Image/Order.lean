import Mathlib.Data.List.Pairwise
import Testbench.Proofs.Image.Boundary
import Testbench.Proofs.Image.HexWriting
import Testbench.Proofs.Memory.Patch

namespace Testbench

def Block.Apart (b c : Block) : Prop :=
  ∀ index, ¬ (b.covers index = true ∧ c.covers index = true)

instance : Std.Symm Block.Apart :=
  ⟨fun _ _ h index hcovers => h index hcovers.symm⟩

def Image.Disjoint (image : Image) : Prop :=
  image.blocks.Pairwise Block.Apart

theorem Block.apart_iff {b c : Block} :
    b.Apart c ↔ b.words.length = 0 ∨ c.words.length = 0 ∨
      b.endWord ≤ c.wordAddress ∨ c.endWord ≤ b.wordAddress := by
  simp only [Apart, covers_iff, endWord]
  constructor
  · intro h
    have := h (max b.wordAddress c.wordAddress)
    omega
  · intro h index
    omega

instance (b c : Block) : Decidable (b.Apart c) :=
  decidable_of_iff _ Block.apart_iff.symm

instance (image : Image) : Decidable image.Disjoint :=
  inferInstanceAs (Decidable (image.blocks.Pairwise Block.Apart))

namespace WordMemory

variable {m : WordMemory} {b c : Block} {blocks others : List Block}

theorem place_comm (h : b.Apart c) (m : WordMemory) :
    (m.place b).place c = (m.place c).place b := by
  refine view.ext fun index => ?_
  change ((m.place b).place c).get? index = ((m.place c).place b).get? index
  simp only [get?_place_eq, size_place]
  by_cases hb : b.covers index = true ∧ index < m.size
  · have hc : ¬ (c.covers index = true ∧ index < m.size) := fun hc => h index ⟨hb.1, hc.1⟩
    rw [if_neg hc, if_pos hb, if_pos hb]
  · rw [if_neg hb, if_neg hb]

theorem placeAll_of_perm (hapart : blocks.Pairwise Block.Apart) (hperm : others.Perm blocks) :
    m.placeAll others = m.placeAll blocks := by
  refine (List.Perm.foldl_eq' hperm.symm (fun b hb c hc memory => ?_) m).symm
  by_cases heq : b = c
  · rw [heq]
  · exact place_comm (hapart.forall hb hc heq) memory

theorem place_of_empty (h : b.words.length = 0) (m : WordMemory) : m.place b = m := by
  rw [place, Words.toList_eq_nil_iff.2 h]
  rfl

theorem storeAll_cons (m : WordMemory) (store : Nat × UInt32) (stores : List (Nat × UInt32)) :
    m.storeAll (store :: stores) =
      (m.set store.1 store.2).toOption.bind fun next => next.storeAll stores := by
  rw [storeAll, List.foldlM_cons]
  rfl

theorem storeAll_eq_none {stores : List (Nat × UInt32)} (h : ∃ store ∈ stores, m.size ≤ store.1) :
    m.storeAll stores = none := by
  induction stores generalizing m with
  | nil => simp at h
  | cons store stores ih =>
      rw [storeAll_cons, set]
      split
      · next hindex =>
          rw [List.exists_mem_cons_iff] at h
          refine ih ?_
          simpa only [size, Array.size_set] using h.resolve_left (Nat.not_le.2 hindex)
      · rfl

theorem storeAll_of_not_exceeds (h : ¬ b.Exceeds m.size) :
    m.storeAll b.stores = some (m.place b) := by
  by_cases hwords : b.words.length = 0
  · rw [Block.stores_eq_nil hwords, place_of_empty hwords]
    rfl
  · have hfits : b.endWord ≤ m.size := Block.not_exceeds_iff.1 h hwords
    refine storeAll_run ?_
    rwa [Words.length_toList]

theorem storeAll_stores_of_fits (h : ∀ b ∈ blocks, ¬ b.Exceeds m.size) :
    m.storeAll (blocks.flatMap Block.stores) = some (m.placeAll blocks) := by
  induction blocks generalizing m with
  | nil => rfl
  | cons b bs ih =>
      obtain ⟨hb, hbs⟩ := List.forall_mem_cons.1 h
      rw [List.flatMap_cons, storeAll_append, storeAll_of_not_exceeds hb, Option.bind_some,
        ih (by simpa using hbs)]
      rfl

end WordMemory

namespace Image

section Run

variable {μ V : Type} [WordSink μ] {v : MemoryView μ V}

theorem patches_storeBlocks (hstore : ∀ base ws, v.Patches (WordSink.store · base ws))
    (blocks : List Block) : v.Patches (storeBlocks blocks) := by
  induction blocks with
  | nil => exact .done
  | cons b bs ih =>
      have hsteps : storeBlocks (b :: bs) =
          MemoryView.andThen (fun memory : μ => WordSink.store memory b.base b.words)
            (storeBlocks bs) := rfl
      rw [hsteps]
      exact (hstore b.base b.words).andThen ih

end Run

variable {image other : Image}

theorem storeIn_of_fits {m : WordMemory} (h : (image.storeIn m).2 = .ok ()) :
    image.storeIn m = (m.placeAll image.blocks, .ok ()) := by
  have hblocks : storeBlocks (image.blocks ++ []) m = storeBlocks [] (m.placeAll image.blocks) :=
    storeBlocks_append (storeIn_array_isOk_iff.1 h)
  rwa [List.append_nil] at hblocks

theorem replay_hexText_eq (image : Image) (m : WordMemory) :
    m.replay image.hexText =
      if image.checkCapacity m.size = .ok () then some (m.placeAll image.blocks) else none := by
  rw [WordMemory.replay, stores?_hexText, Option.bind_some]
  split
  · next hfits => exact WordMemory.storeAll_stores_of_fits (checkCapacity_eq_ok_iff.1 hfits)
  · next hexceeds =>
      rw [← forall_stores_lt_iff] at hexceeds
      refine WordMemory.storeAll_eq_none ?_
      simpa using hexceeds

theorem checkCapacity_of_perm (hperm : other.blocks.Perm image.blocks) {maxWords : Nat} :
    other.checkCapacity maxWords = .ok () ↔ image.checkCapacity maxWords = .ok () := by
  rw [checkCapacity_eq_ok_iff, checkCapacity_eq_ok_iff]
  simp only [hperm.mem_iff]

/-- Blocks that keep apart leave the same in any order, and any image that is stored again leaves
what it has left before. -/
theorem storeIn_order_and_repetition (image : Image) :
    (image.Disjoint → ∀ other : Image, other.blocks.Perm image.blocks →
      (∀ m : WordMemory, ((other.storeIn m).2 = .ok () ↔ (image.storeIn m).2 = .ok ()) ∧
        ((image.storeIn m).2 = .ok () → (other.storeIn m).1 = (image.storeIn m).1)) ∧
      ∀ size, (WordMemory.zeroed size).replay other.hexText =
          (WordMemory.zeroed size).replay image.hexText ∧
        ((image.storeIn (WordMemory.zeroed size)).2 = .ok () →
          (WordMemory.zeroed size).replay image.hexText =
            some (image.storeIn (WordMemory.zeroed size)).1)) ∧
    (∀ m : WordMemory, image.storeIn (image.storeIn m).1 = image.storeIn m) ∧
    ∀ ram : BusRam, image.storeIn (image.storeIn ram).1 = image.storeIn ram := by
  refine ⟨fun hdisjoint other hperm => ⟨fun m => ?_, fun size => ⟨?_, fun h => ?_⟩⟩, fun m => ?_,
    fun ram => ?_⟩
  · have haccept : (other.storeIn m).2 = .ok () ↔ (image.storeIn m).2 = .ok () := by
      rw [storeIn_array_isOk_iff, storeIn_array_isOk_iff]
      simp only [hperm.mem_iff]
    refine ⟨haccept, fun h => ?_⟩
    rw [storeIn_of_fits h, storeIn_of_fits (haccept.2 h)]
    exact WordMemory.placeAll_of_perm hdisjoint hperm
  · rw [replay_hexText_eq, replay_hexText_eq, WordMemory.placeAll_of_perm hdisjoint hperm]
    simp only [checkCapacity_of_perm hperm]
  · rw [storeIn_of_fits h, replay_hexText_eq, if_pos]
    rw [checkCapacity_eq_ok_iff]
    exact fun b hb => Block.not_exceeds_iff.2 fun _ => storeIn_array_isOk_iff.1 h b hb
  · exact (patches_storeBlocks WordMemory.patches_store image.blocks).again m
  · exact (patches_storeBlocks BusRam.patches_store image.blocks).again ram

theorem storeIn_order_and_repetition_reversed :
    let image : Image := ⟨[⟨".text", 8, .listed [1, 2]⟩, ⟨".bss", 4, .zeros 1⟩,
      ⟨".data", 0, .listed [7]⟩]⟩
    let other : Image := ⟨image.blocks.reverse⟩
    let m : WordMemory := ⟨#[9, 9, 9, 9, 9]⟩
    let last : WordMemory := ⟨#[7, 0, 1, 2, 9]⟩
    other.storeIn m = (last, .ok ()) ∧ image.storeIn last = (last, .ok ()) ∧
      (WordMemory.zeroed 4).replay other.hexText = some ⟨#[7, 0, 1, 2]⟩ := by
  intro image other m last
  have hdisjoint : image.Disjoint := by decide
  have hperm : other.blocks.Perm image.blocks := List.reverse_perm _
  have hstore : image.storeIn m = (last, .ok ()) := by decide +kernel
  have hzeroed : image.storeIn (WordMemory.zeroed 4) = (⟨#[7, 0, 1, 2]⟩, .ok ()) := by
    decide +kernel
  obtain ⟨hperms, hagain, -⟩ := storeIn_order_and_repetition image
  obtain ⟨horder, hreplay⟩ := hperms hdisjoint other hperm
  obtain ⟨haccept, hsame⟩ := horder m
  obtain ⟨htexts, hdirect⟩ := hreplay 4
  refine ⟨Prod.ext ?_ (haccept.2 (by rw [hstore])), ?_, ?_⟩
  · rw [hsame (by rw [hstore]), hstore]
  · have htwice := hagain m
    rwa [hstore] at htwice
  · rw [htexts, hdirect (by rw [hzeroed]), hzeroed]

end Image

end Testbench
