import Testbench.Image.HexFile
import Testbench.Memory.WordMemory
import Testbench.Proofs.Image.Load
import Testbench.Proofs.Memory.ByteView

namespace Testbench

namespace HexText

def word? (line : List Char) : Option UInt32 :=
  ((Numeral.natural? 16 line).filter (· < UInt32.size)).map UInt32.ofNat

def storesFrom (position : Nat) : List (List Char) → Option (List (Nat × UInt32))
  | [] => some []
  | [] :: lines => storesFrom position lines
  | ('@' :: digits) :: lines =>
      (Numeral.natural? 16 digits).bind fun address => storesFrom address lines
  | line :: lines =>
      (word? line).bind fun w => (storesFrom (position + 1) lines).map ((position, w) :: ·)

def stores? (text : List Char) : Option (List (Nat × UInt32)) :=
  storesFrom 0 (text.splitOn '\n')

theorem storesFrom_marker (position address : Nat) (lines : List (List Char)) :
    storesFrom position ((HexLine.marker address).text :: lines) = storesFrom address lines := by
  rw [HexLine.text, storesFrom, Numeral.natural?_hex, Option.bind_some]

theorem word?_text (w : UInt32) : word? (HexLine.word w).text = some w := by
  rw [word?, HexLine.text, Numeral.natural?_hexPadded]
  simp [w.toNat_lt_size]

theorem storesFrom_word (position : Nat) (w : UInt32) (lines : List (List Char)) :
    storesFrom position ((HexLine.word w).text :: lines) =
      (storesFrom (position + 1) lines).map ((position, w) :: ·) := by
  have hword := word?_text w
  have hvalue := Numeral.value?_hexPadded 8 w.toNat
  have hne := Numeral.hexPadded_ne_nil 8 w.toNat
  simp only [HexLine.text] at hword ⊢
  rw [storesFrom, hword, Option.bind_some]
  · exact hne
  · intro digits h
    have hdigit := Numeral.digitValue?_of_mem hvalue (h ▸ List.mem_cons_self : '@' ∈ _)
    revert hdigit
    decide

theorem storesFrom_words (position : Nat) (ws : List UInt32) (lines : List (List Char)) :
    storesFrom position (ws.map (fun w => (HexLine.word w).text) ++ lines) =
      (storesFrom (position + ws.length) lines).map ((ws.zipIdx position).map Prod.swap ++ ·) := by
  induction ws generalizing position with
  | nil => simp
  | cons w ws ih =>
      rw [List.map_cons, List.cons_append, storesFrom_word, ih]
      simp [Nat.add_assoc, Nat.add_comm 1, Function.comp_def]

end HexText

def Block.stores (b : Block) : List (Nat × UInt32) :=
  (b.words.toList.zipIdx b.wordAddress).map Prod.swap

theorem Block.stores_eq_nil {b : Block} (h : b.words.length = 0) : b.stores = [] := by
  rw [stores, Words.toList_eq_nil_iff.2 h]
  rfl

def Image.stores (image : Image) : List (Nat × UInt32) :=
  image.blocks.flatMap Block.stores

namespace Image

theorem storesFrom_hexLinesFrom (cursor : Nat) (blocks : List Block) :
    HexText.storesFrom cursor ((hexLinesFrom cursor blocks).map HexLine.text ++ [[]]) =
      some (blocks.flatMap Block.stores) := by
  induction blocks generalizing cursor with
  | nil => rfl
  | cons b bs ih =>
      rw [hexLinesFrom, List.flatMap_cons]
      split
      · next hempty => rw [Block.stores_eq_nil hempty, List.nil_append, ih]
      · have hwords (rest : List HexLine) :
            HexText.storesFrom b.wordAddress
                ((b.words.toList.map HexLine.word ++ rest).map HexLine.text ++ [[]]) =
              (HexText.storesFrom b.endWord (rest.map HexLine.text ++ [[]])).map
                (b.stores ++ ·) := by
          rw [List.map_append, List.map_map, List.append_assoc]
          exact (HexText.storesFrom_words ..).trans (by rw [Words.length_toList]; rfl)
        split
        · next hcursor => rw [List.nil_append, ← hcursor, hwords, ih, Option.map_some]
        · rw [List.append_assoc, List.singleton_append, List.map_cons, List.cons_append]
          rw [HexText.storesFrom_marker, hwords, ih, Option.map_some]

theorem newline_not_mem_text (line : HexLine) : '\n' ∉ line.text := by
  have hdigits {n : Nat} {s : List Char} (h : Numeral.value? 16 0 s = some n) : '\n' ∉ s :=
    fun hmem => absurd (Numeral.digitValue?_of_mem h hmem) (by decide)
  cases line with
  | marker address =>
      rw [HexLine.text, List.mem_cons]
      rintro (h | h)
      · cases h
      · exact hdigits (Numeral.value?_hex address) h
  | word w => exact hdigits (Numeral.value?_hexPadded 8 w.toNat)

theorem splitOn_lines (lines : List HexLine) :
    (lines.flatMap fun line => line.text ++ ['\n']).splitOn '\n' =
      lines.map HexLine.text ++ [[]] := by
  induction lines with
  | nil => rfl
  | cons line lines ih =>
      rw [List.flatMap_cons, List.append_assoc, List.singleton_append]
      rw [List.splitOn_append_cons_self_of_not_mem (newline_not_mem_text line), ih]
      rfl

theorem stores?_hexText (image : Image) : HexText.stores? image.hexText = some image.stores := by
  rw [HexText.stores?, hexText, splitOn_lines]
  exact storesFrom_hexLinesFrom 0 image.blocks

end Image

namespace WordMemory

def storeAll (m : WordMemory) (stores : List (Nat × UInt32)) : Option WordMemory :=
  stores.foldlM (fun m (index, w) => (m.set index w).toOption) m

theorem storeAll_append (m : WordMemory) (first second : List (Nat × UInt32)) :
    m.storeAll (first ++ second) = (m.storeAll first).bind fun m => m.storeAll second := by
  rw [storeAll, List.foldlM_append]
  rfl

theorem storeAll_run {m : WordMemory} {start : Nat} {ws : List UInt32}
    (h : start + ws.length ≤ m.size) :
    m.storeAll ((ws.zipIdx start).map Prod.swap) = some ⟨overwrite m.words start ws⟩ := by
  induction ws generalizing m start with
  | nil => rfl
  | cons w ws ih =>
      rw [List.length_cons] at h
      have hindex : start < m.words.size := by
        rw [size] at h
        omega
      have hset : m.set start w = .ok ⟨m.words.setIfInBounds start w⟩ := by
        simp [set, Array.setIfInBounds, hindex]
      have hrest :
          start + 1 + ws.length ≤ (WordMemory.mk (m.words.setIfInBounds start w)).size := by
        simp only [size, Array.size_setIfInBounds] at h ⊢
        omega
      rw [List.zipIdx_cons, List.map_cons, storeAll, List.foldlM_cons]
      simp only [Prod.swap_prod_mk, hset, Except.toOption, Option.bind_eq_bind, Option.bind_some]
      exact ih hrest

theorem storeAll_stores {blocks : List Block} {m last : WordMemory}
    (h : Image.storeBlocks blocks m = (last, .ok ())) :
    m.storeAll (blocks.flatMap Block.stores) = some last := by
  induction blocks generalizing m with
  | nil =>
      cases h
      rfl
  | cons b bs ih =>
      obtain ⟨next, hfirst, hrest⟩ := Image.storeBlocks_cons_eq_ok_iff.1 h
      obtain ⟨hfits, rfl⟩ := store_eq_ok_iff.1 hfirst
      have hrun : m.storeAll b.stores = some ⟨overwrite m.words (b.base / 4) b.words.toList⟩ :=
        storeAll_run (by simpa [Block.wordAddress] using hfits)
      rw [List.flatMap_cons, storeAll_append, hrun, Option.bind_some, ih hrest]

def replay (m : WordMemory) (text : List Char) : Option WordMemory :=
  (HexText.stores? text).bind m.storeAll

end WordMemory

namespace Image

/-- Read back, the text of an image stores the words of its blocks in order, and so leaves what a
direct load leaves. -/
theorem replay_hexText (image : Image) :
    HexText.stores? image.hexText = some image.stores ∧
      ∀ size last, image.storeIn (WordMemory.zeroed size) = (last, .ok ()) →
        (WordMemory.zeroed size).replay image.hexText = some last := by
  refine ⟨stores?_hexText image, fun size last h => ?_⟩
  rw [WordMemory.replay, stores?_hexText, Option.bind_some]
  exact WordMemory.storeAll_stores h

def tangled : Image :=
  ⟨[⟨".text", 8, .listed [1, 2]⟩, ⟨".empty", 4, .zeros 0⟩, ⟨".bss", 12, .zeros 1⟩,
    ⟨".data", 0, .listed [0xDEADBEEF]⟩]⟩

example : tangled.hexText = "@2\n00000001\n00000002\n@3\n00000000\n@0\ndeadbeef\n".toList := by
  decide +kernel

theorem replay_hexText_tangled :
    tangled.storeIn (WordMemory.zeroed 4) = (⟨#[0xDEADBEEF, 0, 1, 0]⟩, .ok ()) ∧
      (WordMemory.zeroed 4).replay tangled.hexText = some ⟨#[0xDEADBEEF, 0, 1, 0]⟩ := by
  have h : tangled.storeIn (WordMemory.zeroed 4) = (⟨#[0xDEADBEEF, 0, 1, 0]⟩, .ok ()) := by
    decide +kernel
  exact ⟨h, (replay_hexText tangled).2 4 _ h⟩

end Image

end Testbench
