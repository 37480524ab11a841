import Mathlib.Data.List.Chain
import Testbench.Proofs.Image.HexReading

namespace Testbench

def HexLine.marked : Nat → List (Nat × UInt32) → List HexLine
  | _, [] => []
  | position, (address, w) :: stores =>
      (if address = position then [] else [.marker address]) ++
        .word w :: marked (address + 1) stores

namespace HexText

def lines (text : List Char) : List (List Char) :=
  (text.splitOn '\n').dropLast

def isMarker (line : List Char) : Bool :=
  line.head? = some '@'

def following (position : Nat) (before : List (Nat × UInt32)) : Nat :=
  (before.getLast?.map fun store => store.1 + 1).getD position

structure MarksJumps (lines : List (List Char)) (stores : List (Nat × UInt32)) : Prop where
  words : lines.filter (!isMarker ·) = stores.map fun store => Numeral.hexPadded 8 store.2.toNat
  marked : ∀ before address w after, stores = before ++ (address, w) :: after →
    ∃ earlier later, lines = earlier ++ Numeral.hexPadded 8 w.toNat :: later ∧
      (earlier.filter (!isMarker ·)).length = before.length ∧
      ((∃ m ∈ earlier.getLast?, isMarker m = true) ↔ address ≠ following 0 before) ∧
      ∀ m ∈ earlier.getLast?, isMarker m = true → m = '@' :: Numeral.hex address
  followed : lines.IsChain fun line next => isMarker line = true → isMarker next = false
  ended : ∀ line ∈ lines.getLast?, isMarker line = false

variable {position address : Nat} {w : UInt32} {stores : List (Nat × UInt32)}

theorem following_cons (position address : Nat) (w : UInt32) (before : List (Nat × UInt32)) :
    following position ((address, w) :: before) = following (address + 1) before := by
  rw [following, following, List.getLast?_cons]
  cases before.getLast? <;> rfl

theorem isMarker_marker (address : Nat) : isMarker (HexLine.marker address).text = true :=
  rfl

theorem isMarker_word (w : UInt32) : isMarker (HexLine.word w).text = false := by
  rw [isMarker, decide_eq_false_iff_not, HexLine.text]
  intro h
  have hmem : '@' ∈ Numeral.hexPadded 8 w.toNat := List.mem_of_mem_head? h
  have hdigit := Numeral.digitValue?_of_mem (Numeral.value?_hexPadded 8 w.toNat) hmem
  revert hdigit
  decide

theorem marked_of_head {store : Nat × UInt32} (h : stores.head? = some store) (position : Nat) :
    HexLine.marked position stores =
      (if store.1 = position then [] else [.marker store.1]) ++ HexLine.marked store.1 stores := by
  cases stores with
  | nil => cases h
  | cons first stores =>
      obtain rfl := Option.some.inj h
      simp [HexLine.marked]

theorem marked_run (position : Nat) (ws : List UInt32) (stores : List (Nat × UInt32)) :
    HexLine.marked position ((ws.zipIdx position).map Prod.swap ++ stores) =
      ws.map .word ++ HexLine.marked (position + ws.length) stores := by
  induction ws generalizing position with
  | nil => rfl
  | cons w ws ih =>
      simp [HexLine.marked, ih, Nat.add_assoc, Nat.add_comm 1]

theorem marked_append (position : Nat) (before after : List (Nat × UInt32)) :
    HexLine.marked position (before ++ after) =
      HexLine.marked position before ++ HexLine.marked (following position before) after := by
  induction before generalizing position with
  | nil => rfl
  | cons store before ih =>
      obtain ⟨address, w⟩ := store
      rw [following_cons, List.cons_append, HexLine.marked, HexLine.marked, ih, List.append_assoc,
        List.cons_append]

theorem isMarker_getLast?_marked {line : List Char}
    (h : line ∈ ((HexLine.marked position stores).map HexLine.text).getLast?) :
    isMarker line = false := by
  induction stores generalizing position with
  | nil => cases h
  | cons store stores ih =>
      rw [HexLine.marked, List.map_append, List.map_cons, List.getLast?_append, List.getLast?_cons,
        Option.some_or] at h
      cases hlast : ((HexLine.marked (store.1 + 1) stores).map HexLine.text).getLast? with
      | none =>
          rw [hlast] at h
          cases h
          exact isMarker_word store.2
      | some last =>
          rw [hlast] at h
          cases h
          exact ih hlast

theorem words_marked (position : Nat) (stores : List (Nat × UInt32)) :
    ((HexLine.marked position stores).map HexLine.text).filter (!isMarker ·) =
      stores.map fun store => Numeral.hexPadded 8 store.2.toNat := by
  induction stores generalizing position with
  | nil => rfl
  | cons store stores ih =>
      have hword := isMarker_word store.2
      rw [HexLine.marked, List.map_append, List.map_cons, List.filter_append, List.filter_cons,
        hword, ih]
      split <;> rfl

theorem isChain_marked (position : Nat) (stores : List (Nat × UInt32)) :
    ((HexLine.marked position stores).map HexLine.text).IsChain
      fun line next => isMarker line = true → isMarker next = false := by
  induction stores generalizing position with
  | nil => exact .nil
  | cons store stores ih =>
      have hword := isMarker_word store.2
      have hrest : (((HexLine.word store.2) :: HexLine.marked (store.1 + 1) stores).map
          HexLine.text).IsChain fun line next => isMarker line = true → isMarker next = false := by
        rw [List.map_cons, List.isChain_cons]
        exact ⟨fun _ _ hmarker => absurd hmarker (by simp [hword]), ih _⟩
      rw [HexLine.marked]
      split
      · exact hrest
      · exact List.IsChain.cons_cons (fun _ => hword) hrest

theorem exists_split_marked {before after : List (Nat × UInt32)}
    (h : stores = before ++ (address, w) :: after) :
    ∃ earlier later, (HexLine.marked 0 stores).map HexLine.text =
        earlier ++ Numeral.hexPadded 8 w.toNat :: later ∧
      (earlier.filter (!isMarker ·)).length = before.length ∧
      ((∃ m ∈ earlier.getLast?, isMarker m = true) ↔ address ≠ following 0 before) ∧
      ∀ m ∈ earlier.getLast?, isMarker m = true → m = '@' :: Numeral.hex address := by
  have hwords := congrArg List.length (words_marked 0 before)
  rw [List.length_map] at hwords
  subst h
  rw [marked_append, HexLine.marked, List.map_append, List.map_append, List.map_cons,
    ← List.append_assoc]
  refine ⟨_, _, rfl, ?_⟩
  -- the lines of `before` end with a word, so that a marker here is the one of this word
  by_cases haddress : address = following 0 before
  · rw [if_pos haddress, List.map_nil, List.append_nil]
    refine ⟨hwords, iff_of_false ?_ (not_not.2 haddress), fun m hm hmarker => ?_⟩
    · rintro ⟨m, hm, hmarker⟩
      rw [isMarker_getLast?_marked hm] at hmarker
      cases hmarker
    · rw [isMarker_getLast?_marked hm] at hmarker
      cases hmarker
  · have hmarker := isMarker_marker address
    rw [if_neg haddress, List.map_singleton, List.getLast?_concat]
    refine ⟨?_, iff_of_true ⟨_, rfl, hmarker⟩ haddress, ?_⟩
    · rw [List.filter_append, List.length_append, hwords, List.filter_cons, hmarker]
      rfl
    · rintro _ ⟨⟩ -
      rfl

theorem marksJumps_marked (stores : List (Nat × UInt32)) :
    MarksJumps ((HexLine.marked 0 stores).map HexLine.text) stores where
  words := words_marked 0 stores
  marked _ _ _ _ h := exists_split_marked h
  followed := isChain_marked 0 stores
  ended _ h := isMarker_getLast?_marked h

end HexText

namespace Image

theorem hexLinesFrom_eq_marked (cursor : Nat) (blocks : List Block) :
    hexLinesFrom cursor blocks = HexLine.marked cursor (blocks.flatMap Block.stores) := by
  induction blocks generalizing cursor with
  | nil => rfl
  | cons b bs ih =>
      rw [hexLinesFrom, List.flatMap_cons]
      split
      · next hempty => rw [Block.stores_eq_nil hempty, List.nil_append, ih]
      · next hwords =>
          have hrun : HexLine.marked b.wordAddress (b.stores ++ bs.flatMap Block.stores) =
              b.words.toList.map .word ++ HexLine.marked b.endWord (bs.flatMap Block.stores) := by
            rw [Block.stores, HexText.marked_run, Words.length_toList, Block.endWord]
          have hne : b.words.toList ≠ [] := fun hnil => hwords (Words.toList_eq_nil_iff.1 hnil)
          obtain ⟨w, ws, hcons⟩ := List.exists_cons_of_ne_nil hne
          have hhead : (b.stores ++ bs.flatMap Block.stores).head? = some (b.wordAddress, w) := by
            rw [Block.stores, hcons]
            rfl
          rw [HexText.marked_of_head hhead, hrun, ih, List.append_assoc]

theorem hexText_eq_marked (image : Image) :
    image.hexText = (HexLine.marked 0 image.stores).flatMap fun line => line.text ++ ['\n'] := by
  rw [hexText, hexLines, hexLinesFrom_eq_marked]
  rfl

theorem lines_hexText (image : Image) :
    HexText.lines image.hexText = (HexLine.marked 0 image.stores).map HexLine.text := by
  rw [HexText.lines, hexText_eq_marked, splitOn_lines, List.dropLast_concat]

theorem length_stores (image : Image) : image.stores.length = image.wordCount := by
  rw [stores, wordCount]
  induction image.blocks with
  | nil => rfl
  | cons b bs ih =>
      rw [List.flatMap_cons, List.length_append, ih, List.foldr_cons, Block.stores,
        List.length_map, List.length_zipIdx, Words.length_toList]

theorem stores_filter (image : Image) :
    (Image.mk (image.blocks.filter fun b => b.words.length ≠ 0)).stores = image.stores := by
  rw [stores, stores]
  induction image.blocks with
  | nil => rfl
  | cons b bs ih =>
      rw [List.filter_cons, List.flatMap_cons]
      split
      · rw [List.flatMap_cons, ih]
      · next hempty =>
          rw [ih, Block.stores_eq_nil (by simpa using hempty), List.nil_append]

/-- Each word has a line of its own, and a marker with its address stands before it exactly when it
does not go where the word before it ends. Blocks without words leave no line. -/
theorem markers_at_jumps (image : Image) :
    image.hexText = (HexText.lines image.hexText).flatMap (· ++ ['\n']) ∧
    HexText.MarksJumps (HexText.lines image.hexText) image.stores ∧
    (Image.mk (image.blocks.filter fun b => b.words.length ≠ 0)).hexText = image.hexText ∧
    (HexText.lines image.hexText).length =
      image.wordCount + ((HexText.lines image.hexText).filter HexText.isMarker).length := by
  have hmarks : HexText.MarksJumps (HexText.lines image.hexText) image.stores :=
    lines_hexText image ▸ HexText.marksJumps_marked image.stores
  refine ⟨?_, hmarks, ?_, ?_⟩
  · rw [lines_hexText, List.flatMap_map, hexText_eq_marked]
  · rw [hexText_eq_marked, stores_filter, hexText_eq_marked image]
  · have hwords := congrArg List.length hmarks.words
    rw [List.length_map, length_stores] at hwords
    rw [List.length_eq_length_filter_add HexText.isMarker, hwords, Nat.add_comm]

end Image

end Testbench
