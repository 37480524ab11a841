import Testbench.Proofs.Image.Capacity
import Testbench.Proofs.Image.HexReading
import Testbench.Proofs.Image.Placement

namespace Testbench

theorem Block.addresses_stores (b : Block) :
    b.stores.map Prod.fst = List.range' b.wordAddress b.words.length := by
  rw [stores, List.map_map, ← Words.length_toList]
  exact List.zipIdx_map_snd ..

theorem Block.forall_stores_lt_iff {b : Block} {maxWords : Nat} :
    (∀ store ∈ b.stores, store.1 < maxWords) ↔ ¬ b.Exceeds maxWords := by
  have haddresses : (∀ store ∈ b.stores, store.1 < maxWords) ↔
      ∀ address ∈ List.range' b.wordAddress b.words.length, address < maxWords := by
    rw [← addresses_stores, List.forall_mem_map]
  rw [haddresses, not_exceeds_iff, endWord]
  simp only [List.mem_range'_1]
  constructor
  · intro h hwords
    have := h (b.wordAddress + b.words.length - 1) (by omega)
    omega
  · intro h address haddress
    have := h (by omega)
    omega

namespace Image

variable {image : Image} {maxWords : Nat}

theorem forall_stores_lt_iff :
    (∀ store ∈ image.stores, store.1 < maxWords) ↔ image.checkCapacity maxWords = .ok () := by
  have hblocks : (∀ store ∈ image.stores, store.1 < maxWords) ↔
      ∀ b ∈ image.blocks, ∀ store ∈ b.stores, store.1 < maxWords := by
    rw [stores, List.forall_mem_flatMap]
  rw [hblocks, checkCapacity_eq_ok_iff]
  simp only [Block.forall_stores_lt_iff]

variable {host : Host} {config : LoadConfig} {file output : String} {place : Location}

theorem writeHexFile_of_load_error {cause : BinaryError}
    (hload : load host config file = .error cause) :
    writeHexFile host config file output maxWords =
      ((config.source.after host file).files, .error (.binary cause)) := by
  rw [writeHexFile, hload]

theorem writeHexFile_of_refused {e : Failure} (hload : load host config file = .ok image)
    (hrefused : image.checkCapacity maxWords = .error e) :
    writeHexFile host config file output maxWords =
      ((config.source.after host file).files, .error e) := by
  rw [writeHexFile, hload]
  simp only [hrefused]

theorem writeHexFile_of_fits
    (htarget : (config.source.after host file).files.target output = .ok place)
    (hload : load host config file = .ok image) (hfits : image.checkCapacity maxWords = .ok ()) :
    writeHexFile host config file output maxWords =
      ((config.source.after host file).files.put place (Text.Utf8.encode image.hexText).toArray,
        .ok image) := by
  rw [writeHexFile, hload]
  simp only [hfits, Files.write_of_target htarget]

theorem writeHexFile_eq_ok_iff {written : Files}
    (htarget : (config.source.after host file).files.target output = .ok place) :
    writeHexFile host config file output maxWords = (written, .ok image) ↔
      load host config file = .ok image ∧ image.checkCapacity maxWords = .ok () ∧
        written = (config.source.after host file).files.put place
          (Text.Utf8.encode image.hexText).toArray := by
  constructor
  · intro h
    cases hload : load host config file with
    | error cause =>
        rw [writeHexFile_of_load_error hload] at h
        cases h
    | ok loaded =>
        cases hcheck : loaded.checkCapacity maxWords with
        | error e =>
            rw [writeHexFile_of_refused hload hcheck] at h
            cases h
        | ok u =>
            rw [writeHexFile_of_fits htarget hload hcheck] at h
            cases h
            exact ⟨rfl, hcheck, rfl⟩
  · rintro ⟨hload, hfits, rfl⟩
    exact writeHexFile_of_fits htarget hload hfits

theorem writeHexFile_eq_error {written : Files} {e : Failure}
    (htarget : (config.source.after host file).files.target output = .ok place)
    (h : writeHexFile host config file output maxWords = (written, .error e)) :
    written = (config.source.after host file).files ∧
      ∀ image, load host config file = .ok image → image.checkCapacity maxWords = .error e := by
  cases hload : load host config file with
  | error cause =>
      rw [writeHexFile_of_load_error hload] at h
      cases h
      exact ⟨rfl, nofun⟩
  | ok image =>
      cases hcheck : image.checkCapacity maxWords with
      | error cause =>
          rw [writeHexFile_of_refused hload hcheck] at h
          cases h
          refine ⟨rfl, ?_⟩
          rintro _ ⟨⟩
          exact hcheck
      | ok u =>
          rw [writeHexFile_of_fits htarget hload hcheck] at h
          cases h

/-- The text of an image is written as a whole, and only where all its words have room. Otherwise no
file changes but those of the program that lists the sections. -/
theorem writeHexFile_all_or_nothing
    (htarget : (config.source.after host file).files.target output = .ok place) :
    ((∃ image, (writeHexFile host config file output maxWords).2 = .ok image) ↔
      ∃ image, load host config file = .ok image ∧ ∀ store ∈ image.stores, store.1 < maxWords) ∧
    (∀ written image, writeHexFile host config file output maxWords = (written, .ok image) →
      load host config file = .ok image ∧
      written = (config.source.after host file).files.put place
        (Text.Utf8.encode image.hexText).toArray ∧
      written.read output = .ok (Text.Utf8.encode image.hexText).toArray ∧
      ∃ stores, HexText.stores? image.hexText = some stores ∧
        ∀ store ∈ stores, store.1 < maxWords) ∧
    (∀ written e, writeHexFile host config file output maxWords = (written, .error e) →
      written = (config.source.after host file).files ∧
      (config.source = .native → written = host.files) ∧
      ∀ image, load host config file = .ok image →
        ∃ earlier b later, image.blocks = earlier ++ b :: later ∧
          (∀ c ∈ earlier, ¬ c.Exceeds maxWords) ∧ b.Exceeds maxWords ∧
          e = .capacityExceeded b.name b.endWord maxWords) := by
  refine ⟨⟨?_, ?_⟩, ?_, ?_⟩
  · rintro ⟨image, h⟩
    obtain ⟨hload, hfits, -⟩ := (writeHexFile_eq_ok_iff htarget).1 (Prod.ext rfl h)
    exact ⟨image, hload, forall_stores_lt_iff.2 hfits⟩
  · rintro ⟨image, hload, hstores⟩
    exact ⟨image, by rw [writeHexFile_of_fits htarget hload (forall_stores_lt_iff.1 hstores)]⟩
  · intro written image h
    obtain ⟨hload, hfits, rfl⟩ := (writeHexFile_eq_ok_iff htarget).1 h
    exact ⟨hload, rfl, Files.read_of_write (Files.write_of_target htarget _), image.stores,
      stores?_hexText image, forall_stores_lt_iff.2 hfits⟩
  · intro written e h
    obtain ⟨rfl, hrefused⟩ := writeHexFile_eq_error htarget h
    refine ⟨rfl, fun hnative => by rw [hnative]; rfl, fun image hload => ?_⟩
    obtain ⟨b, hoverflow, rfl⟩ := checkCapacity_eq_error_iff.1 (hrefused image hload)
    obtain ⟨hb, earlier, later, hblocks, hearlier⟩ := overflow?_eq_some_iff.1 hoverflow
    exact ⟨earlier, b, later, hblocks, hearlier, hb, rfl⟩

theorem writeHexFile_all_or_nothing_overlap :
    (∃ written, writeHexFile overlapHost overlapConfig "a" "a" 2 = (written, .ok overlapImage) ∧
      written.read "a" = .ok (Text.Utf8.encode overlapImage.hexText).toArray) ∧
    writeHexFile overlapHost overlapConfig "a" "a" 1 =
      (overlapHost.files, .error (.capacityExceeded ".bss" 2 1)) := by
  have htarget : (overlapConfig.source.after overlapHost "a").files.target "a" = .ok ["a"] := by
    decide +kernel
  have hwritten (maxWords : Nat) := @writeHexFile_all_or_nothing maxWords _ _ "a" "a" _ htarget
  constructor
  · obtain ⟨haccept, hok, -⟩ := hwritten 2
    rcases hresult : writeHexFile overlapHost overlapConfig "a" "a" 2 with ⟨written, e | image⟩
    · obtain ⟨image, himage⟩ := haccept.2 ⟨overlapImage, load_overlap, by decide⟩
      rw [hresult] at himage
      cases himage
    · obtain ⟨hload, -, hread, -⟩ := hok written image hresult
      obtain rfl := Except.ok.inj (load_overlap.symm.trans hload)
      exact ⟨written, rfl, hread⟩
  · obtain ⟨haccept, -, herror⟩ := hwritten 1
    rcases hresult : writeHexFile overlapHost overlapConfig "a" "a" 1 with ⟨written, e | image⟩
    · obtain ⟨rfl, -, hcause⟩ := herror written e hresult
      obtain ⟨earlier, b, later, hblocks, hearlier, hb, rfl⟩ := hcause overlapImage load_overlap
      cases earlier with
      | nil =>
          obtain ⟨rfl, -⟩ := List.cons.inj hblocks
          rfl
      | cons c earlier =>
          obtain ⟨rfl, -⟩ := List.cons.inj hblocks
          exact absurd (hearlier _ List.mem_cons_self) (by decide)
    · obtain ⟨loaded, hload, hstores⟩ := haccept.1 ⟨image, by rw [hresult]⟩
      obtain rfl := Except.ok.inj (load_overlap.symm.trans hload)
      exact absurd hstores (by decide)

end Image

end Testbench
