import Testbench.Proofs.Listing.Columns
import Testbench.Proofs.Text.Spelling

namespace Testbench

namespace Text

theorem isDigit_of_ascii {c : Char} (h : c.isDigit = true) : isDigit c = true := by
  rw [isDigit, h, Bool.true_or]

theorem isDigit_of_isBlank {c : Char} (h : isBlank c = true) : isDigit c = false := by
  have hapart : ∀ blank ∈ (32, 32) :: (9, 13) :: blankRanges, ∀ digit ∈ (48, 57) :: digitRanges,
      blank.2 < digit.1 ∨ digit.2 < blank.1 := by decide +kernel
  have hblank : within ((32, 32) :: (9, 13) :: blankRanges) c = true := by
    simp only [isBlank, Bool.or_eq_true, Bool.and_eq_true, decide_eq_true_eq] at h
    rw [within_eq_true_iff] at h ⊢
    rcases h with (rfl | h) | ⟨range, hrange, h⟩
    · exact ⟨_, .head _, by decide⟩
    · exact ⟨_, .tail _ (.head _), h⟩
    · exact ⟨range, .tail _ (.tail _ hrange), h⟩
  rw [Bool.eq_false_iff]
  intro hdigit
  have hdigit : within ((48, 57) :: digitRanges) c = true := by
    rw [isDigit, Bool.or_eq_true] at hdigit
    rw [within_eq_true_iff] at hdigit ⊢
    rcases hdigit with h | ⟨range, hrange, h⟩
    · exact ⟨_, .head _, by simpa [Char.isDigit, UInt32.le_iff_toNat_le] using h⟩
    · exact ⟨range, .tail _ hrange, h⟩
  obtain ⟨blank, hblank, hlow, hhigh⟩ := within_eq_true_iff.1 hblank
  obtain ⟨digit, hdigit, hlow', hhigh'⟩ := within_eq_true_iff.1 hdigit
  rcases hapart blank hblank digit hdigit with hbelow | habove <;> omega

end Text

namespace Listing

variable {index text rest s t : List Char} {texts : List (List Char)} {c : Char} {row : Row}

theorem bracketed?_cons_eq_some_iff :
    bracketed? ('[' :: t) = some (index, rest) ↔ index ≠ [] ∧
      (t.dropWhile Text.isBlank).takeWhile Text.isDigit = index ∧
      (t.dropWhile Text.isBlank).dropWhile Text.isDigit = ']' :: rest := by
  rw [bracketed?]
  split
  · next d digits rest' hdigits hrest =>
      rw [hdigits, hrest, Option.some.injEq, Prod.mk.injEq, List.cons.injEq]
      constructor
      · rintro ⟨rfl, rfl⟩
        exact ⟨List.cons_ne_nil _ _, rfl, rfl, rfl⟩
      · rintro ⟨-, rfl, -, rfl⟩
        exact ⟨rfl, rfl⟩
  · next hother =>
      constructor
      · rintro ⟨⟩
      · rintro ⟨hne, hindex, hrest⟩
        obtain ⟨d, digits, rfl⟩ := List.exists_cons_of_ne_nil hne
        exact absurd hrest (hother d digits rest hindex)

theorem exists_of_bracketed? (h : bracketed? s = some (index, rest)) : ∃ t, s = '[' :: t := by
  rw [bracketed?.eq_def] at h
  split at h
  · exact ⟨_, rfl⟩
  · cases h

theorem bracketed?_append {blanks : List Char} (hblanks : ∀ c ∈ blanks, Text.isBlank c = true)
    (hne : index ≠ []) (hindex : ∀ c ∈ index, Text.isDigit c = true) :
    bracketed? ('[' :: (blanks ++ (index ++ ']' :: rest))) = some (index, rest) := by
  have hskip :
      (blanks ++ (index ++ ']' :: rest)).dropWhile Text.isBlank = index ++ ']' :: rest := by
    refine Text.dropWhile_append_of_stop hblanks ?_
    obtain ⟨d, digits, rfl⟩ := List.exists_cons_of_ne_nil hne
    intro c hc
    obtain rfl := Option.some.inj hc
    rw [Bool.eq_false_iff]
    intro hblank
    exact absurd (hindex d List.mem_cons_self)
      (Bool.eq_false_iff.1 (Text.isDigit_of_isBlank hblank))
  have hstop : ∀ c ∈ (']' :: rest).head?, Text.isDigit c = false := by
    intro c hc
    obtain rfl := Option.some.inj hc
    decide +kernel
  rw [bracketed?_cons_eq_some_iff, hskip, Text.takeWhile_append_of_stop hindex hstop,
    Text.dropWhile_append_of_stop hindex hstop]
  exact ⟨hne, rfl, rfl⟩

namespace Row

theorem atStart?_cons_of_ne (hc : c ≠ '[') : atStart? (c :: s) = none := by
  have hbracketed : bracketed? (c :: s) = none := by
    rw [bracketed?]
    rintro s heq
    exact hc (List.cons.inj heq).1
  rw [atStart?, hbracketed]

theorem atStart?_eq_some (h : atStart? s = some row) :
    ∃ index rest, bracketed? s = some (index, rest) ∧ rest ≠ [] ∧ Text.EndsWord rest ∧
      ofColumns? index (columns 6 rest) = some row := by
  rw [atStart?] at h
  split at h
  · next index c rest hbracketed =>
      rw [Option.ite_none_right_eq_some] at h
      refine ⟨index, c :: rest, hbracketed, List.cons_ne_nil _ _, ?_, h.2⟩
      intro d hd
      obtain rfl := Option.some.inj hd
      exact h.1
  · cases h

theorem atStart?_of_bracketed? (h : bracketed? s = some (index, rest)) (hne : rest ≠ [])
    (hends : Text.EndsWord rest) : atStart? s = ofColumns? index (columns 6 rest) := by
  obtain ⟨c, rest, rfl⟩ := List.exists_cons_of_ne_nil hne
  rw [atStart?, h]
  exact if_pos (hends c rfl)

theorem ofLine?_append (h : '[' ∉ t) : ofLine? (t ++ s) = ofLine? s := by
  induction t with
  | nil => rfl
  | cons c t ih =>
      rw [List.mem_cons, not_or] at h
      rw [List.cons_append, ofLine?, atStart?_cons_of_ne (Ne.symm h.1)]
      exact ih h.2

theorem ofLine?_eq_none (h : '[' ∉ s) : ofLine? s = none := by
  rw [← List.append_nil s, ofLine?_append h, ofLine?]

theorem exists_of_ofLine? (h : ofLine? s = some row) :
    ∃ before after, s = before ++ after ∧ atStart? after = some row := by
  induction s with
  | nil => cases h
  | cons c s ih =>
      rw [ofLine?] at h
      split at h
      · next first hfirst => exact ⟨[], c :: s, rfl, hfirst.trans h⟩
      · obtain ⟨before, after, rfl, hafter⟩ := ih h
        exact ⟨c :: before, after, rfl, hafter⟩

theorem ofColumns?_eq_some {columns : List Column} (h : ofColumns? index columns = some row) :
    row.index = index ∧ ∃ name tail, columns = name :: tail ∧ isName name.text = true := by
  cases columns with
  | nil => cases h
  | cons name tail =>
      rw [ofColumns?, Option.ite_none_right_eq_some, Option.or_eq_some_iff] at h
      obtain ⟨hname, h⟩ := h
      refine ⟨?_, name, tail, rfl, hname⟩
      rcases h with h | ⟨-, h⟩
      · rw [full?.eq_def] at h
        split at h
        · rw [Option.ite_none_right_eq_some] at h
          rw [← Option.some.inj h.2]
        · cases h
      · rw [withoutKind?.eq_def] at h
        split at h
        · rw [Option.ite_none_right_eq_some] at h
          rw [← Option.some.inj h.2]
        · cases h

theorem ofColumns?_of_map_text {name kind address offset size entrySize : List Char}
    {columns : List Column}
    (h : columns.map Column.text = [name, kind, address, offset, size, entrySize])
    (haddress : isHex address = true) (hoffset : isHex offset = true) (hsize : isHex size = true) :
    ofColumns? index columns =
      if isName name then some ⟨index, name, kind, address, offset, size, entrySize⟩ else none := by
  simp only [List.map_eq_cons_iff, List.map_eq_nil_iff] at h
  obtain ⟨_, _, rfl, rfl, _, _, rfl, rfl, _, _, rfl, rfl, _, _, rfl, rfl, _, _, rfl, rfl, _, _, rfl,
    rfl, rfl⟩ := h
  simp only [ofColumns?, full?, haddress, hoffset, hsize, Bool.and_self, if_true, Option.some_or]

end Row

inductive Marked : List Char → Prop where
  | intro (before : List Char) {blanks digits gap after : List Char}
      (hblanks : ∀ c ∈ blanks, Text.isBlank c = true) (hne : digits ≠ [])
      (hdigits : ∀ c ∈ digits, c.isDigit = true) (hgap : gap ≠ [])
      (hblank : ∀ c ∈ gap, Text.isBlank c = true) :
      Marked (before ++ '[' :: (blanks ++ (digits ++ ']' :: (gap ++ '.' :: after))))

theorem Marked.of_bracketed? {before after gap rest : List Char}
    (h : bracketed? after = some (index, gap ++ '.' :: rest))
    (hindex : ∀ c ∈ index, c.isDigit = true) (hgap : gap ≠ [])
    (hblank : ∀ c ∈ gap, Text.isBlank c = true) : Marked (before ++ after) := by
  obtain ⟨t, rfl⟩ := exists_of_bracketed? h
  obtain ⟨hne, hdigits, hclose⟩ := bracketed?_cons_eq_some_iff.1 h
  have hsplit := List.takeWhile_append_dropWhile (p := Text.isDigit) (l := t.dropWhile Text.isBlank)
  rw [hdigits, hclose] at hsplit
  rw [← List.takeWhile_append_dropWhile (p := Text.isBlank) (l := t), ← hsplit]
  exact .intro before (List.all_eq_true.1 List.all_takeWhile) hne hindex hgap hblank

def startsMark (s : List Char) : Bool :=
  match bracketed? s with
  | some (index, c :: rest) =>
      index.all Char.isDigit && Text.isBlank c &&
        ((c :: rest).dropWhile Text.isBlank).head? = some '.'
  | _ => false

def holdsMark : List Char → Bool
  | [] => false
  | c :: s => startsMark (c :: s) || holdsMark s

theorem marked_of_startsMark {before : List Char} (h : startsMark s = true) :
    Marked (before ++ s) := by
  rw [startsMark] at h
  split at h
  · next index c rest hbracketed =>
      simp only [Bool.and_eq_true, decide_eq_true_eq, List.all_eq_true] at h
      obtain ⟨⟨hindex, hc⟩, hdot⟩ := h
      obtain ⟨after, hafter⟩ := List.head?_eq_some_iff.1 hdot
      rw [← List.takeWhile_append_dropWhile (p := Text.isBlank) (l := c :: rest), hafter]
        at hbracketed
      refine .of_bracketed? hbracketed hindex ?_ (List.all_eq_true.1 List.all_takeWhile)
      rw [List.takeWhile_cons_of_pos hc]
      exact List.cons_ne_nil _ _
  · cases h

theorem startsMark_append {blanks digits gap after : List Char}
    (hblanks : ∀ c ∈ blanks, Text.isBlank c = true) (hne : digits ≠ [])
    (hdigits : ∀ c ∈ digits, c.isDigit = true) (hgap : gap ≠ [])
    (hblank : ∀ c ∈ gap, Text.isBlank c = true) :
    startsMark ('[' :: (blanks ++ (digits ++ ']' :: (gap ++ '.' :: after)))) = true := by
  have hdot : ((gap ++ '.' :: after).dropWhile Text.isBlank).head? = some '.' := by
    rw [Text.dropWhile_append_of_stop hblank]
    · rfl
    · intro c hc
      obtain rfl := Option.some.inj hc
      decide
  obtain ⟨c, gap, rfl⟩ := List.exists_cons_of_ne_nil hgap
  rw [startsMark, bracketed?_append hblanks hne fun c hc => Text.isDigit_of_ascii (hdigits c hc)]
  simp only [List.cons_append] at hdot ⊢
  simp only [hdot, List.all_eq_true.2 hdigits, hblank c List.mem_cons_self, Bool.and_self,
    decide_true]

theorem holdsMark_eq_true_iff : holdsMark s = true ↔ Marked s := by
  constructor
  · intro h
    suffices hall : ∀ before : List Char, Marked (before ++ s) from hall []
    induction s with
    | nil => cases h
    | cons c s ih =>
        intro before
        rw [holdsMark, Bool.or_eq_true] at h
        rcases h with h | h
        · exact marked_of_startsMark h
        · rw [List.append_cons]
          exact ih h _
  · rintro ⟨before, hblanks, hne, hdigits, hgap, hblank⟩
    induction before with
    | nil =>
        rw [List.nil_append, holdsMark, startsMark_append hblanks hne hdigits hgap hblank,
          Bool.true_or]
    | cons c before ih => rw [List.cons_append, holdsMark, ih, Bool.or_true]

instance : DecidablePred Marked := fun _ => decidable_of_iff _ holdsMark_eq_true_iff

theorem isDigit_of_below? {bound n : Nat} (htext : ∀ c ∈ text, Text.isDigit c = true)
    (h : Numeral.below? bound 10 text = some n) : ∀ c ∈ text, c.isDigit = true := by
  have hplus : Numeral.dropPlus text = text := by
    rw [Numeral.dropPlus.eq_def]
    split
    · exact absurd (htext '+' List.mem_cons_self) (by decide +kernel)
    · rfl
  rw [Numeral.below?, hplus, Option.filter_eq_some_iff] at h
  intro c hc
  exact Numeral.isDigit_of_digitValue? (Numeral.digitValue?_of_natural? h.1 hc)

theorem exists_of_isName (h : isName text = true) : ∃ c tail, text = '.' :: c :: tail := by
  rw [isName.eq_def] at h
  split at h
  · exact ⟨_, _, rfl⟩
  · cases h

theorem exists_dot_of_columns {name : Column} {tail : List Column} {count : Nat} (hrest : rest ≠ [])
    (hends : Text.EndsWord rest) (h : columns (count + 1) rest = name :: tail)
    (hname : isName name.text = true) :
    ∃ gap after, gap ≠ [] ∧ (∀ c ∈ gap, Text.isBlank c = true) ∧ rest = gap ++ '.' :: after := by
  rw [columns.eq_3 _ _ hrest] at h
  obtain ⟨rfl, -⟩ := List.cons.inj h
  obtain ⟨c, word, hword⟩ : ∃ c word,
      (rest.dropWhile Text.isBlank).takeWhile (!Text.isBlank ·) = '.' :: c :: word :=
    exists_of_isName hname
  have hgap : rest.takeWhile Text.isBlank ≠ [] := by
    obtain ⟨c, rest, rfl⟩ := List.exists_cons_of_ne_nil hrest
    rw [List.takeWhile_cons_of_pos (hends c rfl)]
    exact List.cons_ne_nil _ _
  obtain ⟨after, hafter⟩ :=
    List.takeWhile_prefix (fun c => !Text.isBlank c) (l := rest.dropWhile Text.isBlank)
  rw [hword] at hafter
  refine ⟨rest.takeWhile Text.isBlank, c :: word ++ after, hgap,
    List.all_eq_true.1 List.all_takeWhile, ?_⟩
  rw [← List.cons_append, hafter, List.takeWhile_append_dropWhile]

theorem marked_of_section? {found : Section} (h : (Row.ofLine? s).bind Row.section? = some found) :
    Marked s := by
  obtain ⟨row, hrow, hfound⟩ := Option.bind_eq_some_iff.1 h
  obtain ⟨before, after, rfl, hafter⟩ := Row.exists_of_ofLine? hrow
  obtain ⟨index, rest, hbracketed, hrest, hends, hcolumns⟩ := Row.atStart?_eq_some hafter
  obtain ⟨rfl, name, tail, htail, hname⟩ := Row.ofColumns?_eq_some hcolumns
  obtain ⟨gap, dotted, hgap, hblank, rfl⟩ := exists_dot_of_columns hrest hends htail hname
  refine .of_bracketed? hbracketed ?_ hgap hblank
  obtain ⟨t, rfl⟩ := exists_of_bracketed? hbracketed
  have hnumber : ∃ n, Numeral.below? UInt64.size 10 row.index = some n := by
    simp only [Row.section?, bind, Option.bind_eq_some_iff] at hfound
    exact hfound.imp fun _ h => h.1
  obtain ⟨n, hn⟩ := hnumber
  refine isDigit_of_below? ?_ hn
  rw [← (bracketed?_cons_eq_some_iff.1 hbracketed).2.1]
  exact List.all_eq_true.1 List.all_takeWhile

end Listing

end Testbench
