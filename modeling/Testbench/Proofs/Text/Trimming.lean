import Testbench.Text.Blank
import Testbench.Text.Class

namespace Testbench.Text

section Span

variable {α : Type} {p : α → Bool} {body rest : List α}

theorem takeWhile_append_of_stop (hbody : ∀ x ∈ body, p x = true)
    (hstop : ∀ x ∈ rest.head?, p x = false) : (body ++ rest).takeWhile p = body := by
  rw [List.takeWhile_append_of_pos hbody]
  cases rest with
  | nil => rw [List.takeWhile_nil, List.append_nil]
  | cons x rest =>
      rw [List.takeWhile_cons_of_neg (Bool.eq_false_iff.1 (hstop x rfl)), List.append_nil]

theorem dropWhile_append_of_stop (hbody : ∀ x ∈ body, p x = true)
    (hstop : ∀ x ∈ rest.head?, p x = false) : (body ++ rest).dropWhile p = rest := by
  rw [List.dropWhile_append_of_pos hbody]
  cases rest with
  | nil => rfl
  | cons x rest => exact List.dropWhile_cons_of_neg (Bool.eq_false_iff.1 (hstop x rfl))

end Span

def Blanks (gap : List Char) : Prop :=
  ∀ c ∈ gap, isBlank c = true

instance (gap : List Char) : Decidable (Blanks gap) :=
  decidable_of_iff (gap.all isBlank = true) List.all_eq_true

variable {c : Char} {before after text s : List Char}

theorem Blanks.notMem (h : Blanks s) (hc : isBlank c = false) : c ∉ s := by
  intro hmem
  rw [h c hmem] at hc
  cases hc

theorem trimLeft_append (h : Blanks before) (s : List Char) :
    trimLeft (before ++ s) = trimLeft s :=
  List.dropWhile_append_of_pos h

theorem trimLeft_of_blanks (h : Blanks s) : trimLeft s = [] := by
  rw [← List.append_nil s, trimLeft_append h]
  rfl

theorem trimRight_append (h : Blanks after) (s : List Char) :
    trimRight (s ++ after) = trimRight s := by
  have hback : Blanks after.reverse := fun c hc => h c (List.mem_reverse.1 hc)
  rw [trimRight, List.reverse_append, trimLeft_append hback, trimRight]

theorem trim_surrounded (hbefore : Blanks before) (hafter : Blanks after) (text : List Char) :
    trim (before ++ (text ++ after)) = trim text := by
  rw [trim, trimLeft_append hbefore, trimLeft, List.dropWhile_append]
  cases htext : text.dropWhile isBlank with
  | nil =>
      have hnone : after.dropWhile isBlank = [] := trimLeft_of_blanks hafter
      rw [List.isEmpty_nil, if_pos rfl, hnone, trim, trimLeft, htext]
  | cons c rest =>
      rw [List.isEmpty_cons, if_neg Bool.false_ne_true, trimRight_append hafter, trim, trimLeft,
        htext]

theorem trim_of_blanks (h : Blanks s) : trim s = [] := by
  rw [trim, trimLeft_of_blanks h]
  rfl

theorem blanks_takeWhile (s : List Char) : Blanks (s.takeWhile isBlank) :=
  List.all_eq_true.1 List.all_takeWhile

theorem blanks_nil : Blanks [] :=
  fun _ hc => absurd hc List.not_mem_nil

theorem trim_trimLeft (s : List Char) : trim (trimLeft s) = trim s := by
  have hsplit : s.takeWhile isBlank ++ (trimLeft s ++ []) = s := by
    rw [List.append_nil]
    exact List.takeWhile_append_dropWhile
  calc trim (trimLeft s)
      = trim (s.takeWhile isBlank ++ (trimLeft s ++ [])) :=
        (trim_surrounded (blanks_takeWhile s) blanks_nil _).symm
    _ = trim s := by rw [hsplit]

theorem exists_trimRight_append (s : List Char) :
    ∃ after, Blanks after ∧ s = trimRight s ++ after := by
  refine ⟨(s.reverse.takeWhile isBlank).reverse,
    fun c hc => blanks_takeWhile s.reverse c (List.mem_reverse.1 hc), ?_⟩
  rw [trimRight, trimLeft, ← List.reverse_append, List.takeWhile_append_dropWhile,
    List.reverse_reverse]

theorem trim_trimRight (s : List Char) : trim (trimRight s) = trim s := by
  obtain ⟨after, hafter, hsplit⟩ := exists_trimRight_append s
  calc trim (trimRight s)
      = trim ([] ++ (trimRight s ++ after)) := (trim_surrounded blanks_nil hafter _).symm
    _ = trim s := by rw [List.nil_append, ← hsplit]

theorem trim_trim (s : List Char) : trim (trim s) = trim s :=
  (trim_trimRight (trimLeft s)).trans (trim_trimLeft s)

theorem exists_surrounded (s : List Char) :
    ∃ before after, Blanks before ∧ Blanks after ∧ s = before ++ (trim s ++ after) := by
  obtain ⟨after, hafter, hsplit⟩ := exists_trimRight_append (trimLeft s)
  refine ⟨s.takeWhile isBlank, after, blanks_takeWhile s, hafter, ?_⟩
  rw [trim, ← hsplit]
  exact List.takeWhile_append_dropWhile.symm

theorem trimLeft_append_cons (hc : isBlank c = false) (before after : List Char) :
    trimLeft (before ++ c :: after) = trimLeft before ++ c :: after := by
  have hstop : (c :: after).dropWhile isBlank = c :: after :=
    List.dropWhile_cons_of_neg (Bool.eq_false_iff.1 hc)
  rw [trimLeft, List.dropWhile_append, hstop]
  cases hbefore : before.dropWhile isBlank <;> simp [trimLeft, hbefore]

theorem trimRight_append_cons (hc : isBlank c = false) (before after : List Char) :
    trimRight (before ++ c :: after) = before ++ c :: trimRight after := by
  rw [trimRight, List.reverse_append, List.reverse_cons, List.append_assoc, List.singleton_append,
    trimLeft_append_cons hc, List.reverse_append, List.reverse_cons, List.reverse_reverse,
    List.append_assoc, List.singleton_append, trimRight]

theorem trim_append_cons (hc : isBlank c = false) (before after : List Char) :
    trim (before ++ c :: after) = trimLeft before ++ c :: trimRight after := by
  rw [trim, trimLeft_append_cons hc, trimRight_append_cons hc]

theorem wordRanges_apart : ∀ word ∈ wordRanges, 128 ≤ word.1 ∧
    ∀ blank ∈ blankRanges, word.2 < blank.1 ∨ blank.2 < word.1 := by
  decide +kernel

theorem toNat_of_isAlphanum (h : c.isAlphanum = true) : 48 ≤ c.toNat ∧ c.toNat ≤ 122 := by
  change (decide (65 ≤ c.val ∧ c.val ≤ 90) || decide (97 ≤ c.val) && decide (c.val ≤ 122) ||
    decide (48 ≤ c.val) && decide (c.val ≤ 57)) = true at h
  simp only [Bool.or_eq_true, Bool.and_eq_true, decide_eq_true_eq, UInt32.le_iff_toNat_le] at h
  change ((65 ≤ c.toNat ∧ c.toNat ≤ 90) ∨ (97 ≤ c.toNat ∧ c.toNat ≤ 122)) ∨
    (48 ≤ c.toNat ∧ c.toNat ≤ 57) at h
  omega

theorem isBlank_of_isWord (h : isWord c = true) : isBlank c = false := by
  simp only [isWord, Bool.or_eq_true, decide_eq_true_eq] at h
  rcases h with (hletter | rfl) | hword
  · have hascii := toNat_of_isAlphanum hletter
    exact isBlank_of_ascii (by omega) (by omega)
  · decide
  · obtain ⟨word, hmem, hlow, hhigh⟩ := within_eq_true_iff.1 hword
    obtain ⟨hbeyond, hapart⟩ := wordRanges_apart word hmem
    have hspace : c ≠ ' ' := by
      rintro rfl
      exact absurd (Nat.le_trans hbeyond hlow) (by decide)
    have hwithin : within blankRanges c = false := by
      rw [Bool.eq_false_iff, Ne, within_eq_true_iff]
      rintro ⟨blank, hblank, hle, hge⟩
      have := hapart blank hblank
      omega
    simp only [isBlank, hspace, hwithin, decide_false, Bool.false_or, Bool.or_false,
      Bool.and_eq_false_iff, decide_eq_false_iff_not]
    omega

end Testbench.Text
