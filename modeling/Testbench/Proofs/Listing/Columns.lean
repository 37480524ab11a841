import Testbench.Listing.Table
import Testbench.Proofs.Text.Trimming

namespace Testbench

namespace Text

structure IsWord (text : List Char) : Prop where
  ne_nil : text ≠ []
  solid : ∀ c ∈ text, isBlank c = false

def EndsWord (rest : List Char) : Prop :=
  ∀ c ∈ rest.head?, isBlank c = true

variable {gap text rest : List Char}

theorem IsWord.head_append (h : IsWord text) : ∀ c ∈ (text ++ rest).head?, isBlank c = false := by
  obtain ⟨c, tail, rfl⟩ := List.exists_cons_of_ne_nil h.ne_nil
  intro d hd
  obtain rfl := Option.some.inj hd
  exact h.solid c List.mem_cons_self

theorem EndsWord.takeWhile_append (hrest : EndsWord rest) (htext : ∀ c ∈ text, isBlank c = false) :
    (text ++ rest).takeWhile (!isBlank ·) = text := by
  refine takeWhile_append_of_stop (fun c hc => ?_) fun c hc => ?_
  · rw [htext c hc, Bool.not_false]
  · rw [hrest c hc, Bool.not_true]

theorem EndsWord.dropWhile_append (hrest : EndsWord rest) (htext : ∀ c ∈ text, isBlank c = false) :
    (text ++ rest).dropWhile (!isBlank ·) = rest := by
  refine dropWhile_append_of_stop (fun c hc => ?_) fun c hc => ?_
  · rw [htext c hc, Bool.not_false]
  · rw [hrest c hc, Bool.not_true]

end Text

namespace Listing

inductive Printed : List (List Char) → List Char → Prop where
  | done {rest : List Char} (hbreak : Text.EndsWord rest) (hopen : '[' ∉ rest) : Printed [] rest
  | column {gap text rest : List Char} {texts : List (List Char)} (hgap : gap ≠ [])
      (hblank : ∀ c ∈ gap, Text.isBlank c = true) (hrest : Printed texts rest) :
      Printed (text :: texts) (gap ++ (text ++ rest))

namespace Printed

variable {text s : List Char} {texts : List (List Char)}

theorem endsWord (h : Printed texts s) : Text.EndsWord s := by
  cases h with
  | done hbreak _ => exact hbreak
  | @column gap _ _ _ hgap hblank _ =>
      obtain ⟨c, gap, rfl⟩ := List.exists_cons_of_ne_nil hgap
      intro d hd
      obtain rfl := Option.some.inj hd
      exact hblank c List.mem_cons_self

theorem ne_nil (h : Printed (text :: texts) s) : s ≠ [] := by
  cases h with
  | column hgap _ _ => exact List.append_ne_nil_of_left_ne_nil hgap _

theorem open_notMem (h : Printed texts s) (htexts : ∀ text ∈ texts, '[' ∉ text) : '[' ∉ s := by
  induction h with
  | done _ hopen => exact hopen
  | column _ hblank _ ih =>
      simp only [List.mem_append, not_or]
      refine ⟨fun hmem => ?_, htexts _ List.mem_cons_self,
        ih fun text htext => htexts text (List.mem_cons_of_mem _ htext)⟩
      exact absurd (hblank _ hmem) (by decide)

theorem columns_succ (h : Printed (text :: texts) s) (htext : Text.IsWord text) (count : Nat) :
    ∃ blanks rest, Printed texts rest ∧
      columns (count + 1) s = ⟨blanks, text⟩ :: columns count rest := by
  cases h with
  | @column gap _ rest _ hgap hblank hrest =>
      have hskip : (gap ++ (text ++ rest)).dropWhile Text.isBlank = text ++ rest :=
        Text.dropWhile_append_of_stop hblank htext.head_append
      refine ⟨((gap ++ (text ++ rest)).takeWhile Text.isBlank).length, rest, hrest, ?_⟩
      rw [columns.eq_3 _ _ (List.append_ne_nil_of_left_ne_nil hgap _)]
      simp only [hskip, hrest.endsWord.takeWhile_append htext.solid,
        hrest.endsWord.dropWhile_append htext.solid]

theorem map_text_columns (h : Printed texts s) (htexts : ∀ text ∈ texts, Text.IsWord text) :
    (columns texts.length s).map Column.text = texts := by
  induction texts generalizing s with
  | nil => rfl
  | cons text texts ih =>
      rw [List.forall_mem_cons] at htexts
      obtain ⟨blanks, rest, hrest, hcolumns⟩ := h.columns_succ htexts.1 texts.length
      rw [List.length_cons, hcolumns, List.map_cons, ih hrest htexts.2]

end Printed

end Listing

end Testbench
