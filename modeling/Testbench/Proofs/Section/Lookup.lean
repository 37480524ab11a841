import Mathlib.Data.List.Induction
import Mathlib.Data.List.Nodup
import Testbench.Section.Table

namespace Testbench.SectionTable

variable {α : Type} {f : α → Nat → Option Section} {xs : List α} {x y : α} {i : Nat} {name : String}
  {s : Section}

theorem getElem?_concat_eq_some_iff :
    (xs ++ [x])[i]? = some y ↔ xs[i]? = some y ∨ i = xs.length ∧ x = y := by
  rcases Nat.lt_trichotomy i xs.length with hlt | rfl | hgt
  · simp [List.getElem?_append_left hlt, Nat.ne_of_lt hlt]
  · simp
  · have hbeyond : (xs ++ [x]).length ≤ i := by
      rw [List.length_append, List.length_singleton]
      exact hgt
    rw [List.getElem?_eq_none hbeyond, List.getElem?_eq_none (Nat.le_of_lt hgt)]
    simp [Nat.ne_of_gt hgt]

def IsLast (f : α → Nat → Option Section) (xs : List α) (name : String) (s : Section) : Prop :=
  s.name = name ∧ ∃ i x, xs[i]? = some x ∧ f x i = some s ∧
    ∀ j y t, i < j → xs[j]? = some y → f y j = some t → t.name ≠ name

theorem isLast_concat_iff :
    IsLast f (xs ++ [x]) name s ↔
      f x xs.length = some s ∧ s.name = name ∨
        (∀ t, f x xs.length = some t → t.name ≠ name) ∧ IsLast f xs name s := by
  constructor
  · rintro ⟨hname, i, y, hy, hs, hlater⟩
    rcases getElem?_concat_eq_some_iff.1 hy with hy | ⟨rfl, rfl⟩
    · have hi : i < xs.length := (List.getElem?_eq_some_iff.1 hy).1
      refine .inr ⟨fun t ht => hlater xs.length x t hi List.getElem?_concat_length ht, hname, i, y,
        hy, hs, ?_⟩
      intro j z t hj hz ht
      exact hlater j z t hj (getElem?_concat_eq_some_iff.2 (.inl hz)) ht
    · exact .inl ⟨hs, hname⟩
  · rintro (⟨hs, hname⟩ | ⟨hnew, hname, i, y, hy, hs, hlater⟩)
    · refine ⟨hname, xs.length, x, List.getElem?_concat_length, hs, ?_⟩
      intro j z t hj hz
      have hlt := (List.getElem?_eq_some_iff.1 hz).1
      rw [List.length_append, List.length_singleton] at hlt
      omega
    · refine ⟨hname, i, y, getElem?_concat_eq_some_iff.2 (.inl hy), hs, ?_⟩
      intro j z t hj hz ht
      rcases getElem?_concat_eq_some_iff.1 hz with hz | ⟨rfl, rfl⟩
      · exact hlater j z t hj hz ht
      · exact hnew t ht

theorem get?_ofList_zipIdx :
    (ofList (xs.zipIdx.filterMap fun (x, i) => f x i)).get? name = some s ↔
      IsLast f xs name s := by
  rw [get?_ofList]
  induction xs using List.reverseRecOn with
  | nil => simp [IsLast]
  | append_singleton xs x ih =>
      rw [isLast_concat_iff, ← ih, List.zipIdx_append, List.filterMap_append, List.reverse_append,
        List.find?_append]
      simp only [List.zipIdx_singleton, Nat.zero_add, List.filterMap_cons, List.filterMap_nil]
      cases f x xs.length with
      | none => simp
      | some t =>
          by_cases hname : t.name = name
          · simp only [List.reverse_singleton, List.find?_singleton, hname, decide_true, if_true,
              Option.some_or, Option.some.injEq, forall_eq', ne_eq, not_true_eq_false, false_and,
              or_false]
            exact ⟨fun h => ⟨h, h ▸ hname⟩, And.left⟩
          · simp only [List.reverse_singleton, List.find?_singleton, hname, decide_false,
              Bool.false_eq_true, if_false, Option.none_or, Option.some.injEq, forall_eq', ne_eq,
              not_false_eq_true, true_and]
            refine ⟨.inr, ?_⟩
            rintro (⟨rfl, h⟩ | h)
            · exact absurd h hname
            · exact h

theorem lastOfEach_cons (t : Section) (sections : List Section) :
    lastOfEach (t :: sections) =
      if (lastOfEach sections).2.contains t.name then lastOfEach sections
      else (t :: (lastOfEach sections).1, (lastOfEach sections).2.insert t.name) :=
  rfl

theorem mem_of_mem_ofList {sections : List Section} (h : s ∈ (ofList sections).sections) :
    s ∈ sections := by
  change s ∈ (lastOfEach sections).1 at h
  induction sections with
  | nil => cases h
  | cons t sections ih =>
      rw [lastOfEach_cons] at h
      split at h
      · exact List.mem_cons_of_mem _ (ih h)
      · rcases List.mem_cons.1 h with rfl | h
        · exact List.mem_cons_self
        · exact List.mem_cons_of_mem _ (ih h)

theorem sections_ofList {sections : List Section} (h : (sections.map Section.name).Nodup) :
    (ofList sections).sections = sections := by
  change (lastOfEach sections).1 = sections
  induction sections with
  | nil => rfl
  | cons t sections ih =>
      obtain ⟨hname, h⟩ := List.nodup_cons.1 h
      have hfresh : ¬(lastOfEach sections).2.contains t.name := by
        rwa [Std.HashSet.contains_iff_mem, mem_names_lastOfEach, ih h]
      rw [lastOfEach_cons, if_neg hfresh, ih h]

theorem get?_eq_some_iff {table : SectionTable} :
    table.get? name = some s ↔ s ∈ table.sections ∧ s.name = name := by
  rw [get?]
  constructor
  · intro h
    exact ⟨List.mem_of_find?_eq_some h, by simpa using List.find?_some h⟩
  · rintro ⟨hmem, rfl⟩
    cases hfound : table.sections.find? (·.name = s.name) with
    | none => exact absurd (List.find?_eq_none.1 hfound s hmem) (by simp)
    | some t =>
        have hname : t.name = s.name := by simpa using List.find?_some hfound
        have hsame : t = s :=
          List.inj_on_of_nodup_map table.nodup (List.mem_of_find?_eq_some hfound) hmem hname
        rw [hsame]

end Testbench.SectionTable
