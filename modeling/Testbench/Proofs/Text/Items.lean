import Testbench.Proofs.Text.Trimming

namespace Testbench.Text

structure IsItem (item : List Char) : Prop where
  nonempty : item ≠ []
  no_comma : ',' ∉ item
  trimmed : trim item = item

inductive Place : List (List Char) → List Char → Prop where
  | blank {gap : List Char} (hgap : Blanks gap) : Place [] gap
  | item {before item after : List Char} (hitem : IsItem item) (hbefore : Blanks before)
      (hafter : Blanks after) : Place [item] (before ++ (item ++ after))

inductive Itemizes : List (List Char) → List Char → Prop where
  | last {found : List (List Char)} {text : List Char} (h : Place found text) : Itemizes found text
  | next {found others : List (List Char)} {text rest : List Char} (h : Place found text)
      (hrest : Itemizes others rest) : Itemizes (found ++ others) (text ++ ',' :: rest)

def items (text : List Char) : List (List Char) :=
  ((text.splitOn ',').map trim).filter (· ≠ [])

variable {text : List Char} {found : List (List Char)}

theorem items_append_comma (h : ',' ∉ text) (rest : List Char) :
    items (text ++ ',' :: rest) = items text ++ items rest := by
  simp only [items, List.splitOn_append_cons_self_of_not_mem h, List.splitOn_eq_singleton h,
    List.map_cons, List.map_nil, ← List.filter_append, List.singleton_append]

theorem items_of_trim_eq_nil (hcomma : ',' ∉ text) (h : trim text = []) : items text = [] := by
  rw [items, List.splitOn_eq_singleton hcomma, List.map_singleton, h]
  rfl

theorem items_of_trim_ne_nil (hcomma : ',' ∉ text) (h : trim text ≠ []) :
    items text = [trim text] := by
  rw [items, List.splitOn_eq_singleton hcomma, List.map_singleton, List.filter_cons,
    if_pos (decide_eq_true h), List.filter_nil]

theorem Place.items_eq (h : Place found text) : ',' ∉ text ∧ items text = found := by
  cases h with
  | blank hgap =>
      have hcomma := hgap.notMem (c := ',') (by decide)
      exact ⟨hcomma, items_of_trim_eq_nil hcomma (trim_of_blanks hgap)⟩
  | @item before item after hitem hbefore hafter =>
      have hcomma : ',' ∉ before ++ (item ++ after) := by
        simp [hbefore.notMem (c := ',') (by decide), hafter.notMem (c := ',') (by decide),
          hitem.no_comma]
      have htrim : trim (before ++ (item ++ after)) = item := by
        rw [trim_surrounded hbefore hafter, hitem.trimmed]
      have hne : trim (before ++ (item ++ after)) ≠ [] := by
        rw [htrim]
        exact hitem.nonempty
      refine ⟨hcomma, ?_⟩
      rw [items_of_trim_ne_nil hcomma hne, htrim]

theorem place_items (hcomma : ',' ∉ text) : Place (items text) text := by
  obtain ⟨before, after, hbefore, hafter, hsplit⟩ := exists_surrounded text
  by_cases h : trim text = []
  · have hblank : Blanks text := by
      rw [hsplit, h, List.nil_append]
      exact fun c hc => (List.mem_append.1 hc).elim (hbefore c) (hafter c)
    rw [items_of_trim_eq_nil hcomma h]
    exact .blank hblank
  · have hitem : IsItem (trim text) := by
      refine ⟨h, fun hmem => hcomma ?_, trim_trim text⟩
      rw [hsplit]
      simp [hmem]
    have hplace : Place [trim text] (before ++ (trim text ++ after)) := .item hitem hbefore hafter
    rwa [← hsplit, ← items_of_trim_ne_nil hcomma h] at hplace

theorem items_of_itemizes (h : Itemizes found text) : items text = found := by
  induction h with
  | last h => exact h.items_eq.2
  | next h _ ih =>
      obtain ⟨hcomma, hitems⟩ := h.items_eq
      rw [items_append_comma hcomma, hitems, ih]

theorem itemizes_items (text : List Char) : Itemizes (items text) text := by
  by_cases hcomma : ',' ∈ text
  -- the recursion goes on behind the first comma
  · obtain ⟨first, rest, hsplit, hfirst⟩ := List.eq_append_cons_of_mem hcomma
    have hshorter : rest.length < text.length := by
      rw [hsplit, List.length_append, List.length_cons]
      omega
    rw [hsplit, items_append_comma hfirst]
    exact .next (place_items hfirst) (itemizes_items rest)
  · exact .last (place_items hcomma)
termination_by text.length

theorem itemizes_iff : Itemizes found text ↔ items text = found := by
  constructor
  · exact items_of_itemizes
  · rintro rfl
    exact itemizes_items text

end Testbench.Text
