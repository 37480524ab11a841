import Std.Data.HashSet
import Testbench.Section.Basic

namespace Testbench

structure SectionTable where
  sections : List Section
  nodup : (sections.map Section.name).Nodup

namespace SectionTable

def empty : SectionTable :=
  ⟨[], by simp⟩

def insert (t : SectionTable) (s : Section) : SectionTable where
  sections := t.sections.filter (·.name ≠ s.name) ++ [s]
  nodup := by
    have h : ((t.sections.filter (·.name ≠ s.name)).map Section.name).Nodup :=
      t.nodup.sublist (List.filter_sublist.map _)
    simp only [List.map_append, List.map_cons, List.map_nil, List.nodup_append]
    refine ⟨h, by simp, ?_⟩
    intro name hname name' hname'
    simp at hname hname'
    obtain ⟨section', ⟨_, hne⟩, rfl⟩ := hname
    exact hname' ▸ hne

def lastOfEach (sections : List Section) : List Section × Std.HashSet String :=
  sections.foldr
    (fun s (kept, names) =>
      if names.contains s.name then (kept, names) else (s :: kept, names.insert s.name))
    ([], ∅)

theorem mem_names_lastOfEach (sections : List Section) (name : String) :
    name ∈ (lastOfEach sections).2 ↔ name ∈ (lastOfEach sections).1.map Section.name := by
  induction sections with
  | nil => simp [lastOfEach]
  | cons s sections ih =>
      simp only [lastOfEach, List.foldr_cons] at ih ⊢
      split
      · exact ih
      · simp only [Std.HashSet.mem_insert, beq_iff_eq, List.map_cons, List.mem_cons, ih]
        exact or_congr_left eq_comm

theorem nodup_lastOfEach (sections : List Section) :
    ((lastOfEach sections).1.map Section.name).Nodup := by
  induction sections with
  | nil => simp [lastOfEach]
  | cons s sections ih =>
      have hmem := mem_names_lastOfEach sections s.name
      simp only [lastOfEach, List.foldr_cons] at ih hmem ⊢
      split
      · exact ih
      · next hname =>
          rw [Std.HashSet.contains_iff_mem, hmem] at hname
          exact List.nodup_cons.2 ⟨hname, ih⟩

def ofList (sections : List Section) : SectionTable :=
  ⟨(lastOfEach sections).1, nodup_lastOfEach sections⟩

def get? (t : SectionTable) (name : String) : Option Section :=
  t.sections.find? (·.name = name)

theorem name_of_get? {t : SectionTable} {name : String} {s : Section}
    (h : t.get? name = some s) : s.name = name := by
  simpa using List.find?_some h

@[simp] theorem get?_empty (name : String) : empty.get? name = none := rfl

theorem get?_insert (t : SectionTable) (s : Section) (name : String) :
    (t.insert s).get? name = if s.name = name then some s else t.get? name := by
  simp only [get?, insert, List.find?_append, List.find?_filter, decide_eq_true_eq]
  by_cases h : s.name = name
  · subst h
    rw [List.find?_eq_none.2 (by simp)]
    simp
  · have hsame : (fun a : Section => decide (a.name ≠ s.name ∧ a.name = name)) =
        fun a => decide (a.name = name) := by
      funext a
      by_cases ha : a.name = name
      · simp [ha, Ne.symm h]
      · simp [ha]
    rw [hsame]
    simp [h]

theorem find?_lastOfEach (sections : List Section) (name : String) :
    (lastOfEach sections).1.find? (·.name = name) = sections.reverse.find? (·.name = name) := by
  induction sections with
  | nil => rfl
  | cons s sections ih =>
      have hmem := mem_names_lastOfEach sections name
      rw [List.reverse_cons, List.find?_append, ← ih]
      simp only [lastOfEach, List.foldr_cons] at ih hmem ⊢
      split
      · next hname =>
          by_cases h : s.name = name
          · subst h
            rw [Std.HashSet.contains_iff_mem, hmem, List.mem_map] at hname
            obtain ⟨s', hs', heq⟩ := hname
            rw [Option.or_of_isSome]
            exact List.find?_isSome.2 ⟨s', hs', by simpa using heq⟩
          · simp [h]
      · next hname =>
          by_cases h : s.name = name
          · subst h
            rw [Std.HashSet.contains_iff_mem, hmem, List.mem_map] at hname
            rw [List.find?_cons_of_pos (by simp), List.find?_eq_none.2]
            · simp
            · intro s' hs' heq
              exact hname ⟨s', hs', by simpa using heq⟩
          · simp [h]

theorem get?_ofList (sections : List Section) (name : String) :
    (ofList sections).get? name = sections.reverse.find? (·.name = name) :=
  find?_lastOfEach sections name

def contains (t : SectionTable) (name : String) : Bool :=
  (t.get? name).isSome

def size (t : SectionTable) : Nat :=
  t.sections.length

def isEmpty (t : SectionTable) : Bool :=
  t.sections.isEmpty

def precedes (a b : Section) : Bool :=
  a.index < b.index || (a.index = b.index && a.name ≤ b.name)

def toList (t : SectionTable) : List Section :=
  t.sections.mergeSort precedes

theorem mem_toList {t : SectionTable} {s : Section} : s ∈ t.toList ↔ s ∈ t.sections := by
  simp [toList]

end SectionTable

end Testbench
