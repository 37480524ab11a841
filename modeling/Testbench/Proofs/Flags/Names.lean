import Testbench.Proofs.Flags.Decoding

namespace Testbench

theorem nodup_eraseDups (names : List String) : names.eraseDups.Nodup := by
  cases names with
  | nil => exact .nil
  | cons name names =>
      rw [List.eraseDups_cons, List.nodup_cons]
      refine ⟨?_, nodup_eraseDups _⟩
      rw [List.mem_eraseDups, List.mem_filter]
      simp
termination_by names.length
decreasing_by
  exact Nat.lt_succ_of_le (List.length_filter_le ..)

namespace FlagTable

def union (flags : List (String × UInt32)) : UInt32 :=
  flags.foldl (fun bits entry => bits ||| entry.2) 0

theorem sortNames_eq_iff {a b : List String} : sortNames a = sortNames b ↔ a.Perm b := by
  have hperm (names : List String) : (sortNames names).Perm names := List.mergeSort_perm names _
  have hsorted (names : List String) : (sortNames names).Pairwise (· ≤ ·) := by
    have htrans (a b c : String) (hab : decide (a ≤ b) = true) (hbc : decide (b ≤ c) = true) :
        decide (a ≤ c) = true :=
      decide_eq_true (String.le_trans (of_decide_eq_true hab) (of_decide_eq_true hbc))
    have htotal (a b : String) : (decide (a ≤ b) || decide (b ≤ a)) = true := by
      simpa using String.le_total a b
    exact (List.pairwise_mergeSort htrans htotal names).imp of_decide_eq_true
  constructor
  · intro h
    exact (hperm a).symm.trans (h ▸ hperm b)
  · intro h
    refine List.Perm.eq_of_pairwise (fun _ _ _ _ => String.le_antisymm) (hsorted a) (hsorted b) ?_
    exact (hperm a).trans (h.trans (hperm b).symm)

variable {t : FlagTable}

theorem value?_eq_none_iff {name : String} :
    t.value? name = none ↔ name ∉ t.entries.map Prod.fst := by
  rw [value?, List.lookup_eq_none_iff, List.mem_map]
  constructor
  · rintro h ⟨entry, hentry, rfl⟩
    simpa using h entry hentry
  · intro h entry hentry
    exact bne_iff_ne.2 fun heq => h ⟨entry, hentry, heq.symm⟩

theorem mem_of_value?_eq_some {name : String} {bits : UInt32} (h : t.value? name = some bits) :
    name ∈ t.entries.map Prod.fst := by
  by_contra hname
  rw [value?_eq_none_iff.2 hname] at h
  cases h

theorem foldlM_encodeName_isOk_iff {names : List String} {status : UInt32} :
    (∃ bits, names.foldlM t.encodeName status = .ok bits) ↔
      ∀ name ∈ names, name ∈ t.entries.map Prod.fst := by
  induction names generalizing status with
  | nil => simp [pure, Except.pure]
  | cons name names ih =>
      rw [List.foldlM_cons, List.forall_mem_cons, encodeName]
      cases hvalue : t.value? name with
      | none =>
          refine iff_of_false ?_ fun h => value?_eq_none_iff.1 hvalue h.1
          rintro ⟨_, ⟨⟩⟩
      | some bits =>
          exact ih.trans (and_iff_right (mem_of_value?_eq_some hvalue)).symm

theorem exists_flags_of_known {names : List String}
    (h : ∀ name ∈ names, name ∈ t.entries.map Prod.fst) :
    ∃ flags, flags ⊆ t.entries ∧ flags.map Prod.fst = names := by
  induction names with
  | nil => exact ⟨[], List.nil_subset _, rfl⟩
  | cons name names ih =>
      obtain ⟨hname, hnames⟩ := List.forall_mem_cons.1 h
      obtain ⟨flag, hflag, rfl⟩ := List.mem_map.1 hname
      obtain ⟨flags, hflags, rfl⟩ := ih hnames
      exact ⟨flag :: flags, List.cons_subset.2 ⟨hflag, hflags⟩, rfl⟩

section Known

variable {flags : List (String × UInt32)} {list : String}

theorem WellNamed.mem_map_iff (h : t.WellNamed) (hflags : flags ⊆ t.entries)
    {entry : String × UInt32} (hentry : entry ∈ t.entries) :
    entry.1 ∈ flags.map Prod.fst ↔ entry ∈ flags := by
  rw [List.mem_map]
  constructor
  · rintro ⟨other, hother, hname⟩
    rwa [← List.inj_on_of_nodup_map h.nodup (hflags hother) hentry hname]
  · intro hmem
    exact ⟨entry, hmem, rfl⟩

theorem WellNamed.encode_of_known (h : t.WellNamed) (hflags : flags ⊆ t.entries)
    (hlist : flags.map Prod.fst = namesOf list) : t.encode list = .ok (union flags) := by
  rw [encode, ← hlist]
  exact foldlM_encodeName (fun entry hentry => value?_of_mem h.nodup (hflags hentry)) 0

theorem WellNamed.matchesNames_of_known (h : t.WellNamed) (hflags : flags ⊆ t.entries)
    (hlist : flags.map Prod.fst = namesOf list) (status : UInt32) :
    t.matchesNames list status =
      .ok (decide (∀ entry ∈ t.entries, entry ∈ flags ↔ status &&& entry.2 ≠ 0)) := by
  have hsets : sortNames (namesOf list).eraseDups = sortNames (t.decodeNames status) ↔
      ∀ entry ∈ t.entries, entry ∈ flags ↔ status &&& entry.2 ≠ 0 := by
    have hdecoded := h.nodup.sublist (t.decodeNames_sublist status)
    rw [sortNames_eq_iff, List.perm_ext_iff_of_nodup (nodup_eraseDups _) hdecoded, ← hlist]
    simp only [List.mem_eraseDups]
    -- both lists are free of repetitions, so that being permutations is having the same members
    constructor
    · intro hmem entry hentry
      rw [← h.mem_map_iff hflags hentry, ← h.mem_decodeNames_iff hentry, hmem]
    · intro hsame name
      constructor
      · intro hname
        obtain ⟨entry, hmem, rfl⟩ := List.mem_map.1 hname
        exact (h.mem_decodeNames_iff (hflags hmem) status).2 ((hsame entry (hflags hmem)).1 hmem)
      · intro hname
        obtain ⟨entry, hentry, rfl⟩ :=
          List.mem_map.1 ((t.decodeNames_sublist status).subset hname)
        rw [h.mem_decodeNames_iff hentry, ← hsame entry hentry] at hname
        exact List.mem_map_of_mem hname
  rw [matchesNames, h.encode_of_known hflags hlist]
  simp only [bind, Except.bind, pure, Except.pure, hsets]

end Known

end FlagTable

end Testbench
