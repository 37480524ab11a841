import Mathlib.Data.List.Nodup
import Testbench.Trace.Compare

namespace Testbench

structure FlagTable.IsName (name : String) : Prop where
  nonempty : name ≠ ""
  no_comma : ',' ∉ name.toList
  trimmed : Text.trim name.toList = name.toList

instance (name : String) : Decidable (FlagTable.IsName name) :=
  decidable_of_iff (name ≠ "" ∧ ',' ∉ name.toList ∧ Text.trim name.toList = name.toList)
    ⟨fun h => ⟨h.1, h.2.1, h.2.2⟩, fun h => ⟨h.nonempty, h.no_comma, h.trimmed⟩⟩

structure FlagTable.WellNamed (t : FlagTable) : Prop where
  nodup : (t.entries.map Prod.fst).Nodup
  isName : ∀ entry ∈ t.entries, FlagTable.IsName entry.1

instance (t : FlagTable) : Decidable t.WellNamed :=
  decidable_of_iff
    ((t.entries.map Prod.fst).Nodup ∧ ∀ entry ∈ t.entries, FlagTable.IsName entry.1)
    ⟨fun h => ⟨h.1, h.2⟩, fun h => ⟨h.nodup, h.isName⟩⟩

theorem eraseDups_of_nodup {names : List String} (h : names.Nodup) : names.eraseDups = names := by
  induction names with
  | nil => rfl
  | cons name names ih =>
      obtain ⟨hname, hnames⟩ := List.nodup_cons.1 h
      have hkeep : names.filter (fun other => !other == name) = names := by
        rw [List.filter_eq_self]
        intro other hother
        have hne : other ≠ name := fun heq => hname (heq ▸ hother)
        simp [hne]
      rw [List.eraseDups_cons, hkeep, ih hnames]

namespace FlagTable

theorem namesOf_intercalate {names : List String} (h : ∀ name ∈ names, IsName name) :
    namesOf (String.intercalate "," names) = names := by
  have hcomma : ",".toList = [','] := by decide
  have htrim : (names.map String.toList).map Text.trim = names.map String.toList := by
    rw [List.map_map]
    exact List.map_congr_left fun name hname => (h name hname).trimmed
  have hfilter : (names.map String.toList).filter (· ≠ []) = names.map String.toList := by
    rw [List.filter_eq_self]
    intro text htext
    obtain ⟨name, hname, rfl⟩ := List.mem_map.1 htext
    simpa using (h name hname).nonempty
  have hback : (names.map String.toList).map String.ofList = names := by
    simp [Function.comp_def]
  rw [namesOf, String.toList_intercalate, hcomma]
  by_cases hnames : names = []
  · subst hnames
    rfl
  · rw [List.splitOn_intercalate ',' _ (by simpa using hnames), htrim, hfilter, hback]
    intro text htext
    obtain ⟨name, hname, rfl⟩ := List.mem_map.1 htext
    exact (h name hname).no_comma

theorem decodeNames_sublist (t : FlagTable) (status : UInt32) :
    (t.decodeNames status).Sublist (t.entries.map Prod.fst) :=
  List.filter_sublist.map Prod.fst

variable {t : FlagTable}

theorem WellNamed.isName_of_mem (h : t.WellNamed) {status : UInt32} :
    ∀ name ∈ t.decodeNames status, IsName name := by
  intro name hname
  obtain ⟨entry, hentry, rfl⟩ := List.mem_map.1 ((t.decodeNames_sublist status).subset hname)
  exact h.isName entry hentry

theorem WellNamed.namesOf_decode (h : t.WellNamed) (status : UInt32) :
    namesOf (t.decode status) = t.decodeNames status :=
  namesOf_intercalate h.isName_of_mem

theorem WellNamed.mem_decodeNames_iff (h : t.WellNamed) {entry : String × UInt32}
    (hentry : entry ∈ t.entries) (status : UInt32) :
    entry.1 ∈ t.decodeNames status ↔ status &&& entry.2 ≠ 0 := by
  rw [decodeNames, List.mem_map]
  constructor
  · rintro ⟨other, hother, hname⟩
    obtain ⟨hmem, hbits⟩ := List.mem_filter.1 hother
    obtain rfl := List.inj_on_of_nodup_map h.nodup hmem hentry hname
    simpa using hbits
  · intro hbits
    exact ⟨entry, List.mem_filter.2 ⟨hentry, by simpa using hbits⟩, rfl⟩

theorem value?_of_mem {entries : List (String × UInt32)} {name : String}
    (hnodup : (entries.map Prod.fst).Nodup) {entry : String × UInt32} (hentry : entry ∈ entries) :
    value? ⟨name, entries⟩ entry.1 = some entry.2 := by
  induction entries with
  | nil => cases hentry
  | cons first entries ih =>
      obtain ⟨flag, bits⟩ := first
      obtain ⟨hfirst, hrest⟩ := List.nodup_cons.1 hnodup
      rcases List.mem_cons.1 hentry with rfl | hentry
      · simp [value?]
      · have hname : entry.1 ∈ entries.map Prod.fst := List.mem_map_of_mem hentry
        have hne : (entry.1 == flag) = false :=
          beq_eq_false_iff_ne.2 fun heq => hfirst (heq ▸ hname)
        simpa only [value?, List.lookup_cons, hne] using ih hrest hentry

theorem foldlM_encodeName {found : List (String × UInt32)}
    (h : ∀ entry ∈ found, t.value? entry.1 = some entry.2) (status : UInt32) :
    (found.map Prod.fst).foldlM t.encodeName status =
      .ok (found.foldl (fun status entry => status ||| entry.2) status) := by
  induction found generalizing status with
  | nil => rfl
  | cons entry found ih =>
      rw [List.map_cons, List.foldlM_cons, encodeName, h entry List.mem_cons_self]
      exact ih (fun other hother => h other (List.mem_cons_of_mem _ hother)) _

theorem WellNamed.encode_decode (h : t.WellNamed) (status : UInt32) :
    t.encode (t.decode status) =
      .ok ((t.entries.filter fun entry => status &&& entry.2 ≠ 0).foldl
        (fun bits entry => bits ||| entry.2) 0) := by
  rw [encode, h.namesOf_decode]
  exact foldlM_encodeName
    (fun entry hentry => value?_of_mem h.nodup (List.mem_of_mem_filter hentry)) 0

def SameFlags (t : FlagTable) (a b : UInt32) : Prop :=
  ∀ entry ∈ t.entries, (a &&& entry.2 ≠ 0 ↔ b &&& entry.2 ≠ 0)

instance (a b : UInt32) : Decidable (t.SameFlags a b) :=
  inferInstanceAs (Decidable (∀ entry ∈ t.entries, _))

theorem decodeNames_congr {a b : UInt32} (h : t.SameFlags a b) :
    t.decodeNames a = t.decodeNames b := by
  rw [decodeNames, decodeNames]
  refine congrArg _ (List.filter_congr fun entry hentry => ?_)
  exact decide_eq_decide.2 (h entry hentry)

theorem WellNamed.matchesNames_decode (h : t.WellNamed) (a b : UInt32) :
    t.matchesNames (t.decode a) b = .ok (decide (t.SameFlags a b)) := by
  have hnodup : (t.decodeNames a).Nodup := h.nodup.sublist (t.decodeNames_sublist a)
  have hsets : sortNames (t.decodeNames a) = sortNames (t.decodeNames b) ↔ t.SameFlags a b := by
    constructor
    · intro hsorted entry hentry
      have hmem := congrArg (entry.1 ∈ ·) hsorted
      simp only [sortNames, List.mem_mergeSort, eq_iff_iff] at hmem
      rwa [h.mem_decodeNames_iff hentry, h.mem_decodeNames_iff hentry] at hmem
    · intro hsame
      rw [decodeNames_congr hsame]
  rw [matchesNames, h.encode_decode, h.namesOf_decode, eraseDups_of_nodup hnodup]
  simp only [bind, Except.bind, pure, Except.pure, hsets]

end FlagTable

end Testbench
