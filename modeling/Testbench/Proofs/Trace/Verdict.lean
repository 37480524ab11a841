import Testbench.Proofs.Flags.NameList
import Testbench.Proofs.Trace.Divergence

namespace Testbench

/-- Two results of a check that are alike but for what is printed of the listed names. -/
inductive SameVerdict : Except TraceError Unit → Except TraceError Unit → Prop where
  | accepted : SameVerdict (.ok ()) (.ok ())
  | mismatch (cycle : UInt64) (field : TraceField) (expected expected' actual : String) :
      SameVerdict (.error (.mismatch cycle field expected actual))
        (.error (.mismatch cycle field expected' actual))
  | unknownFlag (flag flag' table : String) :
      SameVerdict (.error (.unknownFlag flag table)) (.error (.unknownFlag flag' table))

namespace FlagTable

variable {t : FlagTable} {a b list : String} {status : UInt32}

theorem sortNames_namesOf_congr (h : ∀ name, Lists a name ↔ Lists b name) :
    sortNames (namesOf a).eraseDups = sortNames (namesOf b).eraseDups := by
  rw [sortNames_eq_iff, List.perm_ext_iff_of_nodup (nodup_eraseDups _) (nodup_eraseDups _)]
  simpa only [List.mem_eraseDups, ← lists_iff] using h

theorem matchesNames_eq_true_iff :
    t.matchesNames list status = .ok true ↔
      (t.decodeNames status).Nodup ∧ ∀ name, Lists list name ↔ name ∈ t.decodeNames status := by
  have hsame : sortNames (namesOf list).eraseDups = sortNames (t.decodeNames status) ↔
      (t.decodeNames status).Nodup ∧ ∀ name, Lists list name ↔ name ∈ t.decodeNames status := by
    rw [sortNames_eq_iff]
    simp only [lists_iff, ← List.mem_eraseDups (l := namesOf list)]
    constructor
    · intro hperm
      exact ⟨hperm.nodup_iff.1 (nodup_eraseDups _), fun name => hperm.mem_iff⟩
    · rintro ⟨hnodup, hmem⟩
      exact (List.perm_ext_iff_of_nodup (nodup_eraseDups _) hnodup).2 hmem
  rw [← hsame, matchesNames]
  rcases t.encode_cases list with ⟨-, bits, hencode⟩ | ⟨hunknown, flag, hencode⟩
  · simp [hencode, bind, Except.bind, pure, Except.pure]
  · rw [hencode]
    refine iff_of_false (fun hok => by cases hok) fun hsorted => hunknown fun name hname => ?_
    exact (t.decodeNames_sublist status).subset (((hsame.1 hsorted).2 name).1 hname)

theorem matchesNames_congr (h : ∀ name, Lists a name ↔ Lists b name) (t : FlagTable)
    (status : UInt32) :
    (∃ same, t.matchesNames a status = .ok same ∧ t.matchesNames b status = .ok same) ∨
      ∃ flag flag', t.matchesNames a status = .error (.unknownFlag flag t.name) ∧
        t.matchesNames b status = .error (.unknownFlag flag' t.name) := by
  have hknown : (∀ name, Lists a name → name ∈ t.entries.map Prod.fst) ↔
      ∀ name, Lists b name → name ∈ t.entries.map Prod.fst := by
    simp only [h]
  rw [matchesNames, matchesNames, sortNames_namesOf_congr h]
  rcases t.encode_cases a with ⟨ha, bits, hencode⟩ | ⟨ha, flag, hencode⟩
  · rcases t.encode_cases b with ⟨-, bits', hencode'⟩ | ⟨hb, -⟩
    · rw [hencode, hencode']
      exact .inl ⟨_, rfl, rfl⟩
    · exact absurd (hknown.1 ha) hb
  · rcases t.encode_cases b with ⟨hb, -⟩ | ⟨-, flag', hencode'⟩
    · exact absurd (hknown.2 hb) ha
    -- which unknown flag comes first depends on the order, so the two may differ
    · rw [hencode, hencode']
      exact .inr ⟨flag, flag', rfl, rfl⟩

end FlagTable

namespace Record

variable {a b : String}

theorem compare_symbolic_eq_ok_iff (t : FlagTable) (expected : Record) (state : Writeback) :
    Record.compare (some t) { expected with status := .symbolic a } state = .ok () ↔
      expected.pc = state.pc ∧ expected.insn = state.insn ∧ (t.decodeNames state.status).Nodup ∧
        ∀ name, FlagTable.Lists a name ↔ name ∈ t.decodeNames state.status := by
  rw [← FlagTable.matchesNames_eq_true_iff, compare]
  simp only [Status.agrees]
  by_cases hpc : expected.pc = state.pc
  · by_cases hinsn : expected.insn = state.insn
    · rcases t.matchesNames a state.status with e | same
      · simp [hpc, hinsn]
      · cases same <;> simp [hpc, hinsn]
    · simp [hpc, hinsn]
  · simp [hpc]

/-- Of a list of names, only which names it has decides what a check says. -/
theorem compare_of_sameNames (h : ∀ name, FlagTable.Lists a name ↔ FlagTable.Lists b name)
    (t : FlagTable) (expected : Record) (state : Writeback) :
    SameVerdict (Record.compare (some t) { expected with status := .symbolic a } state)
        (Record.compare (some t) { expected with status := .symbolic b } state) ∧
      (Record.compare (some t) { expected with status := .symbolic a } state = .ok () ↔
        expected.pc = state.pc ∧ expected.insn = state.insn ∧ (t.decodeNames state.status).Nodup ∧
          ∀ name, FlagTable.Lists a name ↔ name ∈ t.decodeNames state.status) := by
  refine ⟨?_, compare_symbolic_eq_ok_iff t expected state⟩
  rw [compare, compare]
  split
  · exact .mismatch ..
  · split
    · exact .mismatch ..
    · simp only [Status.agrees]
      rcases FlagTable.matchesNames_congr h t state.status with
        ⟨same, ha, hb⟩ | ⟨flag, flag', ha, hb⟩
      · rw [ha, hb]
        cases same
        · exact .mismatch ..
        · exact .accepted
      · rw [ha, hb]
        exact .unknownFlag ..

def repeatedFlags : FlagTable :=
  ⟨"cycle_status_e", [("STALL", 1), ("STALL", 2), ("DIV", 4)]⟩

theorem compare_of_sameNames_repeated :
    let check (names : String) (status : UInt32) :=
      Record.compare (some repeatedFlags) ⟨7, 8, 0x13, .symbolic names⟩ ⟨9, 8, 0x13, status⟩
    (check "DIV , STALL" 5 = .ok () ∧
      SameVerdict (check "DIV , STALL" 5) (check "STALL,,DIV,STALL" 5)) ∧
    (check "DIV , STALL" 7 ≠ .ok () ∧
      SameVerdict (check "DIV , STALL" 7) (check "STALL,,DIV,STALL" 7)) ∧
    (check "HALT,WAIT" 5 = .error (.unknownFlag "HALT" "cycle_status_e") ∧
      check "WAIT,HALT" 5 = .error (.unknownFlag "WAIT" "cycle_status_e") ∧
      SameVerdict (check "HALT,WAIT" 5) (check "WAIT,HALT" 5)) := by
  intro check
  have hknown (name : String) :
      FlagTable.Lists "DIV , STALL" name ↔ FlagTable.Lists "STALL,,DIV,STALL" name :=
    (FlagTable.lists_iff_mem_of_subset (by decide +kernel) (by decide +kernel) name).trans
      FlagTable.lists_iff.symm
  have hunknown (name : String) :
      FlagTable.Lists "HALT,WAIT" name ↔ FlagTable.Lists "WAIT,HALT" name :=
    (FlagTable.lists_iff_mem_of_subset (by decide +kernel) (by decide +kernel) name).trans
      FlagTable.lists_iff.symm
  have hverdict (status : UInt32) :=
    compare_of_sameNames hknown repeatedFlags ⟨7, 8, 0x13, .raw 0⟩ ⟨9, 8, 0x13, status⟩
  refine ⟨⟨?_, (hverdict 5).1⟩, ⟨?_, (hverdict 7).1⟩, ?_, ?_, ?_⟩
  · exact (hverdict 5).2.2 ⟨rfl, rfl, by decide +kernel,
      FlagTable.lists_iff_mem_of_subset (by decide +kernel) (by decide +kernel)⟩
  · intro haccept
    exact absurd ((hverdict 7).2.1 haccept).2.2.1 (by decide +kernel)
  · decide +kernel
  · decide +kernel
  · exact (compare_of_sameNames hunknown repeatedFlags ⟨7, 8, 0x13, .raw 0⟩ ⟨9, 8, 0x13, 5⟩).1

end Record

end Testbench
