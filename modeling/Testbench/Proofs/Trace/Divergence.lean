import Testbench.Proofs.Flags.Decoding
import Testbench.Proofs.Trace.Run

namespace Testbench

namespace TraceSettings

/-- A comparing session checks what a generating one has recorded: statuses as numbers, or as names
of one table. -/
structure Fits (generating comparing : TraceSettings) : Prop where
  generates : generating.mode = .generate
  compares : comparing.mode = .compare
  records : generating.format = .raw ∨
    generating.format = .symbolic ∧
      ∃ t : FlagTable, generating.table = some t ∧ comparing.table = some t ∧ t.WellNamed

def SameStatus (s : TraceSettings) (a b : UInt32) : Prop :=
  match s.format with
  | .raw => a = b
  | .symbolic => ∀ t, s.table = some t → t.SameFlags a b

def Agree (s : TraceSettings) (a b : Writeback) : Prop :=
  a.pc = b.pc ∧ a.insn = b.insn ∧ s.SameStatus a.status b.status

def DiffersAt (s : TraceSettings) (a b : Writeback) : TraceField → Prop
  | .pc => a.pc ≠ b.pc
  | .insn => a.pc = b.pc ∧ a.insn ≠ b.insn
  | .status => a.pc = b.pc ∧ a.insn = b.insn ∧ ¬ s.SameStatus a.status b.status

theorem SameStatus.refl (s : TraceSettings) (status : UInt32) : s.SameStatus status status := by
  rw [SameStatus]
  split
  · rfl
  · exact fun _ _ _ _ => Iff.rfl

variable {generating comparing : TraceSettings}

theorem Fits.capture_eq_ok (h : Fits generating comparing) (state : Writeback) :
    ∃ status, generating.capture state = .ok ⟨state.cycle, state.pc, state.insn, status⟩ ∧
      ∀ other, ∃ same, status.agrees comparing.table other = .ok same ∧
        (same = true ↔ generating.SameStatus state.status other) := by
  rcases h.records with hformat | ⟨hformat, t, hgenerating, hcomparing, ht⟩
  · refine ⟨.raw state.status, ?_, fun other => ⟨decide (state.status = other), rfl, ?_⟩⟩
    · simp [capture, status, hformat, Except.map]
    · simp [SameStatus, hformat]
  · refine ⟨.symbolic (t.decode state.status), ?_,
      fun other => ⟨decide (t.SameFlags state.status other), ?_, ?_⟩⟩
    · simp [capture, status, hformat, hgenerating, Except.map]
    · simp only [Status.agrees, hcomparing]
      exact ht.matchesNames_decode state.status other
    · simp [SameStatus, hformat, hgenerating]

end TraceSettings

namespace Record

variable {table : Option FlagTable} {expected : Record} {state : Writeback} {same : Bool}

theorem compare_eq_ok_iff (h : expected.status.agrees table state.status = .ok same) :
    expected.compare table state = .ok () ↔
      expected.pc = state.pc ∧ expected.insn = state.insn ∧ same = true := by
  rw [compare, h]
  by_cases hpc : expected.pc = state.pc <;> by_cases hinsn : expected.insn = state.insn <;>
    cases same <;> simp [hpc, hinsn]

theorem compare_of_pc_ne (hpc : expected.pc ≠ state.pc) :
    expected.compare table state =
      .error (.mismatch expected.cycle .pc (showPc expected.pc) (showPc state.pc)) := by
  rw [compare, if_pos hpc]

theorem compare_of_insn_ne (hpc : expected.pc = state.pc) (hinsn : expected.insn ≠ state.insn) :
    expected.compare table state =
      .error (.mismatch expected.cycle .insn (showInsn expected.insn) (showInsn state.insn)) := by
  rw [compare, if_neg (not_not.2 hpc), if_pos hinsn]

theorem compare_of_status_ne (hpc : expected.pc = state.pc) (hinsn : expected.insn = state.insn)
    (h : expected.status.agrees table state.status = .ok false) :
    expected.compare table state =
      .error (.mismatch expected.cycle .status (expected.status.describe table)
        (describeStatus table state.status)) := by
  rw [compare, if_neg (not_not.2 hpc), if_neg (not_not.2 hinsn), h]

end Record

namespace TraceSettings

variable {generating comparing : TraceSettings}

theorem exists_differsAt {s : TraceSettings} {a b : Writeback} (h : ¬ s.Agree a b) :
    ∃ field, s.DiffersAt a b field := by
  by_cases hpc : a.pc = b.pc
  · by_cases hinsn : a.insn = b.insn
    · exact ⟨.status, hpc, hinsn, fun hstatus => h ⟨hpc, hinsn, hstatus⟩⟩
    · exact ⟨.insn, hpc, hinsn⟩
  · exact ⟨.pc, hpc⟩

theorem Fits.compare_captured (h : Fits generating comparing) {recorded : Writeback} {r : Record}
    (hcapture : generating.capture recorded = .ok r) (state : Writeback) :
    (r.compare comparing.table state = .ok () ↔ generating.Agree recorded state) ∧
      ∀ field, generating.DiffersAt recorded state field → ∃ expected actual,
        r.compare comparing.table state =
          .error (.mismatch recorded.cycle field expected actual) := by
  obtain ⟨status, hrecord, hagrees⟩ := h.capture_eq_ok recorded
  obtain ⟨same, hsame, hiff⟩ := hagrees state.status
  rw [hcapture] at hrecord
  cases hrecord
  refine ⟨?_, fun field hfield => ?_⟩
  · rw [Record.compare_eq_ok_iff hsame, hiff]
    rfl
  · cases field with
    | pc => exact ⟨_, _, Record.compare_of_pc_ne hfield⟩
    | insn => exact ⟨_, _, Record.compare_of_insn_ne hfield.1 hfield.2⟩
    | status =>
        obtain ⟨hpc, hinsn, hstatus⟩ := hfield
        have hfalse : same = false := Bool.eq_false_iff.2 fun htrue => hstatus (hiff.1 htrue)
        exact ⟨_, _, Record.compare_of_status_ne hpc hinsn (hfalse ▸ hsame)⟩

theorem Fits.forall₂_captured (h : Fits generating comparing) (steps : List (Nat × Writeback)) :
    List.Forall₂ (fun step r => generating.capture step.2 = .ok r) steps
      (TraceSession.captured generating steps) := by
  induction steps with
  | nil => exact .nil
  | cons step steps ih =>
      obtain ⟨status, hcapture, -⟩ := h.capture_eq_ok step.2
      rw [TraceSession.captured, List.filterMap_cons, hcapture]
      exact .cons hcapture ih

end TraceSettings

namespace TraceSession

variable {generating comparing : TraceSettings} {session : TraceSession}
  {recorded : List (Nat × Writeback)} {index : Nat}

theorem step_compare_of_recorded (h : TraceSettings.Fits generating comparing)
    (hsettings : session.settings = comparing)
    (hrecords : session.trace.records.toList = captured generating recorded)
    {entry : Nat × Writeback} (hentry : recorded[index]? = some entry) (state : Writeback) :
    ∃ r, generating.capture entry.2 = .ok r ∧
      (session.step index state).2 = r.compare comparing.table state := by
  obtain ⟨hindex, rfl⟩ := List.getElem?_eq_some_iff.1 hentry
  have hall := h.forall₂_captured recorded
  have hindex' := hall.length_eq ▸ hindex
  refine ⟨_, hall.get hindex hindex', ?_⟩
  rw [step_compare (hsettings ▸ h.compares), Trace.get?, ← Array.getElem?_toList, hrecords]
  rw [List.getElem?_eq_getElem hindex', hsettings]
  rfl

theorem step_compare_of_exhausted (h : TraceSettings.Fits generating comparing)
    (hsettings : session.settings = comparing)
    (hrecords : session.trace.records.toList = captured generating recorded)
    (hentry : recorded[index]? = none) (state : Writeback) :
    (session.step index state).2 = .error (.exhausted index recorded.length) := by
  have hlength := (h.forall₂_captured recorded).length_eq
  have hnone : (captured generating recorded)[index]? = none := by
    rw [List.getElem?_eq_none_iff] at hentry ⊢
    exact hlength ▸ hentry
  rw [step_compare (hsettings ▸ h.compares), Trace.get?, ← Array.getElem?_toList, hrecords, hnone]
  rw [Trace.size, ← Array.length_toList, hrecords, ← hlength]

/-- A step that compares accepts the states that agree with what was recorded at its index, and
names the first field in which another one differs, whatever was checked before. -/
theorem step_compare_generated (h : TraceSettings.Fits generating comparing) (file : String)
    (recorded : List (Nat × Writeback)) {session : TraceSession}
    (hsettings : session.settings = comparing)
    (htrace : session.trace = ((TraceSession.mk generating .empty file).run recorded).1.trace)
    (before : List (Nat × Writeback)) (index : Nat) (state : Writeback) :
    ((session.run before).1.step index state).2 = (session.step index state).2 ∧
      match recorded[index]? with
      | none => (session.step index state).2 = .error (.exhausted index recorded.length)
      | some (_, s) =>
          ((session.step index state).2 = .ok () ↔ generating.Agree s state) ∧
            (¬ generating.Agree s state → ∃ field expected actual,
              generating.DiffersAt s state field ∧
                (session.step index state).2 =
                  .error (.mismatch s.cycle field expected actual)) := by
  rw [run_generate h.generates] at htrace
  have hrecords : session.trace.records.toList = captured generating recorded := by
    simp [htrace, Trace.empty]
  refine ⟨by rw [run_compare (hsettings ▸ h.compares)], ?_⟩
  split
  · next hentry => exact step_compare_of_exhausted h hsettings hrecords hentry state
  · next i s hentry =>
      obtain ⟨r, hcapture, hstep⟩ := step_compare_of_recorded h hsettings hrecords hentry state
      obtain ⟨haccept, hreject⟩ := h.compare_captured hcapture state
      rw [hstep]
      refine ⟨haccept, fun hdisagree => ?_⟩
      obtain ⟨field, hfield⟩ := TraceSettings.exists_differsAt hdisagree
      obtain ⟨expected, actual, herror⟩ := hreject field hfield
      exact ⟨field, expected, actual, hfield, herror⟩

def overlappingFlags : FlagTable :=
  ⟨"cycle_status_e", [("STALL", 1), ("DIV", 3), ("NONE", 0)]⟩

theorem step_compare_generated_overlapping :
    let reference : TraceSession :=
      ⟨⟨.compare, .raw, some overlappingFlags⟩,
        ((TraceSession.mk ⟨.generate, .symbolic, some overlappingFlags⟩ .empty "t").run
          [(0, ⟨4, 8, 0x13, 9⟩)]).1.trace, "t"⟩
    (reference.step 0 ⟨5, 8, 0x13, 3⟩).2 = .ok () ∧
      (∃ expected actual, (reference.step 0 ⟨5, 8, 0x13, 2⟩).2 =
        .error (.mismatch 4 .status expected actual)) ∧
      (reference.step 1 ⟨5, 8, 0x13, 3⟩).2 = .error (.exhausted 1 1) := by
  intro reference
  have hfits : TraceSettings.Fits ⟨.generate, .symbolic, some overlappingFlags⟩
      ⟨.compare, .raw, some overlappingFlags⟩ :=
    ⟨rfl, rfl, .inr ⟨rfl, overlappingFlags, rfl, rfl, by decide +kernel⟩⟩
  have h (index : Nat) (state : Writeback) :=
    step_compare_generated hfits "t" [(0, ⟨4, 8, 0x13, 9⟩)] (rfl : reference.settings = _) rfl []
      index state
  have hsame (a b : UInt32) :
      TraceSettings.SameStatus ⟨.generate, .symbolic, some overlappingFlags⟩ a b ↔
        overlappingFlags.SameFlags a b :=
    ⟨fun h => h _ rfl, fun h _ ht => Option.some.inj ht ▸ h⟩
  refine ⟨(h 0 _).2.1.2 ⟨rfl, rfl, (hsame _ _).2 (by decide)⟩, ?_, (h 1 _).2⟩
  have hdiffers : ¬ overlappingFlags.SameFlags 9 2 := by decide
  obtain ⟨field, expected, actual, hfield, herror⟩ :=
    (h 0 ⟨5, 8, 0x13, 2⟩).2.2 fun hagree => hdiffers ((hsame _ _).1 hagree.2.2)
  cases field with
  | pc => exact absurd rfl hfield
  | insn => exact absurd rfl hfield.2
  | status => exact ⟨expected, actual, herror⟩

end TraceSession

end Testbench
