import Testbench.Proofs.Flags.Bits
import Testbench.Proofs.Trace.Divergence
import Testbench.Proofs.Traversal

namespace Testbench

variable {t : FlagTable}

namespace Status

def Known (t : FlagTable) : Status → Prop
  | .raw _ => True
  | .symbolic list => ∀ name ∈ FlagTable.namesOf list, name ∈ t.entries.map Prod.fst

/-- A status in names is silent on the bits that belong to no flag. -/
def AccountsFor (t : FlagTable) (bits : UInt32) : Status → Prop
  | .raw _ => True
  | .symbolic _ => t.Covers bits

instance : DecidablePred (Known t) := fun s =>
  match s with
  | .raw _ => inferInstanceAs (Decidable True)
  | .symbolic list =>
      inferInstanceAs (Decidable (∀ name ∈ FlagTable.namesOf list, name ∈ t.entries.map Prod.fst))

instance (bits : UInt32) : DecidablePred (AccountsFor t bits) := fun s =>
  match s with
  | .raw _ => inferInstanceAs (Decidable True)
  | .symbolic _ => inferInstanceAs (Decidable (t.Covers bits))

theorem exists_bits_iff {s : Status} : (∃ bits, s.bits (some t) = .ok bits) ↔ s.Known t := by
  cases s with
  | raw bits => simp [Status.bits, Known]
  | symbolic list => exact FlagTable.foldlM_encodeName_isOk_iff

theorem agrees_of_bits (hnames : t.WellNamed) (hbits : t.OneBitEach) {s : Status}
    {bits : UInt32} (h : s.bits (some t) = .ok bits) (seen : UInt32) :
    ∃ same, s.agrees (some t) seen = .ok same ∧
      (bits = seen ↔ same = true ∧ s.AccountsFor t seen) := by
  cases s with
  | raw own =>
      obtain rfl : own = bits := Except.ok.inj h
      exact ⟨decide (own = seen), rfl, by simp [AccountsFor]⟩
  | symbolic list =>
      have hknown : (Status.symbolic list).Known t := exists_bits_iff.1 ⟨bits, h⟩
      obtain ⟨flags, hflags, hlist⟩ := FlagTable.exists_flags_of_known hknown
      have hunion : FlagTable.union flags = bits :=
        Except.ok.inj ((hnames.encode_of_known hflags hlist).symm.trans h)
      refine ⟨_, hnames.matchesNames_of_known hflags hlist seen, ?_⟩
      rw [← hunion, hbits.union_eq_iff hflags, decide_eq_true_iff]
      rfl

end Status

structure Record.Migrates (t : FlagTable) (original migrated : Record) : Prop where
  cycle_eq : migrated.cycle = original.cycle
  pc_eq : migrated.pc = original.pc
  insn_eq : migrated.insn = original.insn
  exists_raw : ∃ bits, migrated.status = .raw bits
  eq_of_raw : ∀ bits, original.status = .raw bits → migrated = original
  accepts_iff : ∀ table state, migrated.compare table state = .ok () ↔
    original.compare (some t) state = .ok () ∧ original.status.AccountsFor t state.status

namespace Trace

variable {r migrated : Record}

theorem migrateRecord_eq_ok_iff :
    migrateRecord t r = .ok migrated ↔
      ∃ bits, r.status.bits (some t) = .ok bits ∧ migrated = { r with status := .raw bits } := by
  rw [migrateRecord]
  cases r.status.bits (some t) <;> simp [Except.map, eq_comm]

theorem exists_migrateRecord_iff :
    (∃ migrated, migrateRecord t r = .ok migrated) ↔ r.status.Known t := by
  simp only [migrateRecord_eq_ok_iff, ← Status.exists_bits_iff]
  exact ⟨fun ⟨_, bits, hbits, _⟩ => ⟨bits, hbits⟩, fun ⟨bits, hbits⟩ => ⟨_, bits, hbits, rfl⟩⟩

theorem migrates_of_migrateRecord (hnames : t.WellNamed) (hbits : t.OneBitEach)
    (h : migrateRecord t r = .ok migrated) : r.Migrates t migrated := by
  obtain ⟨bits, hstatus, rfl⟩ := migrateRecord_eq_ok_iff.1 h
  refine ⟨rfl, rfl, rfl, ⟨bits, rfl⟩, fun own hown => ?_, fun table state => ?_⟩
  · rw [hown] at hstatus
    rw [← Except.ok.inj hstatus, ← hown]
  · obtain ⟨same, hagrees, hsame⟩ := Status.agrees_of_bits hnames hbits hstatus state.status
    have hraw : (Status.raw bits).agrees table state.status = .ok (decide (bits = state.status)) :=
      rfl
    rw [Record.compare_eq_ok_iff hraw, Record.compare_eq_ok_iff hagrees, decide_eq_true_iff, hsame]
    simp only [and_assoc]

theorem migrate_eq_ok_iff {trace result : Trace} :
    migrate t trace = .ok result ↔
      trace.records.toList.mapM (migrateRecord t) = .ok result.records.toList := by
  rw [migrate]
  cases trace.records.toList.mapM (migrateRecord t) with
  | error e => simp [Except.map]
  | ok records =>
      obtain ⟨own⟩ := result
      simp [Except.map, ← Array.toList_inj]

theorem exists_migrate_iff {trace : Trace} :
    (∃ result, migrate t trace = .ok result) ↔ ∀ r ∈ trace.records, r.status.Known t := by
  have hrecords : (∃ result, migrate t trace = .ok result) ↔
      ∃ records, trace.records.toList.mapM (migrateRecord t) = .ok records := by
    simp only [migrate_eq_ok_iff]
    constructor
    · rintro ⟨result, h⟩
      exact ⟨result.records.toList, h⟩
    · rintro ⟨records, h⟩
      exact ⟨⟨records.toArray⟩, h⟩
  rw [hrecords, exists_mapM_eq_ok_iff]
  simp only [exists_migrateRecord_iff, Array.mem_toList_iff]

theorem forall₂_migrateRecord_captured (hnames : t.WellNamed) (hbits : t.OneBitEach)
    (other : Option FlagTable) {steps : List (Nat × Writeback)}
    (hcovers : ∀ step ∈ steps, t.Covers step.2.status) :
    List.Forall₂ (fun r migrated => migrateRecord t r = .ok migrated)
      (TraceSession.captured ⟨.generate, .symbolic, some t⟩ steps)
      (TraceSession.captured ⟨.generate, .raw, other⟩ steps) := by
  induction steps with
  | nil => exact .nil
  | cons step steps ih =>
      obtain ⟨hstep, hsteps⟩ := List.forall_mem_cons.1 hcovers
      refine .cons (migrateRecord_eq_ok_iff.2 ⟨step.2.status, ?_, rfl⟩) (ih hsteps)
      refine (hnames.encode_decode step.2.status).trans (congrArg Except.ok ?_)
      -- the names of a status stand for all of it, since none of its bits is without a flag
      refine (hbits.union_eq_iff List.filter_sublist.subset).2 ⟨fun entry hentry => ?_, hstep⟩
      rw [List.mem_filter, decide_eq_true_iff, and_iff_right hentry]

/-- A trace can be migrated when its names are flags of the table; each record then accepts the
states it accepted, but for bits that belong to no flag. -/
theorem migrate_preserves_checks (hnames : t.WellNamed) (hbits : t.OneBitEach) (trace : Trace) :
    ((∃ migrated, migrate t trace = .ok migrated) ↔ ∀ r ∈ trace.records, r.status.Known t) ∧
      (∀ migrated, migrate t trace = .ok migrated →
        List.Forall₂ (Record.Migrates t) trace.records.toList migrated.records.toList) ∧
      ∀ (steps : List (Nat × Writeback)) (file : String) (other : Option FlagTable),
        (∀ step ∈ steps, t.Covers step.2.status) →
          migrate t
              ((TraceSession.mk ⟨.generate, .symbolic, some t⟩ .empty file).run steps).1.trace =
            .ok ((TraceSession.mk ⟨.generate, .raw, other⟩ .empty file).run steps).1.trace := by
  refine ⟨exists_migrate_iff, fun migrated h => ?_, fun steps file other hcovers => ?_⟩
  · exact (mapM_eq_ok_iff.1 (migrate_eq_ok_iff.1 h)).imp fun _ _ =>
      migrates_of_migrateRecord hnames hbits
  · rw [TraceSession.run_generate rfl, TraceSession.run_generate rfl, migrate_eq_ok_iff,
      mapM_eq_ok_iff]
    simpa [empty] using forall₂_migrateRecord_captured hnames hbits other hcovers

def cycleFlags : FlagTable :=
  ⟨"cycle_status_e", [("STALL", 8), ("RETIRE", 1)]⟩

def bothFlags : Record :=
  ⟨3, 0x80, 0x13, .symbolic " RETIRE ,STALL,,RETIRE"⟩

theorem migrate_preserves_checks_reordered :
    (∃ first second, migrate cycleFlags ⟨#[bothFlags, ⟨4, 0x84, 0x13, .raw 0x12⟩]⟩ =
        .ok ⟨#[first, second]⟩ ∧
      first.compare none ⟨5, 0x80, 0x13, 9⟩ = .ok () ∧
      bothFlags.compare (some cycleFlags) ⟨5, 0x80, 0x13, 0x19⟩ = .ok () ∧
      first.compare none ⟨5, 0x80, 0x13, 0x19⟩ ≠ .ok () ∧
      second = ⟨4, 0x84, 0x13, .raw 0x12⟩) ∧
    (¬ ∃ migrated, migrate cycleFlags ⟨#[⟨3, 0x80, 0x13, .symbolic "STALL,DIV"⟩]⟩ = .ok migrated) ∧
    migrate cycleFlags ((TraceSession.mk ⟨.generate, .symbolic, some cycleFlags⟩ .empty "t").run
        [(0, ⟨3, 0x80, 0x13, 9⟩), (1, ⟨4, 0x84, 0x13, 0⟩)]).1.trace =
      .ok ⟨#[⟨3, 0x80, 0x13, .raw 9⟩, ⟨4, 0x84, 0x13, .raw 0⟩]⟩ := by
  have hnames : cycleFlags.WellNamed := by decide +kernel
  have h (trace : Trace) := migrate_preserves_checks hnames (by decide) trace
  have hagrees (seen : UInt32) : bothFlags.status.agrees (some cycleFlags) seen =
      .ok (decide (∀ entry ∈ cycleFlags.entries,
        entry ∈ [("RETIRE", 1), ("STALL", 8), ("RETIRE", 1)] ↔ seen &&& entry.2 ≠ 0)) :=
    hnames.matchesNames_of_known (by decide) (by decide +kernel) seen
  refine ⟨?_, ?_, (h .empty).2.2 _ "t" none (by decide)⟩
  · obtain ⟨⟨⟨records⟩⟩, hmigrated⟩ :=
      (h ⟨#[bothFlags, ⟨4, 0x84, 0x13, .raw 0x12⟩]⟩).1.2 (by decide +kernel)
    have hall := (h _).2.1 _ hmigrated
    obtain ⟨first, rest, hfirst, hrest, hrecords⟩ := List.forall₂_cons_left_iff.1 hall
    obtain ⟨second, others, hsecond, hothers, rfl⟩ := List.forall₂_cons_left_iff.1 hrest
    obtain rfl := List.forall₂_nil_left_iff.1 hothers
    obtain rfl : records = [first, second] := hrecords
    refine ⟨first, second, hmigrated, ?_, ?_, ?_, hsecond.eq_of_raw _ rfl⟩
    · rw [hfirst.accepts_iff]
      exact ⟨(Record.compare_eq_ok_iff (hagrees 9)).2 (by decide), by decide⟩
    · exact (Record.compare_eq_ok_iff (hagrees 0x19)).2 (by decide)
    · rw [Ne, hfirst.accepts_iff]
      exact fun haccept => absurd haccept.2 (by decide)
  · rw [(h _).1]
    decide +kernel

end Trace

end Testbench
