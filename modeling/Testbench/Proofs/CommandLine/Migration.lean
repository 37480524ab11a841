import Testbench.CommandLine.Run
import Testbench.Proofs.Trace.Migration
import Testbench.Proofs.Trace.RoundTrip

namespace Testbench

namespace Files

variable {files : Files} {name : String} {place : Location} {data : Bytes}

theorem node?_of_target (htarget : files.target name = .ok place)
    (hread : files.read name = .ok data) : files.node? place = some (.file data) := by
  obtain ⟨path, hpath, hwalk, -⟩ := walk_of_target htarget
  have hlocate : files.locate name = .ok place := by
    rw [locate, hpath]
    exact hwalk
  obtain ⟨node, hlookup, hcontents⟩ := eq_ok_of_bind hread
  obtain ⟨found, hfound, hlookup⟩ := eq_ok_of_bind hlookup
  obtain rfl : place = found := Except.ok.inj (hlocate.symm.trans hfound)
  split at hlookup
  · next other hnode =>
      cases hlookup
      cases node with
      | file own =>
          cases hcontents
          exact hnode
      | directory => cases hcontents
  · cases hlookup

theorem put_self (h : files.node? place = some (.file data)) : files.put place data = files := by
  have hnode : (fun other => if other = place then some (Node.file data) else files.node? other) =
      files.node? := by
    funext other
    split
    · next heq => rw [heq, h]
    · rfl
  rw [put, hnode]

end Files

namespace Trace

variable {t again : FlagTable} {trace result : Trace}

theorem migrateRecord_again {r migrated : Record} (h : migrateRecord t r = .ok migrated) :
    migrateRecord again migrated = .ok migrated := by
  obtain ⟨bits, -, rfl⟩ := migrateRecord_eq_ok_iff.1 h
  rfl

theorem forall₂_migrateRecord_again {rs migrated : List Record}
    (h : List.Forall₂ (fun r m => migrateRecord t r = .ok m) rs migrated) :
    List.Forall₂ (fun m own => migrateRecord again m = .ok own) migrated migrated := by
  induction h with
  | nil => exact .nil
  | cons hr _ ih => exact .cons (migrateRecord_again hr) ih

theorem migrate_again (h : migrate t trace = .ok result) : migrate again result = .ok result := by
  rw [migrate_eq_ok_iff, mapM_eq_ok_iff] at h ⊢
  exact forall₂_migrateRecord_again h

end Trace

namespace CommandLine

variable {files : Files} {trace output enumFile enumName : String} {place : Location}
  {result : Trace}

theorem migrated_eq_ok_iff :
    migrated files trace enumFile enumName = .ok result ↔
      ∃ table t, FlagTable.ofFile files enumFile enumName = .ok table ∧
        Trace.load files trace = .ok t ∧ Trace.migrate table t = .ok result := by
  constructor
  · intro h
    obtain ⟨table, htable, h⟩ := Files.eq_ok_of_bind h
    obtain ⟨t, hload, h⟩ := Files.eq_ok_of_bind h
    exact ⟨table, t, htable, hload, h⟩
  · rintro ⟨table, t, htable, hload, h⟩
    rw [migrated, htable]
    simp only [bind, Except.bind, hload]
    exact h

theorem runMigrate_of_error {e : TraceError}
    (h : migrated files trace enumFile enumName = .error e) :
    (runMigrate files trace output enumFile enumName).code = 1 ∧
      (runMigrate files trace output enumFile enumName).files = files := by
  rw [runMigrate, h]
  exact ⟨rfl, rfl⟩

theorem runMigrate_of_target (h : migrated files trace enumFile enumName = .ok result)
    (htarget : files.target output = .ok place) :
    (runMigrate files trace output enumFile enumName).code = 0 ∧
      (runMigrate files trace output enumFile enumName).files =
        files.put place result.bytes.toArray := by
  rw [runMigrate, h]
  simp only [Except.mapError, Outcome.ofExcept, Trace.save_of_target htarget]
  exact ⟨rfl, rfl⟩

theorem exists_error_migrated_iff :
    (∃ e, migrated files trace enumFile enumName = .error e) ↔
      (∃ e, FlagTable.ofFile files enumFile enumName = .error e) ∨
        (∃ e, Trace.load files trace = .error e) ∨
        ∃ table t, FlagTable.ofFile files enumFile enumName = .ok table ∧
          Trace.load files trace = .ok t ∧ ∃ r ∈ t.records, ¬ r.status.Known table := by
  rw [migrated]
  cases FlagTable.ofFile files enumFile enumName with
  | error e => simp [bind, Except.bind]
  | ok table =>
      cases Trace.load files trace with
      | error e => simp [bind, Except.bind]
      | ok t =>
          have hknown := @Trace.exists_migrate_iff table t
          cases hmigrate : Trace.migrate table t with
          | error e => simpa [bind, Except.bind, hmigrate] using hknown
          | ok result => simpa [bind, Except.bind, hmigrate] using hknown

theorem exists_migrated_of_code (h : (runMigrate files trace output enumFile enumName).code = 0) :
    ∃ result, migrated files trace enumFile enumName = .ok result := by
  cases hmigrated : migrated files trace enumFile enumName with
  | error e => cases (runMigrate_of_error hmigrated).1.symm.trans h
  | ok result => exact ⟨result, rfl⟩

theorem runMigrate_again {t table : FlagTable} {original : Trace}
    (hmigrate : Trace.migrate t original = .ok result) (htarget : files.target trace = .ok place)
    (hread : files.read trace = .ok result.bytes.toArray)
    (htable : FlagTable.ofFile files enumFile enumName = .ok table) :
    (runMigrate files trace trace enumFile enumName).code = 0 ∧
      (runMigrate files trace trace enumFile enumName).files = files := by
  have hload : Trace.load files trace = .ok result := by
    rw [Trace.load_of_read hread, List.toList_toArray, Trace.read_bytes]
    rfl
  have hagain : migrated files trace enumFile enumName = .ok result :=
    migrated_eq_ok_iff.2 ⟨table, result, htable, hload, Trace.migrate_again hmigrate⟩
  obtain ⟨hcode, hfiles⟩ := runMigrate_of_target hagain htarget
  exact ⟨hcode, hfiles.trans (Files.put_self (Files.node?_of_target htarget hread))⟩

theorem ofArguments_migrate {rest : List String} {g : Given}
    (hread : (leaf (outputOption :: enumOptions) .path).read rest = .ok g)
    (houtput : g.has "output" = false) (htrace : g.textArgument = .ok trace)
    (henum : g.enumFile = .ok enumFile) :
    Command.ofArguments ("trace" :: "migrate" :: rest) =
      .ok (.migrateTrace trace trace enumFile g.enumName) := by
  have hnone : g.values.lookup "output" = none := by
    rw [Given.has, Bool.or_eq_false_iff, Option.isSome_eq_false_iff, Option.isNone_iff_eq_none]
      at houtput
    exact houtput.2
  have hname : g.textD "output" trace = trace := by
    rw [Given.textD, Given.text?, hnone]
    rfl
  have hcommand :
      Command.ofArguments ("trace" :: "migrate" :: rest) = Command.readMigrate rest := by
    change (Command.readMigrate rest >>= pure) >>= pure = _
    rw [bind_pure, bind_pure]
  rw [hcommand, Command.readMigrate, hread]
  simp only [bind, Except.bind, htrace, henum, hname]
  rfl

theorem run_eq_runMigrate {args : List String} {host : Host}
    (hargs : Command.ofArguments args = .ok (.migrateTrace trace output enumFile enumName)) :
    run host args = runMigrate host.files trace output enumFile enumName := by
  rw [run, hargs]
  rfl

/-- A migration in place changes its file only when everything has been read, and never again. -/
theorem run_migrate_in_place {args : List String}
    (hargs : Command.ofArguments args = .ok (.migrateTrace trace trace enumFile enumName))
    {host : Host} (htarget : host.files.target trace = .ok place) :
    ((∃ e, FlagTable.ofFile host.files enumFile enumName = .error e) ∨
        (∃ e, Trace.load host.files trace = .error e) ∨
        (∃ table t, FlagTable.ofFile host.files enumFile enumName = .ok table ∧
          Trace.load host.files trace = .ok t ∧ ∃ r ∈ t.records, ¬ r.status.Known table) →
      (run host args).code = 1 ∧ (run host args).files = host.files) ∧
    (∀ table t, FlagTable.ofFile host.files enumFile enumName = .ok table →
      Trace.load host.files trace = .ok t → (∀ r ∈ t.records, r.status.Known table) →
        ∃ result, Trace.migrate table t = .ok result ∧ (run host args).code = 0 ∧
          (run host args).files.read trace = .ok result.bytes.toArray ∧
          ∀ other, other ≠ place → (run host args).files.node? other = host.files.node? other) ∧
    ((run host args).code = 0 →
      ∀ (later : Host) (others : List String) (file source name : String) (spot : Location)
        (table : FlagTable),
        Command.ofArguments others = .ok (.migrateTrace file file source name) →
        later.files.target file = .ok spot →
        later.files.read file = (run host args).files.read trace →
        FlagTable.ofFile later.files source name = .ok table →
          (run later others).code = 0 ∧ (run later others).files = later.files) := by
  have hread {result : Trace} (h : migrated host.files trace enumFile enumName = .ok result) :
      (runMigrate host.files trace trace enumFile enumName).files.read trace =
        .ok result.bytes.toArray := by
    rw [(runMigrate_of_target h htarget).2]
    exact Files.read_of_write (Files.write_of_target htarget _)
  rw [run_eq_runMigrate hargs]
  refine ⟨fun h => ?_, fun table t htable hload hknown => ?_, fun hcode => ?_⟩
  · obtain ⟨e, he⟩ := exists_error_migrated_iff.2 h
    exact runMigrate_of_error he
  · obtain ⟨result, hmigrate⟩ := Trace.exists_migrate_iff.2 hknown
    have hmigrated := migrated_eq_ok_iff.2 ⟨table, t, htable, hload, hmigrate⟩
    obtain ⟨hcode, hfiles⟩ := runMigrate_of_target hmigrated htarget
    refine ⟨result, hmigrate, hcode, hread hmigrated, fun other hother => ?_⟩
    rw [hfiles]
    exact if_neg hother
  · intro later others file source name spot again hothers hspot hsame hagain
    obtain ⟨result, hmigrated⟩ := exists_migrated_of_code hcode
    obtain ⟨table, t, -, -, hmigrate⟩ := migrated_eq_ok_iff.1 hmigrated
    rw [hread hmigrated] at hsame
    rw [run_eq_runMigrate hothers]
    exact runMigrate_again hmigrate hspot hsame hagain

def namedFiles : Files :=
  .ofEntries ["w"] [] [(["w", "t.json"], (Trace.mk #[⟨4, 8, 0x13, .symbolic "A"⟩]).bytes.toArray),
    (["w", "a.sv"], (Text.Utf8.encode "typedef enum{A=2}e;".toList).toArray),
    (["w", "b.sv"], (Text.Utf8.encode "typedef enum{B}e;".toList).toArray)]

def namedHost (files : Files) : Host :=
  ⟨files, [], fun _ => none⟩

theorem run_migrate_in_place_twice :
    let migrate (files : Files) (source : String) : Outcome := run (namedHost files)
      ["trace", "migrate", "t.json", "--enum-file", source, "--enum-name", "e"]
    let first := migrate namedFiles "a.sv"
    (migrate namedFiles "b.sv").code = 1 ∧ (migrate namedFiles "b.sv").files = namedFiles ∧
      first.code = 0 ∧
      first.files.read "t.json" = .ok (Trace.mk #[⟨4, 8, 0x13, .raw 2⟩]).bytes.toArray ∧
      (migrate first.files "b.sv").code = 0 ∧ (migrate first.files "b.sv").files = first.files := by
  intro migrate first
  have hread : ∀ source ∈ ["a.sv", "b.sv"], (leaf (outputOption :: enumOptions) .path).read
      ["t.json", "--enum-file", source, "--enum-name", "e"] =
        .ok ⟨[], [("enum-file", .text source), ("enum-name", .text "e")], [.text "t.json"],
          none⟩ := by
    decide +kernel
  have hknows := ofArguments_migrate (hread "a.sv" (by decide)) rfl rfl rfl
  have hignores := ofArguments_migrate (hread "b.sv" (by decide)) rfl rfl rfl
  have htarget : (namedHost namedFiles).files.target "t.json" = .ok ["w", "t.json"] := by
    decide +kernel
  have hload : Trace.load namedFiles "t.json" = .ok ⟨#[⟨4, 8, 0x13, .symbolic "A"⟩]⟩ := by
    decide +kernel
  have hfirst : FlagTable.ofFile namedFiles "a.sv" "e" = .ok ⟨"e", [("A", 2)]⟩ := by decide +kernel
  have hother : FlagTable.ofFile namedFiles "b.sv" "e" = .ok ⟨"e", [("B", 0)]⟩ := by decide +kernel
  obtain ⟨hfails, -, -⟩ := run_migrate_in_place hignores htarget
  obtain ⟨-, hmigrates, hagain⟩ := run_migrate_in_place hknows htarget
  obtain ⟨hcode, hfiles⟩ := hfails (.inr (.inr ⟨_, _, hother, hload, by decide +kernel⟩))
  obtain ⟨result, hresult, hzero, hwritten, -⟩ := hmigrates _ _ hfirst hload (by decide +kernel)
  cases hresult
  obtain ⟨hsecond, hsame⟩ := hagain hzero (namedHost first.files) _ _ _ _ ["w", "t.json"]
    ⟨"e", [("B", 0)]⟩ hignores (by decide +kernel) rfl (by decide +kernel)
  exact ⟨hcode, hfiles, hzero, hwritten, hsecond, hsame⟩

end CommandLine

end Testbench
