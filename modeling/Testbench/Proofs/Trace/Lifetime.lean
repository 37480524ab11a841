import Testbench.Proofs.Trace.RoundTrip

namespace Testbench

namespace TraceSession

variable {s session : TraceSession} {files later written : Files} {settings : TraceSettings}
  {file : String} {place : Location}

theorem session_of_openFile (h : openFile files settings file = .ok session) :
    session.settings = settings ∧ session.file = file ∧
      (settings.mode = .compare → Trace.load files file = .ok session.trace) ∧
      (settings.mode ≠ .compare → session.trace = .empty) := by
  rw [openFile] at h
  split at h
  · next hmode =>
      cases hload : Trace.load files file with
      | error e =>
          rw [hload] at h
          cases h
      | ok trace =>
          rw [hload] at h
          cases h
          exact ⟨rfl, rfl, fun _ => rfl, fun hne => absurd hmode hne⟩
  · next hmode =>
      cases h
      exact ⟨rfl, rfl, fun heq => absurd heq hmode, fun _ => rfl⟩

theorem run_off (hmode : s.settings.mode = .off) (steps : List (Nat × Writeback)) :
    s.run steps = (s, .replicate steps.length (.ok ())) := by
  induction steps with
  | nil => rfl
  | cons step steps ih =>
      have hstep : s.step step.1 step.2 = (s, .ok ()) := by
        rw [TraceSession.step, Trace.step, hmode]
      rw [run, hstep, ih]
      rfl

theorem finish_of_ne_generate (hmode : s.settings.mode ≠ .generate) (files : Files) :
    s.finish files = (files, .ok s.trace) := by
  rw [finish]
  split
  · next hgenerate => exact absurd hgenerate hmode
  · rfl

theorem finish_generate_refused (hmode : s.settings.mode = .generate) {e : FileError}
    (htarget : later.target s.file = .error e) :
    s.finish later = (later, .error (.access e)) := by
  rw [finish, hmode]
  simp only [Trace.save, Files.write, htarget]
  rfl

theorem finish_generate_of_target (hmode : s.settings.mode = .generate)
    (htarget : later.target s.file = .ok place) :
    ∃ written, s.finish later = (written, .ok s.trace) ∧
      written.read s.file = .ok s.trace.bytes.toArray ∧
      Trace.load written s.file = .ok s.trace ∧
      ∀ other, other ≠ place → written.node? other = later.node? other := by
  have hsave := Trace.save_of_target htarget s.trace
  exact ⟨_, finish_generate hmode hsave, Files.read_of_write (Files.write_of_target htarget _),
    Trace.load_of_save hsave, fun _ hother => if_neg hother⟩

theorem captured_append (settings : TraceSettings) (steps more : List (Nat × Writeback)) :
    captured settings (steps ++ more) = captured settings steps ++ captured settings more :=
  List.filterMap_append

theorem run_generate_congr (hmode : s.settings.mode = .generate)
    {steps others : List (Nat × Writeback)} (h : others.map Prod.snd = steps.map Prod.snd) :
    s.run others = s.run steps := by
  have hcaptured (xs : List (Nat × Writeback)) : captured s.settings xs =
      (xs.map Prod.snd).filterMap fun state => (s.settings.capture state).toOption := by
    rw [List.filterMap_map]
    rfl
  have hresults (xs : List (Nat × Writeback)) :
      (xs.map fun step => (s.settings.capture step.2).map fun _ => ()) =
        (xs.map Prod.snd).map fun state => (s.settings.capture state).map fun _ => () := by
    rw [List.map_map]
    rfl
  rw [run_generate hmode, run_generate hmode, hcaptured, hcaptured, hresults, hresults, h]

/-- What a session holds after any steps, and what is in the files once it ends: nothing that was
not there, but for a session that generates, which replaces its file by the records of the steps
that succeeded. -/
theorem run_of_openFile (hopen : openFile files settings file = .ok session)
    (steps : List (Nat × Writeback)) (later : Files) :
    match settings.mode with
    | .off =>
        (session.run steps).2 = .replicate steps.length (.ok ()) ∧
          (session.run steps).1.trace = .empty ∧
          (session.run steps).1.finish later = (later, .ok .empty)
    | .compare =>
        ∃ reference, Trace.load files file = .ok reference ∧
          (session.run steps).1.trace = reference ∧
          (session.run steps).1.finish later = (later, .ok reference)
    | .generate =>
        (session.run steps).1.trace.records.toList = captured settings steps ∧
          (session.run steps).2 =
            steps.map (fun step => (settings.capture step.2).map fun _ => ()) ∧
          (∀ more, (session.run (steps ++ more)).1.trace.records.toList =
            captured settings steps ++ captured settings more) ∧
          (∀ others, others.map Prod.snd = steps.map Prod.snd →
            session.run others = session.run steps) ∧
          (∀ place, later.target file = .ok place → ∃ written,
            (session.run steps).1.finish later = (written, .ok (session.run steps).1.trace) ∧
              written.read file = .ok (session.run steps).1.trace.bytes.toArray ∧
              Trace.load written file = .ok (session.run steps).1.trace ∧
              ∀ other, other ≠ place → written.node? other = later.node? other) ∧
          ∀ e, later.target file = .error e →
            (session.run steps).1.finish later = (later, .error (.access e)) := by
  obtain ⟨rfl, rfl, hload, hempty⟩ := session_of_openFile hopen
  split
  · next hmode =>
      rw [run_off hmode, finish_of_ne_generate (by simp [hmode]), hempty (by simp [hmode])]
      exact ⟨rfl, rfl, rfl⟩
  · next hmode =>
      rw [run_compare hmode, finish_of_ne_generate (by simp [hmode])]
      exact ⟨session.trace, hload hmode, rfl, rfl⟩
  · next hmode =>
      have htrace : session.trace = .empty := hempty (by simp [hmode])
      have hrecords (steps : List (Nat × Writeback)) :
          (session.run steps).1.trace.records.toList = captured session.settings steps := by
        rw [run_generate hmode]
        simp [htrace, Trace.empty]
      have hended : (session.run steps).1.settings = session.settings ∧
          (session.run steps).1.file = session.file := by
        rw [run_generate hmode]
        exact ⟨rfl, rfl⟩
      refine ⟨hrecords steps, by rw [run_generate hmode], fun more => ?_,
        fun others => run_generate_congr hmode, fun place htarget => ?_, fun e htarget => ?_⟩
      · rw [hrecords, captured_append]
      · rw [← hended.2] at htarget ⊢
        exact finish_generate_of_target (hended.1 ▸ hmode) htarget
      · rw [← hended.2] at htarget
        exact finish_generate_refused (hended.1 ▸ hmode) htarget

theorem run_of_openFile_replaced :
    let files : Files := .ofEntries ["w"] [] [(["w", "t.json"], #[0x5B])]
    let settings (format : StatusFormat) : TraceSettings := ⟨.generate, format, none⟩
    let steps : List (Nat × Writeback) := [(9, ⟨4, 8, 0x13, 2⟩), (0, ⟨5, 12, 0x93, 1⟩)]
    let recorded : Trace := ⟨#[⟨4, 8, 0x13, .raw 2⟩, ⟨5, 12, 0x93, .raw 1⟩]⟩
    ∃ session failing written left,
      openFile files (settings .raw) "t.json" = .ok session ∧
      (session.run steps).1.finish files = (written, .ok recorded) ∧
      written.read "t.json" = .ok recorded.bytes.toArray ∧
      Trace.load written "t.json" = .ok recorded ∧
      openFile files (settings .symbolic) "t.json" = .ok failing ∧
      (failing.run steps).2 = [.error .missingEnumTable, .error .missingEnumTable] ∧
      (failing.run steps).1.finish files = (left, .ok .empty) := by
  intro files settings steps recorded
  have htarget : files.target "t.json" = .ok ["w", "t.json"] := by decide +kernel
  have hraw : openFile files (settings .raw) "t.json" = .ok ⟨settings .raw, .empty, "t.json"⟩ :=
    openFile_generate rfl files "t.json"
  have hsymbolic : openFile files (settings .symbolic) "t.json" =
      .ok ⟨settings .symbolic, .empty, "t.json"⟩ :=
    openFile_generate rfl files "t.json"
  obtain ⟨-, -, -, -, hfinish, -⟩ := run_of_openFile hraw steps files
  obtain ⟨-, hresults, -, -, hleft, -⟩ := run_of_openFile hsymbolic steps files
  obtain ⟨written, hwritten, hread, hload, -⟩ := hfinish _ htarget
  obtain ⟨left, hleft, -⟩ := hleft _ htarget
  exact ⟨_, _, written, left, hraw, hwritten, hread, hload, hsymbolic, hresults,
    hleft⟩

end TraceSession

end Testbench
