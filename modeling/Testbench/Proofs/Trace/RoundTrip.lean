import Testbench.Proofs.Trace.Divergence
import Testbench.Proofs.Trace.Reading

namespace Testbench

namespace Trace

theorem load_of_read {files : Files} {file : String} {data : Bytes}
    (h : files.read file = .ok data) : load files file = (read data.toList).mapError .json := by
  obtain ⟨node, hnode, hdata⟩ := Files.eq_ok_of_bind h
  rw [load, hnode]
  simp only [hdata]

theorem load_of_save {t : Trace} {files written : Files} {file : String}
    (h : t.save files file = .ok written) : load written file = .ok t := by
  rw [save] at h
  cases hwrite : files.write file t.bytes.toArray with
  | error e =>
      rw [hwrite] at h
      cases h
  | ok after =>
      rw [hwrite] at h
      cases h
      rw [load_of_read (Files.read_of_write hwrite), List.toList_toArray, read_bytes]
      rfl

theorem save_of_target {files : Files} {file : String} {place : Location}
    (h : files.target file = .ok place) (t : Trace) :
    t.save files file = .ok (files.put place t.bytes.toArray) := by
  rw [save, Files.write, h]
  rfl

theorem load_saved (t : Trace) {files : Files} {file : String} {place : Location}
    (h : files.target file = .ok place) :
    ∃ written, t.save files file = .ok written ∧ written.read file = .ok t.bytes.toArray ∧
      load written file = .ok t ∧
      ∀ (others : Files) (name : String), others.read name = .ok t.bytes.toArray →
        load others name = .ok t := by
  have hsave := save_of_target h t
  have hwrite : files.write file t.bytes.toArray = .ok (files.put place t.bytes.toArray) := by
    rw [Files.write, h]
    rfl
  refine ⟨_, hsave, Files.read_of_write hwrite, load_of_save hsave, ?_⟩
  intro others name hread
  rw [load_of_read hread, List.toList_toArray, read_bytes]
  rfl

theorem load_saved_awkward :
    let t : Trace := ⟨#[⟨0xFFFFFFFFFFFFFFFF, 0xFFFFFFFF, 0, .symbolic "12"⟩,
      ⟨0, 0, 0xFFFFFFFF, .raw 12⟩, ⟨1, 0xA, 0xB, .symbolic "\"\\u0041\x01\n, é😀"⟩,
      ⟨1, 2, 3, .symbolic ""⟩]⟩
    ∃ written, t.save (.ofEntries ["w"] [] []) "t.json" = .ok written ∧
      load written "t.json" = .ok t := by
  intro t
  have htarget : (Files.ofEntries ["w"] [] []).target "t.json" = .ok ["w", "t.json"] := by
    decide +kernel
  obtain ⟨written, hsave, -, hload, -⟩ := load_saved t htarget
  exact ⟨written, hsave, hload⟩

end Trace

namespace TraceSession

def indexed (states : List Writeback) : List (Nat × Writeback) :=
  states.zipIdx.map Prod.swap

theorem mem_indexed_iff {states : List Writeback} {index : Nat} {state : Writeback} :
    (index, state) ∈ indexed states ↔ states[index]? = some state := by
  rw [indexed, List.mem_map]
  constructor
  · rintro ⟨⟨other, i⟩, hmem, heq⟩
    cases heq
    exact List.mem_zipIdx_iff_getElem?.1 hmem
  · intro h
    exact ⟨(state, index), List.mem_zipIdx_iff_getElem?.2 h, rfl⟩

theorem openFile_generate {settings : TraceSettings} (hmode : settings.mode = .generate)
    (files : Files) (file : String) :
    openFile files settings file = .ok ⟨settings, .empty, file⟩ := by
  rw [openFile, hmode]

theorem openFile_compare {settings : TraceSettings} (hmode : settings.mode = .compare)
    {files : Files} {file : String} {trace : Trace} (hload : Trace.load files file = .ok trace) :
    openFile files settings file = .ok ⟨settings, trace, file⟩ := by
  rw [openFile, hmode, hload]
  rfl

theorem finish_generate {s : TraceSession} (hmode : s.settings.mode = .generate)
    {files written : Files} (hsave : s.trace.save files s.file = .ok written) :
    s.finish files = (written, .ok s.trace) := by
  rw [finish, hmode]
  simp only [hsave]

variable {generating comparing : TraceSettings}

theorem results_generate (h : TraceSettings.Fits generating comparing)
    (steps : List (Nat × Writeback)) :
    (steps.map fun step => (generating.capture step.2).map fun _ => ()) =
      .replicate steps.length (.ok ()) := by
  rw [List.map_eq_replicate_iff]
  intro step _
  obtain ⟨status, hcapture, -⟩ := h.capture_eq_ok step.2
  rw [hcapture]
  rfl

theorem step_compare_of_indexed (h : TraceSettings.Fits generating comparing)
    {session : TraceSession} {steps : List (Nat × Writeback)} {index : Nat} {state : Writeback}
    (hsettings : session.settings = comparing)
    (hrecords : session.trace.records.toList = captured generating steps)
    (hstate : (index, state) ∈ indexed (steps.map Prod.snd)) :
    (session.step index state).2 = .ok () := by
  rw [mem_indexed_iff, List.getElem?_map, Option.map_eq_some_iff] at hstate
  obtain ⟨step, hstep, rfl⟩ := hstate
  obtain ⟨r, hcapture, hcompare⟩ := step_compare_of_recorded h hsettings hrecords hstep step.2
  rw [hcompare]
  exact (h.compare_captured hcapture step.2).1.2 ⟨rfl, rfl, .refl generating step.2.status⟩

/-- What a session has recorded, another one that reads its file accepts. -/
theorem compare_of_generate (h : TraceSettings.Fits generating comparing) {files : Files}
    {directory binary : String} {variant : Option String} {place : Location}
    (htarget : files.target (inDirectory directory (Trace.fileName binary variant)) = .ok place)
    (steps : List (Nat × Writeback)) :
    ∃ session written trace reference,
      forBinary files generating directory binary variant = .ok session ∧
      (session.run steps).2 = .replicate steps.length (.ok ()) ∧
      (session.run steps).1.finish files = (written, .ok trace) ∧
      forBinary written comparing directory binary variant = .ok reference ∧
      reference.trace = trace ∧
      List.Forall₂ (fun step r => generating.capture step.2 = .ok r) steps trace.records.toList ∧
      (reference.run (indexed (steps.map Prod.snd))).2 = .replicate steps.length (.ok ()) := by
  have hsave := Trace.save_of_target htarget ⟨(captured generating steps).toArray⟩
  have hload := Trace.load_of_save hsave
  refine ⟨_, _, ⟨(captured generating steps).toArray⟩, _, openFile_generate h.generates files _,
    ?_, ?_, openFile_compare h.compares hload, rfl, h.forall₂_captured steps, ?_⟩
  · rw [run_generate h.generates]
    exact results_generate h steps
  · rw [run_generate h.generates]
    simp only [Trace.empty, Array.empty_append]
    exact finish_generate h.generates hsave
  · have hlength : steps.length = (indexed (steps.map Prod.snd)).length := by simp [indexed]
    rw [run_compare h.compares, hlength, List.map_eq_replicate_iff]
    intro step hstep
    exact step_compare_of_indexed h rfl rfl hstep

theorem compare_of_generate_overlapping :
    let settings (mode : TraceMode) : TraceSettings := ⟨mode, .symbolic, some overlappingFlags⟩
    let recorded : List (Nat × Writeback) := [(7, ⟨1, 8, 0x13, 10⟩), (7, ⟨2, 12, 0x93, 4⟩)]
    ∃ session written trace reference,
      forBinary (.ofEntries ["w"] [["w", "t"]] []) (settings .generate) "t" "a/b" none =
        .ok session ∧
      (session.run recorded).1.finish (.ofEntries ["w"] [["w", "t"]] []) = (written, .ok trace) ∧
      forBinary written (settings .compare) "t" "a/b" none = .ok reference ∧
      reference.trace.records =
        #[⟨1, 8, 0x13, .symbolic "DIV"⟩, ⟨2, 12, 0x93, .symbolic ""⟩] ∧
      (reference.run [(0, ⟨1, 8, 0x13, 10⟩), (1, ⟨2, 12, 0x93, 4⟩)]).2 = [.ok (), .ok ()] := by
  intro settings recorded
  have hfits : TraceSettings.Fits (settings .generate) (settings .compare) :=
    ⟨rfl, rfl, .inr ⟨rfl, overlappingFlags, rfl, rfl, by decide +kernel⟩⟩
  have htarget : (Files.ofEntries ["w"] [["w", "t"]] []).target
      (inDirectory "t" (Trace.fileName "a/b" none)) = .ok ["w", "t", "trace-b.json"] := by
    decide +kernel
  obtain ⟨session, written, trace, reference, hsession, -, hfinish, hreference, rfl, hrecords,
    hrun⟩ := compare_of_generate hfits htarget recorded
  refine ⟨session, written, reference.trace, reference, hsession, hfinish, hreference, ?_, hrun⟩
  have hfirst : (settings .generate).capture ⟨1, 8, 0x13, 10⟩ =
      .ok ⟨1, 8, 0x13, .symbolic "DIV"⟩ := by
    decide +kernel
  have hsecond : (settings .generate).capture ⟨2, 12, 0x93, 4⟩ =
      .ok ⟨2, 12, 0x93, .symbolic ""⟩ := by
    decide +kernel
  obtain ⟨r, rs, hr, hrest, hlist⟩ := List.forall₂_cons_left_iff.1 hrecords
  obtain ⟨r', rs', hr', hnil, rfl⟩ := List.forall₂_cons_left_iff.1 hrest
  cases hnil
  rw [hfirst] at hr
  rw [hsecond] at hr'
  cases hr
  cases hr'
  exact Array.toList_inj.1 hlist

end TraceSession

end Testbench
