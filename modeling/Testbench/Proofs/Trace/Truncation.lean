import Testbench.Proofs.Trace.Nesting
import Testbench.Proofs.Trace.RoundTrip

namespace Testbench

open Json

namespace TraceReader

variable {r : TraceReader}

theorem step_of_ended (hended : r.scanner = .ended) (b : UInt8) :
    r.step b = if Scanner.isBlank (.ofUInt8 b) then .ok r else .error .malformed := by
  obtain ⟨records, place, scanner⟩ := r
  obtain rfl : scanner = .ended := hended
  rw [step_of_settle rfl, Scanner.step_ended]
  split <;> rfl

theorem run_of_ended (hended : r.scanner = .ended) (bs : List UInt8) :
    r.run bs =
      if bs.all fun b => Scanner.isBlank (.ofUInt8 b) then .ok r else .error .malformed := by
  induction bs with
  | nil => rfl
  | cons b bs ih =>
      have hsplit : r.run (b :: bs) = r.step b >>= fun r => r.run bs := rfl
      rw [hsplit, step_of_ended hended, List.all_cons]
      cases Scanner.isBlank (.ofUInt8 b) with
      | true => exact ih
      | false => rfl

theorem finished_of_finish {t : Trace} (h : r.finish = .ok t) :
    r.place = .finished ∧ t = ⟨r.records⟩ := by
  rw [finish] at h
  split at h
  · cases h
  · next events hevents =>
      split at h
      · cases h
      · next last hlast =>
          split at h
          · next hplace =>
              cases h
              rcases Scanner.events_of_finish hevents with rfl | ⟨v, rfl⟩
              · cases hlast
                exact ⟨hplace, rfl⟩
              · have hturn := (turn_of_take (s := r.scanner) hlast).2
                cases hturn.closed_of_finished hplace
          · cases h

end TraceReader

namespace Trace

variable {t : Trace} {p : List UInt8}

theorem read_append (h : read p = .ok t) (q : List UInt8) :
    read (p ++ q) =
      if q.all fun b => Scanner.isBlank (.ofUInt8 b) then .ok t else .error .malformed := by
  obtain ⟨r, hrun, hfinish⟩ := Files.eq_ok_of_bind h
  obtain ⟨hplace, rfl⟩ := TraceReader.finished_of_finish hfinish
  have hended : r.scanner = .ended := (TraceReader.nested_start.run hrun).ended hplace
  rw [read, TraceReader.run_append, hrun]
  change r.run q >>= TraceReader.finish = _
  rw [TraceReader.run_of_ended hended]
  split
  · exact hfinish
  · rfl

theorem exists_bytes_eq (t : Trace) : ∃ body, t.bytes = body ++ [0x5D, 0x0A] := by
  have hend : Text.Utf8.encode "]\n".toList = [0x5D, 0x0A] := rfl
  rw [bytes, text]
  split
  · exact ⟨[0x5B], rfl⟩
  · have hsplit : "\n]\n".toList = "\n".toList ++ "]\n".toList := rfl
    refine ⟨Text.Utf8.encode ("[\n".toList ++
      ",\n".toList.intercalate (t.records.toList.map Record.object) ++ "\n".toList), ?_⟩
    rw [hsplit, ← List.append_assoc, Text.Utf8.encode_append, hend]

theorem eq_of_blank_suffix {q : List UInt8} (h : q <:+ t.bytes)
    (hblank : ∀ b ∈ q, Scanner.isBlank (.ofUInt8 b)) : q = [] ∨ q = [0x0A] := by
  obtain ⟨body, hbody⟩ := exists_bytes_eq t
  have hbracket : (0x5D : UInt8) ∉ q := fun hmem => absurd (hblank _ hmem) (by decide)
  have hlast : [0x5D, 0x0A] <:+ t.bytes := ⟨body, hbody.symm⟩
  -- of two ends of one text the shorter is an end of the longer
  rcases List.suffix_or_suffix_of_suffix h hlast with hshort | hlong
  · rcases List.suffix_cons_iff.1 hshort with rfl | hshort
    · exact absurd List.mem_cons_self hbracket
    · rcases List.suffix_cons_iff.1 hshort with rfl | hnil
      · exact .inr rfl
      · exact .inl (List.suffix_nil.1 hnil)
  · exact absurd (hlong.subset List.mem_cons_self) hbracket

/-- A part of a saved trace is not read as a shorter one: all that can be missing is the line feed
at the end. -/
theorem load_of_truncated (t : Trace) {p : List UInt8} (hpart : p <+: t.bytes)
    (hstrict : p ≠ t.bytes) (hfeed : p ++ [0x0A] ≠ t.bytes) {files : Files} {file : String}
    (hread : files.read file = .ok p.toArray) :
    ∃ fault, load files file = .error (.json fault) := by
  rw [load_of_read hread, List.toList_toArray]
  cases hresult : read p with
  | error fault => exact ⟨fault, rfl⟩
  | ok shorter =>
      obtain ⟨q, hq⟩ := hpart
      have hall := read_append hresult q
      rw [hq, read_bytes] at hall
      split at hall
      · next hblank =>
          rcases eq_of_blank_suffix ⟨p, hq⟩ (List.all_eq_true.1 hblank) with rfl | rfl
          · exact absurd ((List.append_nil p).symm.trans hq) hstrict
          · exact absurd hq hfeed
      · cases hall

def bracketed : Trace :=
  ⟨#[⟨4, 8, 0x13, .symbolic "\x7d]"⟩]⟩

theorem load_of_truncated_bracketed :
    let p := bracketed.bytes.take 136
    [0x7D, 0x5D] <:+ p ∧ p <+: bracketed.bytes ∧
      ∃ fault, load (.ofEntries ["w"] [] [(["w", "t.json"], p.toArray)]) "t.json" =
        .error (.json fault) := by
  intro p
  have hpart : p <+: bracketed.bytes := List.take_prefix ..
  refine ⟨by decide +kernel, hpart, ?_⟩
  exact load_of_truncated bracketed hpart (by decide +kernel) (by decide +kernel)
    (by decide +kernel)

end Trace

end Testbench
