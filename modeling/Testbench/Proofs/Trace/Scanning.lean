import Testbench.Proofs.Json.Number
import Testbench.Proofs.Json.Quoted
import Testbench.Trace.Reader

namespace Testbench

namespace TraceReader

open Text Json

def Reads (r : TraceReader) (text : List Char) (next : TraceReader) : Prop :=
  r.run (Utf8.encode text) = .ok next

variable {r middle next : TraceReader} {records : Array Record} {place : Place}
  {stack : List Bracket} {phase : Phase}

theorem Reads.append {before after : List Char} (hbefore : r.Reads before middle)
    (hafter : middle.Reads after next) : r.Reads (before ++ after) next := by
  rw [Reads, Utf8.encode_append, run_append, show r.run _ = _ from hbefore]
  exact hafter

theorem reads_ascii_iff {c : Char} (hc : c.toNat < 128) :
    r.Reads [c] next ↔ r.step (.ofNat c.toNat) = .ok next := by
  have hrun : r.run (Utf8.encode [c]) = r.step (.ofNat c.toNat) := by
    rw [Utf8.encode_cons_of_ascii hc]
    exact bind_pure _
  rw [Reads, hrun]

theorem step_of_settle {b : UInt8}
    (h : r.scanner.settle r.place.isSkipped b = .ok (r.scanner, [])) :
    r.step b = r.take (r.scanner.step r.place.isSkipped b) := by
  rw [step, h]
  rfl

theorem take_event (r : TraceReader) (s : Scanner) (event : Event) :
    r.take (.ok (s, [event])) = accept { r with scanner := s } event :=
  bind_pure _

theorem run_quoted {isKey : Bool} {q closing : Quoted} {bs : List UInt8}
    (hplace : place.isSkipped = false) (h : q.run bs = some closing) :
    run ⟨records, place, ⟨stack, phase, .text isKey q⟩⟩ bs =
      .ok ⟨records, place, ⟨stack, phase, .text isKey closing⟩⟩ := by
  induction bs generalizing q with
  | nil =>
      cases h
      rfl
  | cons b bs ih =>
      rw [Quoted.run] at h
      split at h
      · next q' hstep =>
          have hnext : step ⟨records, place, ⟨stack, phase, .text isKey q⟩⟩ b =
              .ok ⟨records, place, ⟨stack, phase, .text isKey q'⟩⟩ := by
            rw [step_of_settle rfl]
            simp only [Scanner.step, hplace, hstep]
            rfl
          rw [run, List.foldlM_cons, hnext]
          exact ih h
      · cases h

theorem reads_quoted (isKey : Bool) {s : List Char} {done : Scanner} {event : Event}
    (hplace : place.isSkipped = false)
    (hopen : step ⟨records, place, ⟨stack, phase, .none⟩⟩ 0x22 =
      .ok ⟨records, place, ⟨stack, phase, .text isKey .start⟩⟩)
    (hclose : ∀ token, Scanner.closeText false ⟨stack, phase, token⟩ isKey (Utf8.encode s) =
      .ok (done, [event]))
    (haccept : accept ⟨records, place, done⟩ event = .ok next) :
    Reads ⟨records, place, ⟨stack, phase, .none⟩⟩ (quoted s) next := by
  have hcontent := Quoted.run_flatMap_escaped [] s
  rw [List.append_nil] at hcontent
  have hopening := (reads_ascii_iff (c := '"') (by decide)).2 hopen
  refine (hopening.append (run_quoted hplace hcontent)).append ((reads_ascii_iff (by decide)).2 ?_)
  have hend : Quoted.step false ⟨(Utf8.encode s).reverse, .outside⟩ (.ofNat '"'.toNat) =
      .ok (.closed (Utf8.encode s)) := by
    change Except.ok (Quoted.Progress.closed (Utf8.encode s).reverse.reverse) = _
    rw [List.reverse_reverse]
  rw [step_of_settle rfl]
  simp only [Scanner.step, hplace, hend]
  exact (congrArg _ (hclose _)).trans ((take_event _ _ _).trans haccept)

theorem reads_key {s : String} (hplace : place.isSkipped = false)
    (hphase : phase = .firstKey ∨ phase = .key)
    (haccept : accept ⟨records, place, ⟨stack, .colon, .none⟩⟩ (.key s) = .ok next) :
    Reads ⟨records, place, ⟨stack, phase, .none⟩⟩ (quoted s.toList) next := by
  refine reads_quoted true hplace ?_ (fun token => ?_) haccept
  · rcases hphase with rfl | rfl <;> rfl
  · simp only [Scanner.closeText, Scanner.textOf, Utf8.decode?_encode]
    rfl

theorem reads_text {s : String} (hplace : place.isSkipped = false)
    (haccept : accept ⟨records, place, .afterValue stack⟩ (.scalar (.text s)) = .ok next) :
    Reads ⟨records, place, ⟨stack, .value, .none⟩⟩ (quoted s.toList) next := by
  refine reads_quoted false hplace rfl (fun token => ?_) haccept
  simp only [Scanner.closeText, Scanner.textOf, Utf8.decode?_encode]
  rfl

theorem reads_decimal {n : Nat} (hlt : n < UInt64.size) (hplace : place.isSkipped = false) :
    Reads ⟨records, place, ⟨stack, .value, .none⟩⟩ (Numeral.decimal n)
      ⟨records, place, ⟨stack, .value, .number (.ofNatural n)⟩⟩ := by
  have hascii : ∀ d < 10, d.digitChar.toNat < 128 := by decide
  induction n using Nat.strongRecOn with
  | ind n ih =>
      by_cases hn : n < 10
      · rw [Numeral.decimal, Nat.toDigits_of_lt_base hn]
        rw [reads_ascii_iff (hascii n hn), step_of_settle rfl]
        simp only [Scanner.step, hplace, Utf8.ofUInt8_ofNat (hascii n hn),
          Scanner.between_digitChar stack n hn]
        rfl
      · have hhigh : n / 10 ≠ 0 := by omega
        have hlow : n % 10 < 10 := Nat.mod_lt _ (by decide)
        have hsplit := Nat.toDigits_append_toDigits (b := 10) (by decide)
          (Nat.pos_of_ne_zero hhigh) hlow
        rw [Nat.div_add_mod, Nat.toDigits_of_lt_base hlow] at hsplit
        rw [Numeral.decimal, ← hsplit]
        refine (ih (n / 10) (by omega) (by omega)).append
          ((reads_ascii_iff (hascii _ hlow)).2 ?_)
        have hnext := Number.step_ofNatural hhigh hlow (by omega)
        rw [Nat.div_add_mod'] at hnext
        rw [step_of_settle]
        · simp only [Scanner.step, hnext]
          rfl
        · simp only [Scanner.settle, hnext]
          rfl

theorem reads_natural {n : Nat} {c : Char} {settled : Place} (hlt : n < UInt64.size)
    (hplace : place.isSkipped = false) (hc : Number.EndsMember c)
    (haccept : accept ⟨records, place, .afterValue stack⟩ (.scalar (.natural n)) =
      .ok ⟨records, settled, .afterValue stack⟩)
    (h : Reads ⟨records, settled, .afterValue stack⟩ [c] next) :
    Reads ⟨records, place, ⟨stack, .value, .none⟩⟩ (Numeral.decimal n ++ [c]) next := by
  refine (reads_decimal hlt hplace).append ((reads_ascii_iff hc.ascii).2 ?_)
  rw [reads_ascii_iff hc.ascii, step_of_settle rfl] at h
  rw [step, hplace, Scanner.settle_ofNatural stack .value n hc, take_event, haccept]
  exact h

end TraceReader

end Testbench
