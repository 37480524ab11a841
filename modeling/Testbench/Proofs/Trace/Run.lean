import Testbench.Trace.Session

namespace Testbench

namespace TraceSession

def run (s : TraceSession) : List (Nat × Writeback) → TraceSession × List (Except TraceError Unit)
  | [] => (s, [])
  | (index, state) :: steps =>
      let rest := (s.step index state).1.run steps
      (rest.1, (s.step index state).2 :: rest.2)

theorem step_generate {s : TraceSession} (hmode : s.settings.mode = .generate) (index : Nat)
    (state : Writeback) :
    s.step index state =
      match s.settings.capture state with
      | .ok r => ({ s with trace := s.trace.push r }, .ok ())
      | .error e => (s, .error e) := by
  rw [step, Trace.step, hmode]
  cases s.settings.capture state <;> rfl

theorem step_compare {s : TraceSession} (hmode : s.settings.mode = .compare) (index : Nat)
    (state : Writeback) :
    s.step index state =
      (s, match s.trace.get? index with
        | some expected => expected.compare s.settings.table state
        | none => .error (.exhausted index s.trace.size)) := by
  rw [step, Trace.step, hmode]
  cases s.trace.get? index <;> rfl

theorem run_compare {s : TraceSession} (hmode : s.settings.mode = .compare)
    (steps : List (Nat × Writeback)) :
    s.run steps = (s, steps.map fun step => (s.step step.1 step.2).2) := by
  induction steps with
  | nil => rfl
  | cons step steps ih =>
      have hkeep : (s.step step.1 step.2).1 = s := by rw [step_compare hmode]
      rw [run, hkeep, ih]
      rfl

def captured (settings : TraceSettings) (steps : List (Nat × Writeback)) : List Record :=
  steps.filterMap fun step => (settings.capture step.2).toOption

theorem run_generate {s : TraceSession} (hmode : s.settings.mode = .generate)
    (steps : List (Nat × Writeback)) :
    s.run steps =
      ({ s with trace := ⟨s.trace.records ++ (captured s.settings steps).toArray⟩ },
        steps.map fun step => (s.settings.capture step.2).map fun _ => ()) := by
  induction steps generalizing s with
  | nil => simp [run, captured]
  | cons step steps ih =>
      rw [run, step_generate hmode]
      cases hcapture : s.settings.capture step.2 with
      | ok r =>
          simp only
          rw [ih (s := { s with trace := s.trace.push r }) hmode]
          simp [captured, hcapture, Except.toOption, Except.map, Trace.push]
      | error e =>
          simp only
          rw [ih hmode]
          simp [captured, hcapture, Except.toOption, Except.map]

end TraceSession

end Testbench
