import Testbench.Host.Files
import Testbench.Json.Scanner

namespace Testbench.Json

def Phase.awaitsValue : Phase → Bool
  | .colon | .value => true
  | _ => false

namespace Scanner

def ended : Scanner :=
  ⟨[], .done, .none⟩

inductive Effect (s : Scanner) : Scanner → List Event → Prop
  | silent {next : Scanner} (hstack : next.stack = s.stack)
      (hphase : next.phase.awaitsValue = s.phase.awaitsValue) (hended : s = ended → next = s) :
      Effect s next []
  | opened (b : Bracket) (phase : Phase) : Effect s ⟨b :: s.stack, phase, .none⟩ [.opened b]
  | closed {b : Bracket} {stack : List Bracket} (hstack : s.stack = b :: stack)
      (hphase : s.phase.awaitsValue = false) : Effect s (afterValue stack) [.closed]
  | separated (phase : Phase) (hphase : s.phase.awaitsValue = false) :
      Effect s { s with phase } [.separator]
  | key (text : String) : Effect s ⟨s.stack, .colon, .none⟩ [.key text]
  | scalar (v : Scalar) : Effect s (afterValue s.stack) [.scalar v]

variable {skip : Bool} {s next : Scanner} {events : List Event} {c : Char}

theorem effect_openToken {t : Token} (hvalue : s.phase ≠ .done)
    (h : s.openToken t = .ok (next, events)) : s.Effect next events := by
  cases h
  exact .silent rfl rfl fun hended => absurd (congrArg phase hended) hvalue

theorem effect_openBracket {b : Bracket} (h : s.openBracket skip b = .ok (next, events)) :
    s.Effect next events := by
  unfold openBracket at h
  split at h
  · cases h
  · cases h
    exact .opened b _

theorem effect_closeBracket {b : Bracket} (hphase : s.phase.awaitsValue = false)
    (h : s.closeBracket b = .ok (next, events)) : s.Effect next events := by
  rw [closeBracket] at h
  split at h
  · next hstack =>
      split at h
      · cases h
        exact .closed hstack hphase
      · cases h
  · cases h

theorem effect_openValue (hvalue : s.phase ≠ .done)
    (h : s.openValue skip c = .ok (next, events)) : s.Effect next events := by
  unfold openValue at h
  split at h
  case _ => exact effect_openBracket h
  case _ => exact effect_openBracket h
  case _ => exact effect_openToken hvalue h
  case _ => exact effect_openToken hvalue h
  case _ => exact effect_openToken hvalue h
  case _ => exact effect_openToken hvalue h
  case _ => exact effect_openToken hvalue h
  case _ =>
    split at h
    · exact effect_openToken hvalue h
    · cases h

theorem effect_openKey (hvalue : s.phase ≠ .done) (h : s.openKey c = .ok (next, events)) :
    s.Effect next events := by
  rw [openKey] at h
  split at h
  · exact effect_openToken hvalue h
  · cases h

theorem effect_proceed (hphase : s.phase.awaitsValue = false)
    (h : s.proceed c = .ok (next, events)) : s.Effect next events := by
  unfold proceed at h
  split at h
  · cases h
    exact .separated _ hphase
  · cases h
    exact .separated _ hphase
  · exact effect_closeBracket hphase h
  · exact effect_closeBracket hphase h
  · cases h

theorem effect_between (h : s.between skip c = .ok (next, events)) : s.Effect next events := by
  rw [between] at h
  split at h
  · cases h
    exact .silent rfl rfl fun _ => rfl
  · have hopen {phase : Phase} (hphase : s.phase = phase) (hne : phase ≠ .done) :
        s.phase ≠ .done := hphase ▸ hne
    have hclose {phase : Phase} (hphase : s.phase = phase) (hno : phase.awaitsValue = false) :
        s.phase.awaitsValue = false := hphase ▸ hno
    split at h
    case h_1 hphase => exact effect_openValue (hopen hphase (by decide)) h
    case h_2 hphase =>
      split at h
      · exact effect_closeBracket (hclose hphase rfl) h
      · exact effect_openValue (hopen hphase (by decide)) h
    case h_3 hphase =>
      split at h
      · exact effect_closeBracket (hclose hphase rfl) h
      · exact effect_openKey (hopen hphase (by decide)) h
    case h_4 hphase => exact effect_openKey (hopen hphase (by decide)) h
    case h_5 hphase =>
      split at h
      · cases h
        refine .silent rfl (by rw [hphase]; rfl) fun hended => ?_
        exact absurd (congrArg phase hended) (hopen hphase (by decide))
      · cases h
    case h_6 hphase => exact effect_proceed (hclose hphase rfl) h
    case h_7 => cases h

theorem effect_closeText {isKey : Bool} {content : List UInt8}
    (h : s.closeText skip isKey content = .ok (next, events)) : s.Effect next events := by
  obtain ⟨text, -, h⟩ := Files.eq_ok_of_bind h
  cases isKey with
  | true =>
      cases h
      exact .key text
  | false =>
      cases h
      exact .scalar (.text text)

theorem silent_of_token {t : Token} (htoken : s.token ≠ .none) :
    s.Effect { s with token := t } [] :=
  .silent rfl rfl fun hended => absurd (congrArg token hended) htoken

theorem effect_wordStep {rest : List Char} (htoken : s.token ≠ .none)
    (h : s.wordStep rest c = .ok (next, events)) : s.Effect next events := by
  unfold wordStep at h
  split at h
  · split at h
    · cases h
    · split at h
      · cases h
        exact .scalar .other
      · cases h
        exact silent_of_token htoken
  · cases h

theorem effect_settle {b : UInt8} (h : s.settle skip b = .ok (next, events)) :
    s.Effect next events := by
  rw [settle] at h
  split at h
  · obtain ⟨more, -, h⟩ := Files.eq_ok_of_bind h
    cases more with
    | some n =>
        cases h
        exact .silent rfl rfl fun _ => rfl
    | none =>
        obtain ⟨v, -, h⟩ := Files.eq_ok_of_bind h
        cases h
        exact .scalar v
  · cases h
    exact .silent rfl rfl fun _ => rfl

theorem effect_step {b : UInt8} (h : s.step skip b = .ok (next, events)) :
    s.Effect next events := by
  rw [step] at h
  split at h
  case h_1 => exact effect_between h
  case h_2 htoken =>
    obtain ⟨progress, -, h⟩ := Files.eq_ok_of_bind h
    cases progress with
    | more q =>
        cases h
        exact silent_of_token (by simp [htoken])
    | closed content => exact effect_closeText h
  case h_3 htoken => exact effect_wordStep (by simp [htoken]) h
  case h_4 htoken =>
    obtain ⟨more, -, h⟩ := Files.eq_ok_of_bind h
    cases more with
    | some n =>
        cases h
        exact silent_of_token (by simp [htoken])
    | none => cases h

theorem step_ended (b : UInt8) : ended.step skip b =
    if isBlank (.ofUInt8 b) then .ok (ended, []) else .error .malformed :=
  rfl

theorem events_of_finish (h : s.finish skip = .ok events) :
    events = [] ∨ ∃ v, events = [.scalar v] := by
  rw [finish] at h
  split at h
  · cases h
    exact .inl rfl
  · split at h
    · next n _ _ =>
        cases hvalue : numberOf skip n with
        | error fault =>
            rw [hvalue] at h
            cases h
        | ok v =>
            rw [hvalue] at h
            cases h
            exact .inr ⟨v, rfl⟩
    · cases h
  · cases h

end Scanner

end Testbench.Json
