import Testbench.Json.Scanner
import Testbench.Proofs.Text.Encoding

namespace Testbench.Json

namespace Number

def ofNatural (n : Nat) : Number :=
  .ofDigit false n

theorem natural?_ofNatural (n : Nat) : (ofNatural n).natural? = some n := by
  rw [natural?, if_pos]
  · rfl
  · refine ⟨?_, by simp [ofNatural, ofDigit], by simp [ofNatural, ofDigit]⟩
    simp only [ofNatural, ofDigit]
    split
    · exact .inl rfl
    · exact .inr rfl

theorem digit?_digitChar : ∀ d < 10, digit? (.ofNat d.digitChar.toNat) = some d := by
  decide

theorem ofNatural_of_ne_zero {n : Nat} (hn : n ≠ 0) :
    ofNatural n = ⟨.whole, false, n, 0, false, false, false, 0⟩ := by
  rw [ofNatural, ofDigit, if_neg hn]

theorem step_ofNatural {n d : Nat} (hn : n ≠ 0) (hd : d < 10)
    (hlt : n * 10 + d < UInt64.size) :
    (ofNatural n).step (.ofNat d.digitChar.toNat) = .ok (some (ofNatural (n * 10 + d))) := by
  have hfits : fits ⟨.whole, false, n, 0, false, false, false, 0⟩ d = true :=
    decide_eq_true hlt
  rw [ofNatural_of_ne_zero hn, ofNatural_of_ne_zero (by omega)]
  simp only [step, digit?_digitChar d hd, wholeDigit, hfits, if_true]

def EndsMember (c : Char) : Prop :=
  c = ',' ∨ c = '\n'

theorem EndsMember.ascii {c : Char} (hc : EndsMember c) : c.toNat < 128 := by
  rcases hc with rfl | rfl <;> decide

theorem step_ofNatural_of_endsMember (n : Nat) {c : Char} (hc : EndsMember c) :
    (ofNatural n).step (.ofNat c.toNat) = .ok none := by
  by_cases hn : n = 0
  · subst hn
    rcases hc with rfl | rfl <;> rfl
  · rw [ofNatural_of_ne_zero hn]
    rcases hc with rfl | rfl <;> rfl

end Number

namespace Scanner

theorem between_digitChar (stack : List Bracket) : ∀ d < 10,
    between false ⟨stack, .value, .none⟩ d.digitChar =
      .ok (⟨stack, .value, .number (.ofNatural d)⟩, [])
  | 0, _ | 1, _ | 2, _ | 3, _ | 4, _ | 5, _ | 6, _ | 7, _ | 8, _ | 9, _ => rfl

theorem settle_ofNatural (stack : List Bracket) (phase : Phase) (n : Nat) {c : Char}
    (hc : Number.EndsMember c) :
    settle false ⟨stack, phase, .number (.ofNatural n)⟩ (.ofNat c.toNat) =
      .ok (afterValue stack, [.scalar (.natural n)]) := by
  simp only [settle, Number.step_ofNatural_of_endsMember n hc, numberOf,
    Number.natural?_ofNatural]
  rfl

end Scanner

end Testbench.Json
