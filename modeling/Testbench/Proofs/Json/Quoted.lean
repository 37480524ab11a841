import Testbench.Json.Token
import Testbench.Proofs.Text.Encoding

namespace Testbench.Json.Quoted

open Text

def run (q : Quoted) : List UInt8 → Option Quoted
  | [] => some q
  | b :: bs =>
      match q.step false b with
      | .ok (.more next) => next.run bs
      | _ => none

theorem run_append (q : Quoted) (as bs : List UInt8) :
    q.run (as ++ bs) = (q.run as).bind fun next => next.run bs := by
  induction as generalizing q with
  | nil => rfl
  | cons b as ih =>
      rw [List.cons_append, run, run]
      split
      · exact ih _
      · rfl

def IsPlain (b : UInt8) : Prop :=
  Char.ofUInt8 b ≠ '"' ∧ Char.ofUInt8 b ≠ '\\' ∧ isControl (.ofUInt8 b) = false

theorem run_of_isPlain (content bs : List UInt8) (h : ∀ b ∈ bs, IsPlain b) :
    run ⟨content, .outside⟩ bs = some ⟨bs.reverse ++ content, .outside⟩ := by
  induction bs generalizing content with
  | nil => rfl
  | cons b bs ih =>
      obtain ⟨hquote, hbackslash, hcontrol⟩ := h b List.mem_cons_self
      rw [run, step]
      simp only [if_neg hquote, if_neg hbackslash, hcontrol, Bool.false_eq_true, if_false]
      rw [ih _ fun b' hb' => h b' (List.mem_cons_of_mem _ hb')]
      simp

theorem isPlain_of_le {b : UInt8} (h : 128 ≤ b.toNat) : IsPlain b := by
  have hcode : (Char.ofUInt8 b).toNat = b.toNat := UInt8.toNat_toUInt32 b
  refine ⟨fun heq => ?_, fun heq => ?_, ?_⟩
  · rw [heq] at hcode
    have : '"'.toNat = 34 := rfl
    omega
  · rw [heq] at hcode
    have : '\\'.toNat = 92 := rfl
    omega
  · rw [isControl, hcode, decide_eq_false_iff_not]
    omega

theorem isPlain_of_mem {c : Char} (hquote : c ≠ '"') (hbackslash : c ≠ '\\')
    (hcontrol : isControl c = false) : ∀ b ∈ String.utf8EncodeChar c, IsPlain b := by
  intro b hb
  by_cases hascii : c.toNat < 128
  · rw [Utf8.encodeChar_of_ascii hascii, List.mem_singleton] at hb
    rw [hb, IsPlain, Utf8.ofUInt8_ofNat hascii]
    exact ⟨hquote, hbackslash, hcontrol⟩
  · exact isPlain_of_le (Utf8.le_of_mem_encodeChar (by omega) hb)

theorem hexPadded_of_control : ∀ n < 32,
    Numeral.hexPadded 4 n = ['0', '0', (n / 16).digitChar, (n % 16).digitChar] := by
  decide

theorem run_control (content : List UInt8) {c : Char} (hcontrol : isControl c = true) :
    run ⟨content, .outside⟩ (Utf8.encode ('\\' :: 'u' :: Numeral.hexPadded 4 c.toNat)) =
      some ⟨(String.utf8EncodeChar c).reverse ++ content, .outside⟩ := by
  have hlt : c.toNat < 32 := by simpa [isControl] using hcontrol
  have hvalue := Numeral.value?_hexPadded 4 c.toNat
  have hascii : ∀ d < 16, d.digitChar.toNat < 128 := by decide
  have hhigh := hascii (c.toNat / 16) (by omega)
  have hlow := hascii (c.toNat % 16) (by omega)
  have hunit : codeUnit false ⟨content, .digits ['0', '0', (c.toNat / 16).digitChar] none⟩ none
      c.toNat = .ok ⟨(String.utf8EncodeChar c).reverse ++ content, .outside⟩ := by
    have hlowUnit : isLowSurrogate c.toNat = false := by simp [isLowSurrogate]; omega
    have hhighUnit : isHighSurrogate c.toNat = false := by simp [isHighSurrogate]; omega
    simp [codeUnit, hlowUnit, hhighUnit, push]
  rw [hexPadded_of_control _ hlt] at hvalue ⊢
  have hfirst : run ⟨content, .outside⟩ (Utf8.encode ['\\', 'u', '0', '0']) =
      some ⟨content, .digits ['0', '0'] none⟩ := rfl
  change run _ (Utf8.encode (['\\', 'u', '0', '0'] ++ [_, _])) = _
  rw [Utf8.encode_append, run_append, hfirst, Option.bind_some]
  rw [Utf8.encode_cons_of_ascii hhigh, Utf8.encode_cons_of_ascii hlow]
  simp only [run, step, Utf8.ofUInt8_ofNat hhigh, Utf8.ofUInt8_ofNat hlow, digit, List.length_cons,
    List.length_nil, Except.map, Nat.reduceAdd, Nat.reduceLT, if_true, if_false, List.cons_append,
    List.nil_append, hvalue, hunit]
  rfl

theorem run_escaped (content : List UInt8) (c : Char) :
    run ⟨content, .outside⟩ (Utf8.encode (escaped c)) =
      some ⟨(String.utf8EncodeChar c).reverse ++ content, .outside⟩ := by
  unfold escaped
  split
  case _ => rfl
  case _ => rfl
  case _ => rfl
  case _ => rfl
  case _ => rfl
  case _ => rfl
  case _ => rfl
  case _ hquote hbackslash _ _ _ _ _ =>
    by_cases hcontrol : isControl c = true
    · rw [if_pos hcontrol]
      exact run_control content hcontrol
    · rw [if_neg hcontrol]
      have hplain := isPlain_of_mem hquote hbackslash (Bool.eq_false_iff.2 hcontrol)
      rw [Utf8.encode_cons, Utf8.encode, List.flatMap_nil, List.append_nil]
      exact run_of_isPlain content _ hplain

theorem run_flatMap_escaped (content : List UInt8) (s : List Char) :
    run ⟨content, .outside⟩ (Utf8.encode (s.flatMap escaped)) =
      some ⟨(Utf8.encode s).reverse ++ content, .outside⟩ := by
  induction s generalizing content with
  | nil => rfl
  | cons c s ih =>
      rw [List.flatMap_cons, Utf8.encode_append, run_append, run_escaped, Option.bind_some, ih]
      rw [Utf8.encode_cons, List.reverse_append, List.append_assoc]

end Testbench.Json.Quoted
