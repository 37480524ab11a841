import Testbench.Flags.Literal
import Testbench.Proofs.Text.Spelling

namespace Testbench.Flags

def baseLetters : List (Char × Nat) :=
  [('b', 2), ('o', 8), ('d', 10), ('h', 16)]

inductive OpensBase (radix : Nat) : List Char → Prop where
  | mk {size sign : List Char} {low letter : Char} (hsize : quote ∉ size)
      (hsign : sign = [] ∨ sign = ['s'] ∨ sign = ['S']) (hlow : (low, radix) ∈ baseLetters)
      (hletter : letter = low ∨ letter = low.toUpper) :
      OpensBase radix (size ++ quote :: (sign ++ [letter]))

def Digits (radix n : Nat) (text : List Char) : Prop :=
  Numeral.Spelled radix n (text.filter (· ≠ '_'))

inductive Spells (n : Nat) : List Char → Prop where
  | decimal {digits : List Char} (hdigits : Digits 10 n digits) : Spells n digits
  | hexadecimal {mark : Char} {digits : List Char} (hmark : mark = 'x' ∨ mark = 'X')
      (hdigits : Digits 16 n digits) : Spells n ('0' :: mark :: digits)
  | based {radix : Nat} {opening digits : List Char} (hopening : OpensBase radix opening)
      (hdigits : Digits radix n digits) : Spells n (opening ++ digits)

inductive SpoilsDigits (radix : Nat) : List Char → Prop where
  | missing {text : List Char} (h : ∀ c ∈ text, ¬Numeral.IsDigit radix c) : SpoilsDigits radix text
  | broken {before after : List Char} {d c : Char} (hd : Numeral.IsDigit radix d) (hc : c ∈ after)
      (hunderscore : c ≠ '_') (hdigit : ¬Numeral.IsDigit radix c) :
      SpoilsDigits radix (before ++ d :: after)

variable {radix n : Nat} {text opening digits : List Char}

theorem afterQuote?_append (h : quote ∉ text) (rest : List Char) :
    afterQuote? (text ++ quote :: rest) = some rest := by
  induction text with
  | nil => exact if_pos rfl
  | cons c text ih =>
      obtain ⟨hc, htext⟩ := List.ne_and_not_mem_of_not_mem_cons h
      rw [List.cons_append, afterQuote?, if_neg (Ne.symm hc), ih htext]

theorem afterQuote?_of_notMem (h : quote ∉ text) : afterQuote? text = none := by
  induction text with
  | nil => rfl
  | cons c text ih =>
      obtain ⟨hc, htext⟩ := List.ne_and_not_mem_of_not_mem_cons h
      rw [afterQuote?, if_neg (Ne.symm hc), ih htext]

theorem radix?_of_letter {low letter : Char} (hlow : (low, radix) ∈ baseLetters)
    (hletter : letter = low ∨ letter = low.toUpper) :
    radix? letter = some radix ∧ letter ≠ '_' ∧ 1 < radix ∧ radix ≤ 16 ∧
      ∀ digits, dropSigned (letter :: digits) = letter :: digits := by
  simp only [baseLetters, List.mem_cons, Prod.mk.injEq, List.not_mem_nil, or_false] at hlow
  rcases hlow with ⟨rfl, rfl⟩ | ⟨rfl, rfl⟩ | ⟨rfl, rfl⟩ | ⟨rfl, rfl⟩ <;>
    rcases hletter with rfl | rfl <;>
      exact ⟨rfl, by decide, by decide, by decide, fun _ => rfl⟩

theorem OpensBase.bounds (h : OpensBase radix opening) : 1 < radix ∧ radix ≤ 16 := by
  obtain ⟨-, -, hlow, hletter⟩ := h
  obtain ⟨-, -, hone, hradix, -⟩ := radix?_of_letter hlow hletter
  exact ⟨hone, hradix⟩

theorem OpensBase.literal?_append (h : OpensBase radix opening) (digits : List Char) :
    literal? (opening ++ digits) = Numeral.word? radix (digits.filter (· ≠ '_')) := by
  obtain @⟨size, sign, low, letter, hsize, hsign, hlow, hletter⟩ := h
  obtain ⟨hbase, hunderscore, -, -, hletters⟩ := radix?_of_letter hlow hletter
  have hsize : quote ∉ size.filter (· ≠ '_') := fun hmem => hsize (List.mem_filter.1 hmem).1
  have hsigned : ∀ s, dropSigned (sign ++ letter :: s) = letter :: s := by
    intro s
    rcases hsign with rfl | rfl | rfl
    · exact hletters s
    · rfl
    · rfl
  have hquote : quote ≠ '_' := by decide
  have hsign : sign.filter (· ≠ '_') = sign := by
    rcases hsign with rfl | rfl | rfl <;> rfl
  have hfilter : (size ++ quote :: (sign ++ [letter]) ++ digits).filter (· ≠ '_') =
      size.filter (· ≠ '_') ++ quote :: (sign ++ letter :: digits.filter (· ≠ '_')) := by
    simp only [List.filter_append, List.filter_cons, hsign]
    simp [hquote, hunderscore]
  rw [literal?, hfilter]
  simp only [afterQuote?_append hsize, based?, hsigned, hbase]

theorem Digits.natural?_eq (hone : 1 < radix) (hradix : radix ≤ 16) (h : Digits radix n text) :
    Numeral.natural? radix (text.filter (· ≠ '_')) = some n :=
  Numeral.Spelled.natural?_eq hone hradix h

theorem digitValue?_quote (radix : Nat) : Numeral.digitValue? radix quote = none := by
  simp [Numeral.digitValue?, quote]

theorem literal?_of_decimal (h : Digits 10 n digits) :
    literal? digits = Numeral.word? 10 (digits.filter (· ≠ '_')) := by
  have hnatural := h.natural?_eq (by decide) (by decide)
  have hquote := Numeral.notMem_of_natural? hnatural (digitValue?_quote 10)
  have hunmarked : Numeral.hexDigits? (digits.filter (· ≠ '_')) = none := by
    have hlower : 'x' ∉ digits.filter (· ≠ '_') := Numeral.notMem_of_natural? hnatural (by decide)
    have hupper : 'X' ∉ digits.filter (· ≠ '_') := Numeral.notMem_of_natural? hnatural (by decide)
    rw [Numeral.hexDigits?.eq_def]
    split
    · next heq => exact absurd (heq ▸ by simp) hlower
    · next heq => exact absurd (heq ▸ by simp) hupper
    · rfl
  simp only [literal?, afterQuote?_of_notMem hquote, hunmarked]

theorem literal?_of_hexadecimal {mark : Char} (hmark : mark = 'x' ∨ mark = 'X')
    (h : Digits 16 n digits) :
    literal? ('0' :: mark :: digits) = Numeral.word? 16 (digits.filter (· ≠ '_')) := by
  have hnatural := h.natural?_eq (by decide) (by decide)
  have hquote := Numeral.notMem_of_natural? hnatural (digitValue?_quote 16)
  have hmarked : quote ∉ '0' :: mark :: digits.filter (· ≠ '_') := by
    have hzero : quote ≠ '0' := by decide
    have hmark : quote ≠ mark := by rcases hmark with rfl | rfl <;> decide
    simp only [List.mem_cons, hzero, hmark, hquote, or_self, not_false_eq_true]
  have hfilter : ('0' :: mark :: digits).filter (· ≠ '_') =
      '0' :: mark :: digits.filter (· ≠ '_') := by
    rcases hmark with rfl | rfl <;> simp
  have hdigits : Numeral.hexDigits? ('0' :: mark :: digits.filter (· ≠ '_')) =
      some (digits.filter (· ≠ '_')) := by
    rcases hmark with rfl | rfl <;> rfl
  rw [literal?, hfilter]
  simp only [afterQuote?_of_notMem hmarked, hdigits]

theorem Spells.exists_natural? (h : Spells n text) :
    ∃ radix digits, literal? text = Numeral.word? radix digits ∧
      Numeral.natural? radix digits = some n := by
  cases h with
  | decimal hdigits =>
      exact ⟨_, _, literal?_of_decimal hdigits, hdigits.natural?_eq (by decide) (by decide)⟩
  | hexadecimal hmark hdigits =>
      exact ⟨_, _, literal?_of_hexadecimal hmark hdigits,
        hdigits.natural?_eq (by decide) (by decide)⟩
  | based hopening hdigits =>
      exact ⟨_, _, hopening.literal?_append _,
        hdigits.natural?_eq hopening.bounds.1 hopening.bounds.2⟩

theorem SpoilsDigits.word?_eq_none (hradix : radix ≤ 16) (h : SpoilsDigits radix text) :
    Numeral.word? radix (text.filter (· ≠ '_')) = none := by
  rw [Option.eq_none_iff_forall_ne_some]
  intro w hw
  obtain ⟨⟨first, hfirst, hvalue⟩, htail⟩ := Numeral.digitValue?_of_word? hw
  cases h with
  | missing hmissing =>
      exact hmissing first (List.mem_filter.1 hfirst).1 ((Numeral.isDigit_iff hradix).2 hvalue)
  | @broken before after d c hd hc hunderscore hdigit =>
      have hkept : d ≠ '_' := by
        rintro rfl
        have hvalue := (Numeral.isDigit_iff hradix).1 hd
        simp [Numeral.digitValue?] at hvalue
      have hfilter : (before ++ d :: after).filter (· ≠ '_') =
          before.filter (· ≠ '_') ++ d :: after.filter (· ≠ '_') := by
        simp [hkept]
      have hafter : c ∈ after.filter (· ≠ '_') := List.mem_filter.2 ⟨hc, by simpa using hunderscore⟩
      -- a plus sign may only come first, so the digit before the character is enough
      have hmem : c ∈ (before.filter (· ≠ '_') ++ d :: after.filter (· ≠ '_')).tail := by
        cases before.filter (· ≠ '_') with
        | nil => exact hafter
        | cons first before => exact List.mem_append_right _ (List.mem_cons_of_mem _ hafter)
      exact hdigit ((Numeral.isDigit_iff hradix).2 (htail c (hfilter ▸ hmem)))

/-- A number is read from each of its spellings unless it is too large for a word. A based literal
without digits, or with something else behind a digit, is refused. -/
theorem literal?_of_spelling :
    (∀ n text, Spells n text →
      (literal? text).map UInt32.toNat = if n < UInt32.size then some n else none) ∧
    ∀ radix opening digits, OpensBase radix opening → SpoilsDigits radix digits →
      literal? (opening ++ digits) = none := by
  constructor
  · intro n text h
    obtain ⟨radix, digits, hliteral, hnatural⟩ := h.exists_natural?
    rw [hliteral]
    split
    · next hlt =>
        rw [Numeral.word?_of_natural? hlt hnatural, Option.map_some, UInt32.toNat_ofNat_of_lt' hlt]
    · next hle =>
        rw [Numeral.word?_eq_none_of_natural? (Nat.le_of_not_lt hle) hnatural, Option.map_none]
  · intro radix opening digits hopening hspoilt
    rw [hopening.literal?_append, hspoilt.word?_eq_none hopening.bounds.2]

theorem literal?_of_spelling_mixed :
    (literal? "32'sHdead_BEEF".toList).map UInt32.toNat = some 0xDEADBEEF ∧
      (literal? "0X0_1_0000_0000".toList).map UInt32.toNat = none ∧
      literal? "4'b1_0x1".toList = none ∧ literal? "'o_".toList = none := by
  obtain ⟨hread, hrefused⟩ := literal?_of_spelling
  have hsigned : OpensBase 16 "32'sH".toList :=
    @OpensBase.mk 16 "32".toList ['s'] 'h' 'H' (by decide +kernel) (by decide) (by decide)
      (by decide)
  have hbinary : OpensBase 2 "4'b".toList :=
    @OpensBase.mk 2 "4".toList [] 'b' 'b' (by decide +kernel) (by decide) (by decide) (by decide)
  have hoctal : OpensBase 8 "'o".toList :=
    @OpensBase.mk 8 [] [] 'o' 'o' (by decide) (by decide) (by decide) (by decide)
  have hword : Digits 16 0xDEADBEEF "dead_BEEF".toList := ⟨0, by decide +kernel⟩
  have hlarge : Digits 16 0x100000000 "0_1_0000_0000".toList := ⟨1, by decide +kernel⟩
  have hbroken : SpoilsDigits 2 "1_0x1".toList :=
    @SpoilsDigits.broken 2 [] "_0x1".toList '1' 'x' (by decide) (by decide +kernel) (by decide)
      (by decide)
  have hmissing : SpoilsDigits 8 "_".toList := .missing (List.forall_mem_singleton.2 (by decide))
  exact ⟨hread _ _ (.based hsigned hword), hread _ _ (.hexadecimal (.inr rfl) hlarge),
    hrefused _ _ _ hbinary hbroken, hrefused _ _ _ hoctal hmissing⟩

end Testbench.Flags
