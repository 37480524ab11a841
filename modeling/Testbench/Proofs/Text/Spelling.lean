import Testbench.Numeral
import Testbench.Text.Blank
import Testbench.Text.Class

namespace Testbench.Numeral

variable {radix n : Nat} {c : Char} {text : List Char}

theorem le_iff_toNat_le {a b : Char} : a ≤ b ↔ a.toNat ≤ b.toNat :=
  UInt32.le_iff_toNat_le

theorem toNat_toLower_of_upper (h : 'A' ≤ c ∧ c ≤ 'Z') : c.toLower.toNat = c.toNat + 32 := by
  have hle : c.toNat ≤ 90 := le_iff_toNat_le.1 h.2
  have hlower : c.toLower.val = c.val + 32 := congrArg Char.val (dif_pos h)
  rw [Char.toNat, hlower]
  rw [UInt32.toNat_add]
  exact Nat.mod_eq_of_lt (Nat.lt_of_le_of_lt (Nat.add_le_add_right hle 32) (by decide))

theorem digitValue?_toLower (radix : Nat) (c : Char) :
    digitValue? radix c.toLower = digitValue? radix c := by
  by_cases hupper : 'A' ≤ c ∧ c ≤ 'Z'
  · have hval := toNat_toLower_of_upper hupper
    simp only [le_iff_toNat_le, Char.reduceToNat] at hupper
    have hdigit : ¬(48 ≤ c.toNat + 32 ∧ c.toNat + 32 ≤ 57) := by omega
    have hdigit' : ¬(48 ≤ c.toNat ∧ c.toNat ≤ 57) := by omega
    have hlower : 97 ≤ c.toNat + 32 ∧ c.toNat + 32 ≤ 122 := by omega
    have hlower' : ¬(97 ≤ c.toNat ∧ c.toNat ≤ 122) := by omega
    have hsame : c.toNat + 32 - 97 = c.toNat - 65 := by omega
    simp only [digitValue?, le_iff_toNat_le, hval, Char.reduceToNat, if_neg hdigit, if_neg hdigit',
      if_pos hlower, if_neg hlower', if_pos hupper, hsame]
  · have hsame : c.toLower = c := dif_neg hupper
    rw [hsame]

theorem value?_map_toLower (radix acc : Nat) (s : List Char) :
    value? radix acc (s.map Char.toLower) = value? radix acc s := by
  induction s generalizing acc with
  | nil => rfl
  | cons c s ih => simp only [List.map_cons, value?, digitValue?_toLower, ih]

def Spelled (radix n : Nat) (text : List Char) : Prop :=
  ∃ count, text.map Char.toLower = List.replicate count '0' ++ Nat.toDigits radix n

theorem Spelled.natural?_eq (hone : 1 < radix) (hradix : radix ≤ 16) (h : Spelled radix n text) :
    natural? radix text = some n := by
  obtain ⟨count, hcount⟩ := h
  have hne : text ≠ [] := by
    rintro rfl
    exact absurd hcount.symm (List.append_ne_nil_of_right_ne_nil _ Nat.toDigits_ne_nil)
  rw [natural?, if_neg hne, ← value?_map_toLower, hcount, value?_append,
    value?_zeros (Nat.zero_lt_of_lt hone)]
  exact value?_toDigits hone hradix n

theorem Spelled.decimal (h : Spelled 10 n text) : natural? 10 text = some n :=
  h.natural?_eq (by decide) (by decide)

theorem Spelled.hex (h : Spelled 16 n text) : natural? 16 text = some n :=
  h.natural?_eq (by decide) (by decide)

def IsDigit (radix : Nat) (c : Char) : Prop :=
  ∃ d < radix, c.toLower = d.digitChar

instance : Decidable (IsDigit radix c) :=
  inferInstanceAs (Decidable (∃ d < radix, c.toLower = d.digitChar))

theorem toLower_eq_digitChar {d : Nat} (hradix : radix ≤ 16) (h : digitValue? radix c = some d) :
    c.toLower = d.digitChar := by
  have hchar : ∀ d < 16, d.digitChar.toNat = if d < 10 then 48 + d else 87 + d := by decide
  have hd := digitValue?_lt h
  rw [← Char.toNat_inj, hchar d (Nat.lt_of_lt_of_le hd hradix)]
  by_cases hupper : 'A' ≤ c ∧ c ≤ 'Z'
  · rw [toNat_toLower_of_upper hupper]
    simp only [digitValue?, le_iff_toNat_le, Char.reduceToNat] at h hupper
    grind
  · have hsame : c.toLower = c := dif_neg hupper
    rw [hsame]
    simp only [digitValue?, le_iff_toNat_le, Char.reduceToNat] at h hupper
    grind

theorem isDigit_iff (hradix : radix ≤ 16) : IsDigit radix c ↔ (digitValue? radix c).isSome := by
  constructor
  · rintro ⟨d, hd, hc⟩
    rw [← digitValue?_toLower, hc, digitValue?_digitChar hradix hd]
    rfl
  · intro h
    obtain ⟨d, hd⟩ := Option.isSome_iff_exists.1 h
    exact ⟨d, digitValue?_lt hd, toLower_eq_digitChar hradix hd⟩

theorem digitValue?_of_word? {w : UInt32} (h : word? radix text = some w) :
    (∃ c ∈ text, (digitValue? radix c).isSome) ∧
      ∀ c ∈ text.tail, (digitValue? radix c).isSome := by
  obtain ⟨n, hn, -⟩ := Option.map_eq_some_iff.1 h
  obtain ⟨hnatural, -⟩ := Option.filter_eq_some_iff.1 hn
  have hdigits : ∀ c ∈ dropPlus text, (digitValue? radix c).isSome :=
    fun c hc => digitValue?_of_mem (value?_of_natural? hnatural) hc
  have hne : dropPlus text ≠ [] := by
    intro hnil
    rw [hnil] at hnatural
    cases hnatural
  obtain ⟨first, hfirst⟩ := List.exists_mem_of_ne_nil _ hne
  have hkept : dropPlus text ⊆ text ∧ text.tail ⊆ dropPlus text := by
    rw [dropPlus.eq_def]
    split
    · exact ⟨List.subset_cons_self _ _, List.Subset.refl _⟩
    · exact ⟨List.Subset.refl _, fun _ => List.mem_of_mem_tail⟩
  exact ⟨⟨first, hkept.1 hfirst, hdigits first hfirst⟩, fun c hc => hdigits c (hkept.2 hc)⟩

theorem ne_nil_of_natural? (h : natural? radix text = some n) : text ≠ [] := by
  rintro rfl
  cases h

theorem digitValue?_of_natural? (h : natural? radix text = some n) (hc : c ∈ text) :
    (digitValue? radix c).isSome :=
  digitValue?_of_mem (value?_of_natural? h) hc

theorem isDigit_of_digitValue? (h : (digitValue? 10 c).isSome) : c.isDigit = true := by
  rw [digitValue?] at h
  split at h
  · next hc => simpa [Char.isDigit, Char.le_def] using hc
  · simp only [Option.isSome_ite] at h
    split at h
    · omega
    · split at h <;> omega

theorem isBlank_of_digitValue? (h : (digitValue? radix c).isSome) : Text.isBlank c = false :=
  Text.isBlank_of_ascii (ascii_of_digitValue? h).1 (ascii_of_digitValue? h).2

end Testbench.Numeral
