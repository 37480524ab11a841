namespace Testbench.Numeral

def digitValue? (radix : Nat) (c : Char) : Option Nat :=
  let value :=
    if '0' ≤ c ∧ c ≤ '9' then c.toNat - '0'.toNat
    else if 'a' ≤ c ∧ c ≤ 'z' then c.toNat - 'a'.toNat + 10
    else if 'A' ≤ c ∧ c ≤ 'Z' then c.toNat - 'A'.toNat + 10
    else radix
  if value < radix then some value else none

theorem digitValue?_lt {radix : Nat} {c : Char} {d : Nat}
    (h : digitValue? radix c = some d) : d < radix := by
  simp only [digitValue?, Option.ite_none_right_eq_some, Option.some.injEq] at h
  exact h.2 ▸ h.1

def value? (radix : Nat) : Nat → List Char → Option Nat
  | acc, [] => some acc
  | acc, c :: s =>
      match digitValue? radix c with
      | some d => value? radix (acc * radix + d) s
      | none => none

def natural? (radix : Nat) (s : List Char) : Option Nat :=
  if s = [] then none else value? radix 0 s

def dropPlus : List Char → List Char
  | '+' :: s => s
  | s => s

def below? (bound radix : Nat) (s : List Char) : Option Nat :=
  (natural? radix (dropPlus s)).filter (· < bound)

def word? (radix : Nat) (s : List Char) : Option UInt32 :=
  (below? UInt32.size radix s).map UInt32.ofNat

def hexDigits? : List Char → Option (List Char)
  | '0' :: 'x' :: s => some s
  | '0' :: 'X' :: s => some s
  | _ => none

def decimal (n : Nat) : List Char :=
  Nat.toDigits 10 n

def hex (n : Nat) : List Char :=
  Nat.toDigits 16 n

def hexPadded (width n : Nat) : List Char :=
  (hex n).leftpad width '0'

def hexMarked (n : Nat) : List Char :=
  '0' :: 'x' :: hex n

def hexMarkedPadded (width n : Nat) : List Char :=
  '0' :: 'x' :: hexPadded width n

theorem value?_append (radix acc : Nat) (as bs : List Char) :
    value? radix acc (as ++ bs) = (value? radix acc as).bind fun n => value? radix n bs := by
  induction as generalizing acc with
  | nil => rfl
  | cons c as ih =>
      simp only [List.cons_append, value?]
      cases digitValue? radix c with
      | none => rfl
      | some d => exact ih _

theorem digitValue?_of_mem {radix acc n : Nat} {s : List Char} (h : value? radix acc s = some n)
    {c : Char} (hc : c ∈ s) : (digitValue? radix c).isSome := by
  induction s generalizing acc with
  | nil => cases hc
  | cons d s ih =>
      simp only [value?] at h
      cases hd : digitValue? radix d with
      | none =>
          rw [hd] at h
          cases h
      | some v =>
          rw [hd] at h
          rcases List.mem_cons.1 hc with rfl | hc
          · exact Option.isSome_of_eq_some hd
          · exact ih h hc

theorem ascii_of_digitValue? {radix : Nat} {c : Char} (h : (digitValue? radix c).isSome) :
    33 ≤ c.toNat ∧ c.toNat < 128 := by
  have hbetween {low high : Char} (hlow : 33 ≤ low.toNat) (hhigh : high.toNat < 128)
      (hc : low ≤ c ∧ c ≤ high) : 33 ≤ c.toNat ∧ c.toNat < 128 :=
    ⟨Nat.le_trans hlow (UInt32.le_iff_toNat_le.1 hc.1),
      Nat.lt_of_le_of_lt (UInt32.le_iff_toNat_le.1 hc.2) hhigh⟩
  rw [digitValue?] at h
  split at h
  · next hdigit => exact hbetween (by decide) (by decide) hdigit
  · split at h
    · next hlower => exact hbetween (by decide) (by decide) hlower
    · split at h
      · next hupper => exact hbetween (by decide) (by decide) hupper
      · simp at h

theorem digitValue?_digitChar {radix d : Nat} (hradix : radix ≤ 16) (h : d < radix) :
    digitValue? radix d.digitChar = some d := by
  have hall : ∀ radix ≤ 16, ∀ d < radix, digitValue? radix d.digitChar = some d := by decide
  exact hall radix hradix d h

theorem value?_toDigits {radix : Nat} (hone : 1 < radix) (hradix : radix ≤ 16) (n : Nat) :
    value? radix 0 (Nat.toDigits radix n) = some n := by
  induction n using Nat.strongRecOn with
  | ind n ih =>
      by_cases hn : n < radix
      · rw [Nat.toDigits_of_lt_base hn]
        simp [value?, digitValue?_digitChar hradix hn]
      · have hq : 0 < n / radix := Nat.div_pos (by omega) (by omega)
        have hr : n % radix < radix := Nat.mod_lt _ (by omega)
        have hlt : n / radix < n := Nat.div_lt_self (by omega) hone
        have hsplit := Nat.toDigits_append_toDigits hone hq hr
        rw [Nat.div_add_mod, Nat.toDigits_of_lt_base hr] at hsplit
        rw [← hsplit, value?_append, ih _ hlt]
        simp [value?, digitValue?_digitChar hradix hr, Nat.div_add_mod']

theorem value?_hex (n : Nat) : value? 16 0 (hex n) = some n :=
  value?_toDigits (by decide) (by decide) n

theorem hex_ne_nil (n : Nat) : hex n ≠ [] :=
  Nat.toDigits_ne_nil

theorem hexPadded_ne_nil (width n : Nat) : hexPadded width n ≠ [] := by
  simp [hexPadded, List.leftpad, hex_ne_nil]

theorem value?_zeros {radix : Nat} (hradix : 0 < radix) (count : Nat) :
    value? radix 0 (List.replicate count '0') = some 0 := by
  induction count with
  | zero => rfl
  | succ count ih => simpa [List.replicate_succ, value?, digitValue?, hradix] using ih

theorem value?_hexPadded (width n : Nat) : value? 16 0 (hexPadded width n) = some n := by
  rw [hexPadded, List.leftpad, value?_append, value?_zeros (by decide)]
  exact value?_hex n

theorem value?_of_natural? {radix n : Nat} {s : List Char} (h : natural? radix s = some n) :
    value? radix 0 s = some n := by
  rw [natural?] at h
  split at h
  · cases h
  · exact h

theorem digitValue?_plus (radix : Nat) : digitValue? radix '+' = none := by
  simp [digitValue?]

theorem notMem_of_natural? {radix n : Nat} {s : List Char} {c : Char}
    (h : natural? radix s = some n) (hc : digitValue? radix c = none) : c ∉ s := by
  intro hmem
  have hdigit := digitValue?_of_mem (value?_of_natural? h) hmem
  rw [hc] at hdigit
  cases hdigit

theorem dropPlus_of_natural? {radix n : Nat} {s : List Char} (h : natural? radix s = some n) :
    dropPlus s = s := by
  rw [dropPlus.eq_def]
  split
  · exact absurd List.mem_cons_self (notMem_of_natural? h (digitValue?_plus radix))
  · rfl

theorem below?_of_natural? {bound radix n : Nat} {s : List Char} (hlt : n < bound)
    (h : natural? radix s = some n) : below? bound radix s = some n := by
  rw [below?, dropPlus_of_natural? h, h]
  simp [Option.filter, hlt]

theorem word?_of_natural? {radix n : Nat} {s : List Char} (hlt : n < UInt32.size)
    (h : natural? radix s = some n) : word? radix s = some (.ofNat n) := by
  rw [word?, below?_of_natural? hlt h]
  rfl

theorem word?_eq_none_of_natural? {radix n : Nat} {s : List Char} (hle : UInt32.size ≤ n)
    (h : natural? radix s = some n) : word? radix s = none := by
  rw [word?, below?, dropPlus_of_natural? h, h]
  simp [Option.filter, hle]

theorem natural?_hex (n : Nat) : natural? 16 (hex n) = some n := by
  rw [natural?, if_neg (hex_ne_nil n), value?_hex]

theorem natural?_hexPadded (width n : Nat) : natural? 16 (hexPadded width n) = some n := by
  rw [natural?, if_neg (hexPadded_ne_nil width n), value?_hexPadded]

end Testbench.Numeral
