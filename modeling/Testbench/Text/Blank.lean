import Testbench.Text.Class

namespace Testbench.Text

def blankRanges : List (Nat × Nat) :=
  [(0x85, 0x85), (0xa0, 0xa0), (0x1680, 0x1680), (0x2000, 0x200a), (0x2028, 0x2029),
   (0x202f, 0x202f), (0x205f, 0x205f), (0x3000, 0x3000)]

/-- A character of the property `White_Space`. -/
def isBlank (c : Char) : Bool :=
  c = ' ' || (9 ≤ c.toNat && c.toNat ≤ 13) || within blankRanges c

theorem isBlank_of_ascii {c : Char} (hlow : 33 ≤ c.toNat) (hhigh : c.toNat < 128) :
    isBlank c = false := by
  have hne : c ≠ ' ' := by
    rintro rfl
    exact absurd hlow (by decide)
  have hwithin : within blankRanges c = false := by
    rw [Bool.eq_false_iff, Ne, within_eq_true_iff]
    rintro ⟨range, hrange, hle, -⟩
    have hbeyond : ∀ range ∈ blankRanges, 128 ≤ range.1 := by decide
    have := hbeyond range hrange
    omega
  simp only [isBlank, hne, hwithin, decide_false, Bool.false_or, Bool.or_false,
    Bool.and_eq_false_iff, decide_eq_false_iff_not]
  omega

def trimLeft (s : List Char) : List Char :=
  s.dropWhile isBlank

def trimRight (s : List Char) : List Char :=
  (trimLeft s.reverse).reverse

def trim (s : List Char) : List Char :=
  trimRight (trimLeft s)

theorem trimLeft_of_forall {s : List Char} (h : ∀ c ∈ s, isBlank c = false) : trimLeft s = s := by
  cases s with
  | nil => rfl
  | cons c s => exact List.dropWhile_cons_of_neg (by simp [h c List.mem_cons_self])

theorem trim_of_forall {s : List Char} (h : ∀ c ∈ s, isBlank c = false) : trim s = s := by
  rw [trim, trimLeft_of_forall h, trimRight, trimLeft_of_forall, List.reverse_reverse]
  exact fun c hc => h c (List.mem_reverse.1 hc)

def trimString (s : String) : String :=
  .ofList (trim s.toList)

end Testbench.Text
