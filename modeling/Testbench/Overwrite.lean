namespace Testbench

def overwrite {α : Type} (xs : Array α) : Nat → List α → Array α
  | _, [] => xs
  | position, v :: vs => overwrite (xs.setIfInBounds position v) (position + 1) vs

@[simp] theorem size_overwrite {α : Type} (xs : Array α) (position : Nat) (vs : List α) :
    (overwrite xs position vs).size = xs.size := by
  induction vs generalizing xs position with
  | nil => rfl
  | cons v vs ih => simp [overwrite, ih]

theorem overwrite_append {α : Type} (xs : Array α) (position : Nat) (as bs : List α) :
    overwrite xs position (as ++ bs) =
      overwrite (overwrite xs position as) (position + as.length) bs := by
  induction as generalizing xs position with
  | nil => rfl
  | cons a as ih =>
      rw [List.cons_append, overwrite, overwrite, ih, List.length_cons]
      congr 1
      omega

theorem getElem?_overwrite {α : Type} (xs : Array α) (position : Nat) (vs : List α) (i : Nat) :
    (overwrite xs position vs)[i]? =
      if position ≤ i ∧ i < position + vs.length ∧ i < xs.size then vs[i - position]?
      else xs[i]? := by
  induction vs generalizing xs position with
  | nil =>
      rw [overwrite, if_neg (by simp; omega)]
  | cons v vs ih =>
      simp only [overwrite, ih, Array.size_setIfInBounds, List.length_cons]
      by_cases hi : i = position
      · subst hi
        by_cases hsize : i < xs.size
        · have hlater : ¬ (i + 1 ≤ i ∧ i < i + 1 + vs.length ∧ i < xs.size) := by omega
          rw [if_neg hlater]
          simp [hsize]
        · simp [hsize]
      · have hne : position ≠ i := Ne.symm hi
        by_cases hlater : position + 1 ≤ i ∧ i < position + 1 + vs.length ∧ i < xs.size
        · have hall : position ≤ i ∧ i < position + (vs.length + 1) ∧ i < xs.size := by omega
          have hsub : i - position = (i - (position + 1)) + 1 := by omega
          rw [if_pos hlater, if_pos hall, hsub, List.getElem?_cons_succ]
        · have hnone : ¬ (position ≤ i ∧ i < position + (vs.length + 1) ∧ i < xs.size) := by omega
          rw [if_neg hlater, if_neg hnone, Array.getElem?_setIfInBounds_ne hne]

end Testbench
