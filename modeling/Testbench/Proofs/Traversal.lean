import Mathlib.Data.List.Forall2
import Testbench.Host.Files

namespace Testbench

variable {ε α β : Type} {f g : α → Except ε β}

theorem mapM_eq_ok_iff {xs : List α} {ys : List β} :
    xs.mapM f = .ok ys ↔ List.Forall₂ (fun x y => f x = .ok y) xs ys := by
  induction xs generalizing ys with
  | nil => simp [pure, Except.pure, eq_comm]
  | cons x xs ih =>
      rw [List.mapM_cons, List.forall₂_cons_left_iff]
      constructor
      · intro h
        obtain ⟨y, hy, h⟩ := Files.eq_ok_of_bind h
        obtain ⟨rest, hrest, h⟩ := Files.eq_ok_of_bind h
        cases h
        exact ⟨y, rest, hy, ih.1 hrest, rfl⟩
      · rintro ⟨y, rest, hy, hrest, rfl⟩
        rw [hy, ih.2 hrest]
        rfl

theorem exists_mapM_eq_ok_iff {xs : List α} :
    (∃ ys, xs.mapM f = .ok ys) ↔ ∀ x ∈ xs, ∃ y, f x = .ok y := by
  simp only [mapM_eq_ok_iff]
  induction xs with
  | nil => simp
  | cons x xs ih =>
      rw [List.forall_mem_cons, ← ih]
      constructor
      · rintro ⟨ys, h⟩
        obtain ⟨y, rest, hy, hrest, -⟩ := List.forall₂_cons_left_iff.1 h
        exact ⟨⟨y, hy⟩, rest, hrest⟩
      · rintro ⟨⟨y, hy⟩, rest, hrest⟩
        exact ⟨y :: rest, .cons hy hrest⟩

theorem exists_of_mem_of_mapM {xs : List α} {ys : List β} {y : β} (h : xs.mapM f = .ok ys)
    (hy : y ∈ ys) : ∃ x ∈ xs, f x = .ok y := by
  rw [mapM_eq_ok_iff] at h
  induction h with
  | nil => cases hy
  | cons hx _ ih =>
      rcases List.mem_cons.1 hy with rfl | hy
      · exact ⟨_, List.mem_cons_self, hx⟩
      · obtain ⟨x, hmem, hx⟩ := ih hy
        exact ⟨x, List.mem_cons_of_mem _ hmem, hx⟩

theorem mapM_eq_error_iff {xs : List α} {e : ε} :
    xs.mapM f = .error e ↔ ∃ earlier x later, xs = earlier ++ x :: later ∧
      (∀ y ∈ earlier, ∃ z, f y = .ok z) ∧ f x = .error e := by
  constructor
  · intro h
    induction xs with
    | nil => cases h
    | cons x xs ih =>
        rw [List.mapM_cons] at h
        cases hx : f x with
        | error e' =>
            rw [hx] at h
            cases h
            exact ⟨[], x, xs, rfl, nofun, hx⟩
        | ok y =>
            cases hxs : xs.mapM f with
            | ok ys =>
                rw [hx, hxs] at h
                cases h
            | error e' =>
                rw [hx, hxs] at h
                cases h
                obtain ⟨earlier, x', later, rfl, hearlier, hx'⟩ := ih hxs
                exact ⟨x :: earlier, x', later, rfl,
                  List.forall_mem_cons.2 ⟨⟨y, hx⟩, hearlier⟩, hx'⟩
  · rintro ⟨earlier, x, later, rfl, hearlier, hx⟩
    obtain ⟨ys, hys⟩ := exists_mapM_eq_ok_iff.2 hearlier
    rw [List.mapM_append, List.mapM_cons, hys, hx]
    rfl

theorem exists_of_mapM_eq_error {xs : List α} {e : ε} (h : xs.mapM f = .error e) :
    ∃ x ∈ xs, f x = .error e := by
  obtain ⟨earlier, x, later, rfl, -, hx⟩ := mapM_eq_error_iff.1 h
  exact ⟨x, List.mem_append_right _ List.mem_cons_self, hx⟩

theorem mapM_congr_of_forall {xs : List α} (h : ∀ x ∈ xs, f x = g x) : xs.mapM f = xs.mapM g := by
  induction xs with
  | nil => rfl
  | cons x xs ih =>
      obtain ⟨hx, hxs⟩ := List.forall_mem_cons.1 h
      rw [List.mapM_cons, List.mapM_cons, hx, ih hxs]

variable {δ : Type} {rename : ε → δ}

theorem mapError_bind {x : Except ε α} :
    (x >>= f).mapError rename = x.mapError rename >>= fun a => (f a).mapError rename := by
  cases x <;> rfl

theorem mapM_mapError {xs : List α} :
    xs.mapM (fun x => (f x).mapError rename) = (xs.mapM f).mapError rename := by
  induction xs with
  | nil => rfl
  | cons x xs ih =>
      rw [List.mapM_cons, List.mapM_cons, mapError_bind, ih]
      refine congrArg _ (funext fun y => ?_)
      rw [mapError_bind]
      rfl

end Testbench
