import Testbench.Proofs.Memory.Mirror

namespace Testbench

def placedAt? {α : Type} (position : Nat) (vs : List α) (i : Nat) : Option α :=
  if position ≤ i then vs[i - position]? else none

theorem getElem?_overwrite_of_fits {α : Type} {xs : Array α} {position : Nat} {vs : List α}
    (h : position + vs.length ≤ xs.size) (i : Nat) :
    (overwrite xs position vs)[i]? = (placedAt? position vs i).or xs[i]? := by
  rw [getElem?_overwrite, placedAt?]
  by_cases hi : position ≤ i ∧ i < position + vs.length
  · rw [if_pos ⟨hi.1, hi.2, by omega⟩, if_pos hi.1, List.getElem?_eq_getElem (by omega),
      Option.some_or]
  · have hnone : (if position ≤ i then vs[i - position]? else none) = none := by
      split
      · exact List.getElem?_eq_none (by omega)
      · rfl
    rw [if_neg fun h => hi ⟨h.1, h.2.1⟩, hnone, Option.none_or]

/-- A memory as cells at positions, which are all there is to it. -/
structure MemoryView (μ V : Type) where
  size : μ → Nat
  cell? : μ → Nat → Option V
  ext : ∀ {a b : μ}, (∀ i, cell? a i = cell? b i) → a = b

namespace MemoryView

variable {μ V : Type} {v : MemoryView μ V} {first second : μ → μ × Except MemoryError Unit}

/-- Which cells a run sets and how it ends is told by the size of the memory alone, and it keeps the
other cells. -/
def Patches (v : MemoryView μ V) (run : μ → μ × Except MemoryError Unit) : Prop :=
  ∀ n, ∃ (result : Except MemoryError Unit) (cells : Nat → Option V), ∀ memory,
    v.size memory = n → ∃ next, run memory = (next, result) ∧ v.size next = n ∧
      ∀ i, v.cell? next i = (cells i).or (v.cell? memory i)

def andThen (first second : μ → μ × Except MemoryError Unit) (memory : μ) :
    μ × Except MemoryError Unit :=
  match first memory with
  | (memory, .ok ()) => second memory
  | (memory, .error e) => (memory, .error e)

theorem Patches.done : v.Patches fun memory => (memory, .ok ()) :=
  fun _ => ⟨.ok (), fun _ => none, fun memory hsize => ⟨memory, rfl, hsize, fun _ => rfl⟩⟩

theorem Patches.andThen (hfirst : v.Patches first) (hsecond : v.Patches second) :
    v.Patches (andThen first second) := by
  intro n
  obtain ⟨result, cells, hrun⟩ := hfirst n
  obtain ⟨result', cells', hrun'⟩ := hsecond n
  cases result with
  | error e =>
      refine ⟨.error e, cells, fun memory hsize => ?_⟩
      obtain ⟨next, heq, hnext⟩ := hrun memory hsize
      refine ⟨next, ?_, hnext⟩
      rw [MemoryView.andThen, heq]
  | ok u =>
      refine ⟨result', fun i => (cells' i).or (cells i), fun memory hsize => ?_⟩
      obtain ⟨next, heq, hnext, hcells⟩ := hrun memory hsize
      obtain ⟨last, heq', hlast, hcells'⟩ := hrun' next hnext
      refine ⟨last, ?_, hlast, fun i => by rw [hcells', hcells, Option.or_assoc]⟩
      rw [MemoryView.andThen, heq]
      exact heq'

theorem Patches.again (h : v.Patches first) (memory : μ) :
    first (first memory).1 = first memory := by
  obtain ⟨result, cells, hrun⟩ := h (v.size memory)
  obtain ⟨next, heq, hnext, hcells⟩ := hrun memory rfl
  obtain ⟨last, heq', -, hcells'⟩ := hrun next hnext
  rw [heq, heq']
  refine congrArg (·, result) (v.ext fun i => ?_)
  rw [hcells', hcells, ← Option.or_assoc, Option.or_self]

end MemoryView

namespace WordMemory

def view : MemoryView WordMemory UInt32 where
  size := size
  cell? := get?
  ext h := congrArg WordMemory.mk (Array.ext_getElem? h)

theorem patches_store (base : Nat) (ws : Words) : view.Patches (store · base ws) := by
  intro n
  by_cases hfits : base / 4 + ws.length ≤ n
  · refine ⟨.ok (), placedAt? (base / 4) ws.toList, ?_⟩
    rintro m rfl
    refine ⟨_, store_eq_ok_iff.2 ⟨hfits, rfl⟩, size_overwrite .., getElem?_overwrite_of_fits ?_⟩
    rwa [Words.length_toList]
  · refine ⟨.error (.indexOutOfRange (max (base / 4) n) n), fun _ => none, ?_⟩
    rintro m rfl
    exact ⟨m, if_neg hfits, rfl, fun _ => rfl⟩

end WordMemory

namespace BusRam

def view : MemoryView BusRam UInt8 where
  size := size
  cell? := byte?
  ext h := congrArg BusRam.mk (Array.ext_getElem? h)

def putChecked (address : Nat) (w : UInt32) (ram : BusRam) : BusRam × Except MemoryError Unit :=
  match ram.check address with
  | .ok () => (ram.put address w, .ok ())
  | .error e => (ram, .error e)

theorem patches_putChecked (address : Nat) (w : UInt32) : view.Patches (putChecked address w) := by
  intro n
  have hsize : (zeroed n).size = n := Array.size_replicate
  cases hcheck : (zeroed n).check address with
  | error e =>
      refine ⟨.error e, fun _ => none, fun ram hram => ⟨ram, ?_, hram, fun _ => rfl⟩⟩
      rw [putChecked, check_congr (hram.trans hsize.symm), hcheck]
  | ok u =>
      refine ⟨.ok (), placedAt? address (LittleEndian.bytes 4 w.toNat), fun ram hram => ?_⟩
      rw [← check_congr (hram.trans hsize.symm)] at hcheck
      have hfits := (check_eq_ok_iff.1 hcheck).2
      refine ⟨ram.put address w, ?_, (size_put ram address w).trans hram,
        getElem?_overwrite_of_fits ?_⟩
      · rw [putChecked, hcheck]
      · rwa [LittleEndian.length_bytes]

theorem patches_storeList (address : Nat) (ws : List UInt32) :
    view.Patches (storeList · address ws) := by
  induction ws generalizing address with
  | nil => exact .done
  | cons w ws ih =>
      have hsteps : (storeList · address (w :: ws)) =
          MemoryView.andThen (putChecked address w) (storeList · (address + 4) ws) := by
        funext ram
        rw [storeList, MemoryView.andThen, putChecked]
        cases ram.check address <;> rfl
      rw [hsteps]
      exact (patches_putChecked address w).andThen (ih (address + 4))

theorem patches_store (base : Nat) (ws : Words) : view.Patches (store · base ws) := by
  simp only [store_eq]
  exact patches_storeList base ws.toList

end BusRam

end Testbench
