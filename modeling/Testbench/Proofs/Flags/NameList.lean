import Testbench.Proofs.Flags.Names
import Testbench.Proofs.Text.Items

namespace Testbench.FlagTable

def Listed (names : List String) (list : String) : Prop :=
  Text.Itemizes (names.map String.toList) list.toList

def Lists (list name : String) : Prop :=
  ∃ names, Listed names list ∧ name ∈ names

variable {t : FlagTable} {list name : String} {names : List String}

theorem namesOf_eq (list : String) :
    namesOf list = (Text.items list.toList).map String.ofList := by
  rw [namesOf, Text.items]

theorem listed_iff : Listed names list ↔ namesOf list = names := by
  rw [Listed, Text.itemizes_iff, namesOf_eq]
  constructor
  · intro h
    simp [h, Function.comp_def]
  · rintro rfl
    simp [Function.comp_def]

theorem lists_iff : Lists list name ↔ name ∈ namesOf list := by
  simp only [Lists, listed_iff]
  constructor
  · rintro ⟨_, rfl, hname⟩
    exact hname
  · intro hname
    exact ⟨_, rfl, hname⟩

theorem lists_iff_mem_of_subset (hlisted : namesOf list ⊆ names) (hnames : names ⊆ namesOf list)
    (name : String) : Lists list name ↔ name ∈ names :=
  lists_iff.trans ⟨fun h => hlisted h, fun h => hnames h⟩

theorem foldlM_encodeName_of_unknown (h : ¬ ∀ name ∈ names, name ∈ t.entries.map Prod.fst)
    (status : UInt32) :
    ∃ flag, names.foldlM t.encodeName status = .error (.unknownFlag flag t.name) := by
  induction names generalizing status with
  | nil => exact absurd (fun _ hname => absurd hname List.not_mem_nil) h
  | cons name names ih =>
      rw [List.foldlM_cons, encodeName]
      cases hvalue : t.value? name with
      | none => exact ⟨name, rfl⟩
      | some bits =>
          have hknown := mem_of_value?_eq_some hvalue
          exact ih (fun hnames => h (List.forall_mem_cons.2 ⟨hknown, hnames⟩)) _

theorem encode_cases (t : FlagTable) (list : String) :
    ((∀ name, Lists list name → name ∈ t.entries.map Prod.fst) ∧ ∃ bits, t.encode list = .ok bits) ∨
    ((¬ ∀ name, Lists list name → name ∈ t.entries.map Prod.fst) ∧
      ∃ flag, t.encode list = .error (.unknownFlag flag t.name)) := by
  simp only [lists_iff]
  by_cases h : ∀ name ∈ namesOf list, name ∈ t.entries.map Prod.fst
  · exact .inl ⟨h, foldlM_encodeName_isOk_iff.2 h⟩
  · exact .inr ⟨h, foldlM_encodeName_of_unknown h 0⟩

end Testbench.FlagTable
