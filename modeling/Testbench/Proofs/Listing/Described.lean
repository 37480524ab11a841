import Mathlib.Data.List.TakeWhile
import Testbench.Proofs.Listing.Line

namespace Testbench.Listing

structure IsKind (text : List Char) : Prop where
  word : Text.IsWord text
  unopened : '[' ∉ text
  unclosed : ']' ∉ text
  letter : ∃ c ∈ text, Text.isDigit c = false
  unnamed : isName text = false

section Name

variable {name kind tail index rest : List Char} {texts : List (List Char)}

theorem exists_of_bracketed?_name (hname : ∀ c ∈ name, Text.isBlank c = false) (hkind : IsKind kind)
    (htail : Printed (kind :: texts) tail)
    (h : bracketed? ('[' :: (name ++ tail)) = some (index, rest)) :
    ∃ after, (∀ c ∈ after, Text.isBlank c = false) ∧ rest = after ++ tail := by
  obtain ⟨-, -, hclose⟩ := bracketed?_cons_eq_some_iff.1 h
  cases name with
  | nil =>
      -- A bracket that ends a name could only be closed behind digits of the kind.
      cases htail with
      | @column gap _ more _ _ hblank _ =>
          have hskip : (gap ++ (kind ++ more)).dropWhile Text.isBlank = kind ++ more :=
            Text.dropWhile_append_of_stop hblank hkind.word.head_append
          rw [List.nil_append, hskip, List.dropWhile_append] at hclose
          cases hletters : kind.dropWhile Text.isDigit with
          | nil =>
              obtain ⟨c, hc, hletter⟩ := hkind.letter
              rw [List.dropWhile_eq_nil_iff] at hletters
              exact absurd (hletters c hc) (Bool.eq_false_iff.1 hletter)
          | cons c letters =>
              rw [hletters] at hclose
              obtain ⟨rfl, -⟩ := List.cons.inj hclose
              have hmem : ']' ∈ kind.dropWhile Text.isDigit := hletters ▸ List.mem_cons_self
              exact absurd ((List.dropWhile_suffix _).subset hmem) hkind.unclosed
  | cons c name =>
      have hskip : (c :: name ++ tail).dropWhile Text.isBlank = c :: name ++ tail :=
        List.dropWhile_cons_of_neg (Bool.eq_false_iff.1 (hname c List.mem_cons_self))
      rw [hskip, List.dropWhile_append] at hclose
      cases hletters : (c :: name).dropWhile Text.isDigit with
      | nil =>
          have htail' : tail.dropWhile Text.isDigit = tail := by
            cases tail with
            | nil => rfl
            | cons d tail =>
                refine List.dropWhile_cons_of_neg (Bool.eq_false_iff.1 ?_)
                exact Text.isDigit_of_isBlank (htail.endsWord d rfl)
          rw [hletters, List.isEmpty_nil, if_pos rfl, htail'] at hclose
          have hblank := htail.endsWord
          rw [hclose] at hblank
          exact absurd (hblank ']' rfl) (by decide)
      | cons d after =>
          rw [hletters] at hclose
          obtain ⟨rfl, rfl⟩ := List.cons.inj hclose
          refine ⟨after, fun c hc => hname c ?_, rfl⟩
          exact (List.dropWhile_suffix _).subset (hletters ▸ List.mem_cons_of_mem _ hc)

theorem atStart?_name (hname : ∀ c ∈ name, Text.isBlank c = false) (hkind : IsKind kind)
    (htail : Printed (kind :: texts) tail) : Row.atStart? ('[' :: (name ++ tail)) = none := by
  cases h : Row.atStart? ('[' :: (name ++ tail)) with
  | none => rfl
  | some row =>
      obtain ⟨index, rest, hbracketed, -, hends, hcolumns⟩ := Row.atStart?_eq_some h
      obtain ⟨after, hafter, rfl⟩ := exists_of_bracketed?_name hname hkind htail hbracketed
      cases after with
      | nil =>
          obtain ⟨blanks, rest, -, hsplit⟩ := htail.columns_succ hkind.word 5
          obtain ⟨-, first, others, hfirst, hdot⟩ := Row.ofColumns?_eq_some hcolumns
          obtain ⟨rfl, -⟩ := List.cons.inj (hsplit.symm.trans hfirst)
          exact absurd hdot (Bool.eq_false_iff.1 hkind.unnamed)
      | cons c after =>
          exact absurd (hends c rfl) (Bool.eq_false_iff.1 (hafter c List.mem_cons_self))

theorem ofLine?_name (hname : ∀ c ∈ name, Text.isBlank c = false) (hkind : IsKind kind)
    (htail : Printed (kind :: texts) tail) (hopen : '[' ∉ tail) :
    Row.ofLine? (name ++ tail) = none := by
  induction name with
  | nil => exact Row.ofLine?_eq_none hopen
  | cons c name ih =>
      rw [List.forall_mem_cons] at hname
      have hstart : Row.atStart? (c :: (name ++ tail)) = none := by
        by_cases hc : c = '['
        · rw [hc]
          exact atStart?_name hname.2 hkind htail
        · exact Row.atStart?_cons_of_ne hc
      rw [List.cons_append, Row.ofLine?, hstart]
      exact ih hname.2

end Name

structure Listable (s : Section) : Prop where
  name : Text.IsWord s.name.toList
  kind : IsKind s.kind.toList
  index : s.index < UInt64.size
  address : s.address < UInt64.size
  offset : s.offset < UInt64.size
  size : s.size < UInt64.size
  entrySize : s.entrySize < UInt64.size

inductive Describes (s : Section) : List Char → Prop where
  | row {opening blanks index address offset size entrySize body : List Char}
      (hopening : '[' ∉ opening) (hblanks : ∀ c ∈ blanks, Text.isBlank c = true)
      (hindex : Numeral.Spelled 10 s.index index) (haddress : Numeral.Spelled 16 s.address address)
      (hoffset : Numeral.Spelled 16 s.offset offset) (hsize : Numeral.Spelled 16 s.size size)
      (hentrySize : Numeral.Spelled 16 s.entrySize entrySize)
      (hbody : Printed [s.name.toList, s.kind.toList, address, offset, size, entrySize] body) :
      Describes s (opening ++ '[' :: (blanks ++ (index ++ ']' :: body)))

section Numbers

variable {n : Nat} {text : List Char}

theorem isHex_of_spelled (h : Numeral.Spelled 16 n text) : isHex text = true := by
  rw [isHex, Bool.and_eq_true, decide_eq_true_eq, List.all_eq_true]
  exact ⟨Numeral.ne_nil_of_natural? h.hex, fun c hc => Numeral.digitValue?_of_natural? h.hex hc⟩

theorem isWord_of_spelled (h : Numeral.Spelled 16 n text) : Text.IsWord text where
  ne_nil := Numeral.ne_nil_of_natural? h.hex
  solid := fun _ hc => Numeral.isBlank_of_digitValue? (Numeral.digitValue?_of_natural? h.hex hc)

theorem open_notMem_of_natural? {radix : Nat} (h : Numeral.natural? radix text = some n) :
    '[' ∉ text :=
  Numeral.notMem_of_natural? h (by simp [Numeral.digitValue?])

theorem open_notMem_of_isBlank (h : ∀ c ∈ text, Text.isBlank c = true) : '[' ∉ text :=
  fun hmem => absurd (h _ hmem) (by decide)

end Numbers

section Rows

variable {s : Section} {blanks index address offset size entrySize body line : List Char}

theorem Row.section?_of_spelled (hs : Listable s) (hindex : Numeral.Spelled 10 s.index index)
    (haddress : Numeral.Spelled 16 s.address address) (hoffset : Numeral.Spelled 16 s.offset offset)
    (hsize : Numeral.Spelled 16 s.size size)
    (hentrySize : Numeral.Spelled 16 s.entrySize entrySize) :
    Row.section? ⟨index, s.name.toList, s.kind.toList, address, offset, size, entrySize⟩ =
      some s := by
  simp only [Row.section?, Numeral.below?_of_natural? hs.index hindex.decimal,
    Numeral.below?_of_natural? hs.address haddress.hex,
    Numeral.below?_of_natural? hs.offset hoffset.hex,
    Numeral.below?_of_natural? hs.size hsize.hex,
    Numeral.below?_of_natural? hs.entrySize hentrySize.hex, String.ofList_toList]
  rfl

theorem ofLine?_inside (hs : Listable s) (hblanks : ∀ c ∈ blanks, Text.isBlank c = true)
    (hindex : Numeral.Spelled 10 s.index index) (haddress : Numeral.Spelled 16 s.address address)
    (hoffset : Numeral.Spelled 16 s.offset offset) (hsize : Numeral.Spelled 16 s.size size)
    (hentrySize : Numeral.Spelled 16 s.entrySize entrySize)
    (hbody : Printed [s.name.toList, s.kind.toList, address, offset, size, entrySize] body) :
    Row.ofLine? (blanks ++ (index ++ ']' :: body)) = none := by
  have hclosed : Row.ofLine? (']' :: body) = Row.ofLine? body :=
    Row.ofLine?_append (t := [']']) (by decide)
  rw [Row.ofLine?_append (open_notMem_of_isBlank hblanks),
    Row.ofLine?_append (open_notMem_of_natural? hindex.decimal), hclosed]
  cases hbody with
  | column _ hblank hrest =>
      rw [Row.ofLine?_append (open_notMem_of_isBlank hblank)]
      refine ofLine?_name hs.name.solid hs.kind hrest (hrest.open_notMem ?_)
      simp only [List.forall_mem_cons]
      exact ⟨hs.kind.unopened, open_notMem_of_natural? haddress.hex,
        open_notMem_of_natural? hoffset.hex, open_notMem_of_natural? hsize.hex,
        open_notMem_of_natural? hentrySize.hex, by simp⟩

theorem section?_of_describes (hs : Listable s) (h : Describes s line) :
    (Row.ofLine? line).bind Row.section? = if isName s.name.toList then some s else none := by
  cases h with
  | @row opening blanks index address offset size entrySize body hopening hblanks hindex haddress
      hoffset hsize hentrySize hbody =>
      have hdigits : ∀ c ∈ index, Text.isDigit c = true := by
        intro c hc
        have hdigit := Numeral.digitValue?_of_natural? hindex.decimal hc
        exact Text.isDigit_of_ascii (Numeral.isDigit_of_digitValue? hdigit)
      have hbracketed :
          bracketed? ('[' :: (blanks ++ (index ++ ']' :: body))) = some (index, body) :=
        bracketed?_append hblanks (Numeral.ne_nil_of_natural? hindex.decimal) hdigits
      have hcolumns : (columns 6 body).map Column.text =
          [s.name.toList, s.kind.toList, address, offset, size, entrySize] := by
        refine hbody.map_text_columns ?_
        simp only [List.forall_mem_cons]
        exact ⟨hs.name, hs.kind.word, isWord_of_spelled haddress, isWord_of_spelled hoffset,
          isWord_of_spelled hsize, isWord_of_spelled hentrySize, by simp⟩
      rw [Row.ofLine?_append hopening, Row.ofLine?,
        Row.atStart?_of_bracketed? hbracketed hbody.ne_nil hbody.endsWord,
        Row.ofColumns?_of_map_text hcolumns (isHex_of_spelled haddress) (isHex_of_spelled hoffset)
          (isHex_of_spelled hsize)]
      by_cases hname : isName s.name.toList
      · simp only [if_pos hname]
        exact Row.section?_of_spelled hs hindex haddress hoffset hsize hentrySize
      · simp only [if_neg hname]
        rw [ofLine?_inside hs hblanks hindex haddress hoffset hsize hentrySize hbody]
        rfl

end Rows

end Testbench.Listing
