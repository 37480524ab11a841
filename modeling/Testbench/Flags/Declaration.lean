import Testbench.Text.Blank
import Testbench.Text.Class

namespace Testbench.Flags

structure Declaration where
  body : List Char
  name : List Char
  deriving DecidableEq, Repr

def typedefKeyword : List Char := "typedef".toList

def enumKeyword : List Char := "enum".toList

def startsWith (p : Char → Bool) : List Char → Bool
  | [] => false
  | c :: _ => p c

def after? : List Char → List Char → Option (List Char)
  | [], s => some s
  | _ :: _, [] => none
  | c :: p, d :: s => if c = d then after? p s else none

def afterKeywords? (s : List Char) : Option (List Char) :=
  match after? typedefKeyword s with
  | some rest =>
      if startsWith Text.isBlank rest then
        match after? enumKeyword (rest.dropWhile Text.isBlank) with
        | some rest => if startsWith Text.isWord rest then none else some rest
        | none => none
      else none
  | none => none

def upTo? (stop : Char) (s : List Char) : Option (List Char × List Char) :=
  match s.dropWhile (· ≠ stop) with
  | _ :: rest => some (s.takeWhile (· ≠ stop), rest)
  | [] => none

def named? (s : List Char) : Option (List Char × List Char) :=
  let s := s.dropWhile Text.isBlank
  match (s.dropWhile Text.isWord).dropWhile Text.isBlank with
  | ';' :: rest => if startsWith Text.isWord s then some (s.takeWhile Text.isWord, rest) else none
  | _ => none

/-- What follows the last brace or semicolon before a closing brace, or the first text if there is
none. -/
def lastOpening (found : List Char) : List Char → List Char
  | [] => found
  | c :: s =>
      if c = '}' then found
      else if c = '{' ∨ c = ';' then lastOpening s s
      else lastOpening found s

/-- The declaration that two keywords begin, and what follows it. Without one, what follows the
brace or semicolon before which no declaration begins any more. -/
def Declaration.afterKeywords (s : List Char) : Option Declaration × List Char :=
  match s.dropWhile fun c => c ≠ '{' ∧ c ≠ ';' with
  | [] => (none, [])
  | c :: inner =>
      if c = '{' then
        match upTo? '}' inner with
        | none => (none, [])
        | some (body, afterBody) =>
            match named? afterBody with
            | none => (none, lastOpening inner inner)
            | some (name, rest) => (some ⟨body, name⟩, rest)
      else (none, inner)

theorem length_of_after? {p s rest : List Char} (h : after? p s = some rest) :
    rest.length + p.length = s.length := by
  fun_induction after? p s with
  | case1 s =>
      simp only [Option.some.injEq] at h
      simp [h]
  | case2 => simp at h
  | case3 c p s ih =>
      have := ih h
      simp only [List.length_cons]
      omega
  | case4 => simp at h

theorem length_of_afterKeywords? {s rest : List Char} (h : afterKeywords? s = some rest) :
    rest.length < s.length := by
  simp only [afterKeywords?] at h
  split at h
  · next rest1 h1 =>
      split at h
      · split at h
        · next rest2 h2 =>
            split at h
            · simp at h
            · simp only [Option.some.injEq] at h
              subst h
              have e1 := length_of_after? h1
              have e2 := length_of_after? h2
              have e3 : (rest1.dropWhile Text.isBlank).length ≤ rest1.length :=
                (List.dropWhile_sublist _).length_le
              have e4 : typedefKeyword.length = 7 := rfl
              omega
        · simp at h
      · simp at h
  · simp at h

theorem length_of_upTo? {stop : Char} {s text rest : List Char}
    (h : upTo? stop s = some (text, rest)) : rest.length ≤ s.length := by
  simp only [upTo?] at h
  split at h
  · next c rest' h1 =>
      simp only [Option.some.injEq, Prod.mk.injEq] at h
      have e1 : (s.dropWhile (· ≠ stop)).length ≤ s.length := (List.dropWhile_sublist _).length_le
      rw [h1] at e1
      simp only [List.length_cons] at e1
      rw [← h.2]
      omega
  · simp at h

theorem length_of_named? {s name rest : List Char} (h : named? s = some (name, rest)) :
    rest.length ≤ s.length := by
  simp only [named?] at h
  split at h
  · next rest' h1 =>
      split at h
      · simp only [Option.some.injEq, Prod.mk.injEq] at h
        have e1 := ((List.dropWhile_sublist Text.isBlank).trans
          ((List.dropWhile_sublist Text.isWord).trans
            (List.dropWhile_sublist (l := s) Text.isBlank))).length_le
        rw [h1] at e1
        simp only [List.length_cons] at e1
        rw [← h.2]
        omega
      · simp at h
  · simp at h

theorem length_lastOpening (found s : List Char) :
    (lastOpening found s).length ≤ max found.length s.length := by
  fun_induction lastOpening found s with
  | case1 => omega
  | case2 => omega
  | case3 found c s _ _ ih =>
      simp only [List.length_cons]
      omega
  | case4 found c s _ _ ih =>
      simp only [List.length_cons]
      omega

theorem Declaration.length_afterKeywords (s : List Char) :
    (Declaration.afterKeywords s).2.length ≤ s.length := by
  simp only [Declaration.afterKeywords]
  split
  · simp
  · next c inner h =>
      have e1 : (s.dropWhile fun c => c ≠ '{' ∧ c ≠ ';').length ≤ s.length :=
        (List.dropWhile_sublist _).length_le
      rw [h] at e1
      simp only [List.length_cons] at e1
      split
      · split
        · simp
        · next h2 =>
            have e2 := length_of_upTo? h2
            split
            · have e3 := length_lastOpening inner inner
              simp only
              omega
            · next h3 =>
                have e3 := length_of_named? h3
                simp only
                omega
      · simp only
        omega

def declarations : List Char → List Declaration
  | [] => []
  | c :: s =>
      match h : afterKeywords? (c :: s) with
      | some rest =>
          let found := Declaration.afterKeywords rest
          have : found.2.length < (c :: s).length :=
            Nat.lt_of_le_of_lt (Declaration.length_afterKeywords rest) (length_of_afterKeywords? h)
          found.1.toList ++ declarations found.2
      | none => declarations s
termination_by s => s.length
decreasing_by
  · exact this
  · exact Nat.lt_succ_self _

end Testbench.Flags
