namespace Testbench.Flags

def afterClose? : List Char → Option (List Char)
  | [] => none
  | '*' :: '/' :: s => some s
  | _ :: s => afterClose? s

theorem length_of_afterClose? {s rest : List Char} (h : afterClose? s = some rest) :
    rest.length < s.length := by
  fun_induction afterClose? s with
  | case1 => simp at h
  | case2 s =>
      simp only [Option.some.injEq] at h
      subst h
      simp only [List.length_cons]
      omega
  | case3 c s _ ih =>
      have := ih h
      simp only [List.length_cons]
      omega

def withoutLineComments : List Char → List Char
  | [] => []
  | '/' :: '/' :: s => withoutLineComments (s.dropWhile (· ≠ '\n'))
  | c :: s => c :: withoutLineComments s
termination_by s => s.length
decreasing_by
  · have := (List.dropWhile_sublist (fun c => decide (c ≠ '\n')) (l := s)).length_le
    simp only [List.length_cons]
    omega
  · exact Nat.lt_succ_self _

/-- The text without its comments. A block comment that is never closed is no comment, and none
begins after it. -/
def withoutComments : List Char → List Char
  | [] => []
  | '/' :: '*' :: s =>
      match h : afterClose? s with
      | some rest =>
          have := length_of_afterClose? h
          withoutComments rest
      | none => '/' :: withoutLineComments ('*' :: s)
  | '/' :: '/' :: s => withoutComments (s.dropWhile (· ≠ '\n'))
  | c :: s => c :: withoutComments s
termination_by s => s.length
decreasing_by
  · simp only [List.length_cons]
    omega
  · have := (List.dropWhile_sublist (fun c => decide (c ≠ '\n')) (l := s)).length_le
    simp only [List.length_cons]
    omega
  · exact Nat.lt_succ_self _

end Testbench.Flags
