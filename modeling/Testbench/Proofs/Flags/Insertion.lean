import Testbench.Proofs.Flags.Declared

namespace Testbench

namespace Flags

inductive Region where
  | code
  | slash
  | line
  | block
  | star
  deriving DecidableEq, Repr

namespace Region

def next : Region → Char → Region
  | .code, c => if c = '/' then .slash else .code
  | .slash, c => if c = '/' then .line else if c = '*' then .block else .code
  | .line, c => if c = '\n' then .code else .line
  | .block, c => if c = '*' then .star else .block
  | .star, c => if c = '/' then .code else if c = '*' then .star else .block

def after : Region → List Char → Region
  | r, [] => r
  | r, c :: s => (r.next c).after s

def isComment : Region → Bool
  | .code | .slash => false
  | .line | .block | .star => true

end Region

inductive IsBlockComment : List Char → Prop where
  | mk {body : List Char} (hbody : ¬['*', '/'] <:+: body) :
      IsBlockComment ('/' :: '*' :: (body ++ ['*', '/']))

inductive IsLineComment : List Char → Prop where
  | mk {body : List Char} (hbody : '\n' ∉ body) : IsLineComment ('/' :: '/' :: body)

variable {c : Char} {s rest body comment before after : List Char}

theorem afterClose?_cons (h : c = '*' → s.head? ≠ some '/') :
    afterClose? (c :: s) = afterClose? s := by
  refine afterClose?.eq_3 c s ?_
  rintro t rfl rfl
  exact h rfl rfl

theorem afterClose?_append (h : afterClose? s = some rest) (t : List Char) :
    afterClose? (s ++ t) = some (rest ++ t) := by
  fun_induction afterClose? s with
  | case1 => cases h
  | case2 s =>
      cases h
      rfl
  | case3 c s hopen ih =>
      have hhead : c = '*' → (s ++ t).head? ≠ some '/' := by
        rintro rfl hslash
        cases s with
        | nil => cases h
        | cons d s =>
            obtain rfl : d = '/' := Option.some.inj hslash
            exact hopen s rfl rfl
      rw [List.cons_append, afterClose?_cons hhead, ih h]

theorem afterClose?_body (hbody : ¬['*', '/'] <:+: body) (t : List Char) :
    afterClose? (body ++ '*' :: '/' :: t) = some t := by
  induction body with
  | nil => rfl
  | cons c body ih =>
      have hinner : ¬['*', '/'] <:+: body :=
        fun hwithin => hbody (hwithin.trans (List.suffix_cons c body).isInfix)
      -- A star that ends the body is followed by a star.
      have hhead : c = '*' → (body ++ '*' :: '/' :: t).head? ≠ some '/' := by
        rintro rfl hslash
        cases body with
        | nil => cases hslash
        | cons d body =>
            obtain rfl : d = '/' := Option.some.inj hslash
            exact hbody ⟨[], body, rfl⟩
      rw [List.cons_append, afterClose?_cons hhead, ih hinner]

theorem exists_afterClose? (s : List Char) :
    (Region.block.after s = .code →
      ∃ rest, afterClose? s = some rest ∧ Region.code.after rest = .code) ∧
    (Region.star.after s = .code →
      ∃ rest, afterClose? ('*' :: s) = some rest ∧ Region.code.after rest = .code) := by
  induction s with
  | nil => exact ⟨nofun, nofun⟩
  | cons c s ih =>
      have hblock : Region.block.after (c :: s) = .code →
          ∃ rest, afterClose? (c :: s) = some rest ∧ Region.code.after rest = .code := by
        intro h
        by_cases hstar : c = '*'
        · subst hstar
          exact ih.2 h
        · rw [Region.after, Region.next, if_neg hstar] at h
          rw [afterClose?_cons fun heq => absurd heq hstar]
          exact ih.1 h
      refine ⟨hblock, fun h => ?_⟩
      by_cases hslash : c = '/'
      · subst hslash
        exact ⟨s, rfl, h⟩
      · -- Behind a star only a slash is read in another way.
        have hnext : Region.star.next c = Region.block.next c := if_neg hslash
        have hhead : '*' = '*' → (c :: s).head? ≠ some '/' :=
          fun _ heq => hslash (Option.some.inj heq)
        rw [Region.after, hnext] at h
        rw [afterClose?_cons hhead]
        exact hblock h

theorem exists_lineBreak (h : Region.line.after s = .code) :
    Region.code.after (s.dropWhile (· ≠ '\n')) = .code ∧
      ∀ t, (s ++ t).dropWhile (· ≠ '\n') = s.dropWhile (· ≠ '\n') ++ t := by
  induction s with
  | nil => cases h
  | cons c s ih =>
      rw [Region.after, Region.next] at h
      by_cases hbreak : c = '\n'
      · subst hbreak
        exact ⟨h, fun t => rfl⟩
      · rw [if_neg hbreak] at h
        simpa [hbreak] using ih h

theorem withoutComments_block (h : afterClose? s = some rest) :
    withoutComments ('/' :: '*' :: s) = withoutComments rest := by
  rw [withoutComments.eq_2]
  split
  · next found hfound =>
      obtain rfl : found = rest := Option.some.inj (hfound.symm.trans h)
      rfl
  · next hnone =>
      rw [hnone] at h
      cases h

theorem withoutComments_plain (h : c = '/' → s.head? ≠ some '*' ∧ s.head? ≠ some '/') :
    withoutComments (c :: s) = c :: withoutComments s := by
  refine withoutComments.eq_4 c s ?_ ?_
  · rintro t rfl rfl
    exact (h rfl).1 rfl
  · rintro t rfl rfl
    exact (h rfl).2 rfl

theorem withoutComments_append_of_code (h : Region.code.after s = .code) (t : List Char) :
    withoutComments (s ++ t) = withoutComments s ++ withoutComments t := by
  fun_induction withoutComments s with
  | case1 => rfl
  | case2 s rest hrest _ ih =>
      obtain ⟨found, hfound, hcode⟩ := (exists_afterClose? s).1 h
      obtain rfl : rest = found := Option.some.inj (hrest.symm.trans hfound)
      rw [List.cons_append, List.cons_append, withoutComments_block (afterClose?_append hrest t),
        ih hcode]
  | case3 s hnone =>
      obtain ⟨found, hfound, -⟩ := (exists_afterClose? s).1 h
      rw [hnone] at hfound
      cases hfound
  | case4 s ih =>
      obtain ⟨hcode, hbreak⟩ := exists_lineBreak h
      rw [List.cons_append, List.cons_append, withoutComments.eq_3, hbreak, ih hcode]
  | case5 c s hblock hline ih =>
      by_cases hslash : c = '/'
      · subst hslash
        cases s with
        | nil => cases h
        | cons d s =>
            have hstar : d ≠ '*' := fun heq => hblock s rfl (heq ▸ rfl)
            have hagain : d ≠ '/' := fun heq => hline s rfl (heq ▸ rfl)
            have hcode : Region.code.after (d :: s) = .code := by
              rw [Region.after, Region.after, Region.next, if_pos rfl, Region.next, if_neg hagain,
                if_neg hstar] at h
              rwa [Region.after, Region.next, if_neg hagain]
            have hhead : '/' = '/' → (d :: (s ++ t)).head? ≠ some '*' ∧
                (d :: (s ++ t)).head? ≠ some '/' :=
              fun _ => ⟨fun heq => hstar (Option.some.inj heq),
                fun heq => hagain (Option.some.inj heq)⟩
            rw [List.cons_append, List.cons_append, withoutComments_plain hhead, ← List.cons_append,
              ih hcode, List.cons_append]
      · rw [Region.after, Region.next, if_neg hslash] at h
        rw [List.cons_append, withoutComments_plain fun heq => absurd heq hslash, ih h,
          List.cons_append]

theorem withoutComments_of_isBlockComment (h : IsBlockComment comment) (t : List Char) :
    withoutComments (comment ++ t) = withoutComments t := by
  cases h with
  | @mk body hbody =>
      have hclose := afterClose?_body hbody t
      rw [List.cons_append, List.cons_append, List.append_assoc]
      exact withoutComments_block hclose

theorem withoutComments_of_isLineComment (h : IsLineComment comment)
    (hafter : ∀ c ∈ after.head?, c = '\n') :
    withoutComments (comment ++ after) = withoutComments after := by
  cases h with
  | @mk body hbody =>
      have hpass : ∀ c ∈ body, decide (c ≠ '\n') = true :=
        fun c hc => decide_eq_true fun heq => hbody (heq ▸ hc)
      have hstop : ∀ c ∈ after.head?, decide (c ≠ '\n') = false :=
        fun c hc => decide_eq_false (not_not.2 (hafter c hc))
      rw [List.cons_append, List.cons_append, withoutComments.eq_3,
        Text.dropWhile_append_of_stop hpass hstop]

theorem Region.after_append (r : Region) (s t : List Char) :
    r.after (s ++ t) = (r.after s).after t := by
  induction s generalizing r with
  | nil => rfl
  | cons c s ih => exact ih (r.next c)

theorem Region.next_eq_code {r : Region} (hslash : c ≠ '/') (h : (r.next c).isComment = false) :
    r.next c = .code := by
  cases r with
  | code => exact if_neg hslash
  | slash =>
      rw [next, if_neg hslash] at h ⊢
      split at h
      · cases h
      · next hstar => exact if_neg hstar
  | line =>
      rw [next] at h
      split at h
      · next hbreak => exact if_pos hbreak
      · cases h
  | block =>
      rw [next] at h
      split at h <;> cases h
  | star =>
      rw [next, if_neg hslash] at h
      split at h <;> cases h

theorem Region.after_eq_code (h : (Region.code.after s).isComment = false)
    (hblank : ∀ c ∈ s.getLast?, Text.isBlank c = true) : Region.code.after s = .code := by
  rcases List.eq_nil_or_concat s with rfl | ⟨s, c, rfl⟩
  · rfl
  · have hslash : c ≠ '/' := by
      rintro rfl
      exact absurd (hblank '/' (by simp)) (by decide)
    rw [List.concat_eq_append, Region.after_append] at h ⊢
    exact Region.next_eq_code hslash h

end Flags

namespace FlagTable

open Flags

/-- A comment that is put into the code at its start or behind white space changes nothing of what
is read, whatever is written in it. One of a line has to stand at the end of a line. -/
theorem ofSource_with_comment {before comment after : String} (name : String)
    (hcode : (Region.code.after before.toList).isComment = false)
    (hblank : ∀ c ∈ before.toList.getLast?, Text.isBlank c = true)
    (hcomment : IsBlockComment comment.toList ∨
      IsLineComment comment.toList ∧ ∀ c ∈ after.toList.head?, c = '\n') :
    ofSource (before ++ comment ++ after) name = ofSource (before ++ after) name := by
  have hbefore := withoutComments_append_of_code (Region.after_eq_code hcode hblank)
  have hremoved : withoutComments (comment.toList ++ after.toList) =
      withoutComments after.toList := by
    rcases hcomment with hblock | ⟨hline, hafter⟩
    · exact withoutComments_of_isBlockComment hblock _
    · exact withoutComments_of_isLineComment hline hafter
  have htext : withoutComments (before ++ comment ++ after).toList =
      withoutComments (before ++ after).toList := by
    rw [String.toList_append, String.toList_append, String.toList_append, List.append_assoc,
      hbefore, hbefore, hremoved]
  rw [ofSource, ofSource, htext]

section Nested

def nestedBefore : String := "// enum \x7b\n/* a */ "

def nestedAfter : String := "\ntypedef enum \x7b A \x7d e;\n"

def nestedBlock : String := "/* typedef enum \x7b B \x7d e; // /* **/"

def nestedLine : String := "// typedef enum \x7b C \x7d e; /* //"

theorem ofSource_with_comment_nested :
    ofSource (nestedBefore ++ nestedBlock ++ nestedAfter) "e" = .ok ⟨"e", [("A", 0)]⟩ ∧
      ofSource (nestedBefore ++ nestedLine ++ nestedAfter) "e" = .ok ⟨"e", [("A", 0)]⟩ := by
  have hplain : ofSource (nestedBefore ++ nestedAfter) "e" = .ok ⟨"e", [("A", 0)]⟩ := by
    decide +kernel
  have hcode : (Region.code.after nestedBefore.toList).isComment = false := by decide +kernel
  have hlast : nestedBefore.toList.getLast? = some ' ' := by decide +kernel
  have hblank : ∀ c ∈ nestedBefore.toList.getLast?, Text.isBlank c = true := by
    rw [hlast]
    rintro _ ⟨⟩
    decide
  have hblock : IsBlockComment nestedBlock.toList :=
    @IsBlockComment.mk " typedef enum \x7b B \x7d e; // /* *".toList (by decide +kernel)
  have hline : IsLineComment nestedLine.toList :=
    @IsLineComment.mk " typedef enum \x7b C \x7d e; /* //".toList (by decide +kernel)
  have hhead : nestedAfter.toList.head? = some '\n' := by decide +kernel
  have hafter : ∀ c ∈ nestedAfter.toList.head?, c = '\n' := by
    rw [hhead]
    rintro _ ⟨⟩
    rfl
  rw [ofSource_with_comment "e" hcode hblank (.inl hblock),
    ofSource_with_comment "e" hcode hblank (.inr ⟨hline, hafter⟩)]
  exact ⟨hplain, hplain⟩

end Nested

end FlagTable

end Testbench
