import Testbench.Proofs.Flags.Members

namespace Testbench

namespace Flags

section Keywords

variable {p s rest : List Char}

theorem after?_eq_some_iff : after? p s = some rest ↔ s = p ++ rest := by
  fun_induction after? p s with
  | case1 s => rw [Option.some.injEq, List.nil_append]
  | case2 c p => simp
  | case3 c p s ih => rw [ih, List.cons_append, List.cons.injEq, and_iff_right rfl]
  | case4 c p d s hne =>
      rw [List.cons_append, List.cons.injEq]
      simp [Ne.symm hne]

/-- The keyword does not begin again inside itself, so it does not begin before it is reached. -/
theorem after?_typedef_eq_none (hs : s ≠ []) (h : ¬typedefKeyword <:+: s) (rest : List Char) :
    after? typedefKeyword (s ++ (typedefKeyword ++ rest)) = none := by
  refine Option.eq_none_iff_forall_ne_some.2 fun found hfound => ?_
  rw [after?_eq_some_iff, List.append_eq_append_iff] at hfound
  rcases hfound with ⟨t, htypedef, hrest⟩ | ⟨t, rfl, -⟩
  · obtain ⟨c, s, rfl⟩ := List.exists_cons_of_ne_nil hs
    have htail : "ypedef".toList = s ++ t := (List.cons.inj htypedef).2
    cases t with
    | nil =>
        rw [List.append_nil] at htypedef
        exact h (htypedef ▸ List.infix_rfl)
    | cons d t =>
        have hd : 't' = d := (List.cons.inj hrest).1
        have hmem : d ∈ "ypedef".toList := htail ▸ List.mem_append_right _ List.mem_cons_self
        rw [← hd] at hmem
        exact absurd hmem (by decide)
  · exact h (List.prefix_append ..).isInfix

theorem afterKeywords?_append {gap : List Char} (hgap : gap ≠ []) (hblank : Text.Blanks gap)
    (hrest : startsWith Text.isWord rest = false) :
    afterKeywords? (typedefKeyword ++ (gap ++ (enumKeyword ++ rest))) = some rest := by
  have hstart : startsWith Text.isBlank (gap ++ (enumKeyword ++ rest)) = true := by
    obtain ⟨c, gap, rfl⟩ := List.exists_cons_of_ne_nil hgap
    exact hblank c List.mem_cons_self
  have hskip : (gap ++ (enumKeyword ++ rest)).dropWhile Text.isBlank = enumKeyword ++ rest := by
    refine Text.dropWhile_append_of_stop hblank ?_
    rintro _ ⟨⟩
    decide
  rw [afterKeywords?, after?_eq_some_iff.2 rfl]
  simp only [hstart, if_true, hskip, after?_eq_some_iff.2 rfl, hrest, Bool.false_eq_true, if_false]

theorem declarations_of_none {c : Char} (h : afterKeywords? (c :: s) = none) :
    declarations (c :: s) = declarations s := by
  rw [declarations]
  split
  · next rest hrest => cases h.symm.trans hrest
  · rfl

theorem declarations_of_some (h : afterKeywords? s = some rest) :
    declarations s = (Declaration.afterKeywords rest).1.toList ++
      declarations (Declaration.afterKeywords rest).2 := by
  cases s with
  | nil => cases h
  | cons c s =>
      rw [declarations]
      split
      · next found hfound =>
          obtain rfl := Option.some.inj (h.symm.trans hfound)
          rfl
      · next hnone => cases h.symm.trans hnone

theorem declarations_append (h : ¬typedefKeyword <:+: s) (rest : List Char) :
    declarations (s ++ (typedefKeyword ++ rest)) = declarations (typedefKeyword ++ rest) := by
  induction s with
  | nil => rfl
  | cons c s ih =>
      have hnone : afterKeywords? (c :: (s ++ (typedefKeyword ++ rest))) = none := by
        have hafter := after?_typedef_eq_none (List.cons_ne_nil c s) h rest
        rw [List.cons_append] at hafter
        rw [afterKeywords?, hafter]
      rw [List.cons_append, declarations_of_none hnone,
        ih fun hwithin => h (hwithin.trans (List.suffix_cons c s).isInfix)]

end Keywords

/-- What may stand between the keywords and the brace: nothing, or a type that no word character
begins. -/
structure IsBase (text : List Char) : Prop where
  start : startsWith Text.isWord text = false
  brace : '{' ∉ text
  semicolon : ';' ∉ text
  slash : '/' ∉ text

structure IsName (text : List Char) : Prop where
  ne_nil : text ≠ []
  word : ∀ c ∈ text, Text.isWord c = true

instance (text : List Char) : Decidable (IsName text) :=
  decidable_of_iff (text ≠ [] ∧ text.all Text.isWord = true) <| by
    rw [List.all_eq_true]
    exact ⟨fun ⟨hne, hword⟩ => ⟨hne, hword⟩, fun ⟨hne, hword⟩ => ⟨hne, hword⟩⟩

inductive Declares (ms : List Member) (name : List Char) : List Char → Prop where
  | mk {gap base body before after : List Char} (hgap : gap ≠ []) (hblank : Text.Blanks gap)
      (hbase : IsBase base) (hbody : Body ms body) (hbefore : Text.Blanks before)
      (hname : IsName name) (hafter : Text.Blanks after) :
      Declares ms name (typedefKeyword ++ (gap ++ (enumKeyword ++ (base ++ '{' ::
        (body ++ '}' :: (before ++ (name ++ (after ++ [';']))))))))

/-- No declaration and no comment begins in the text. -/
structure IsBetween (text : List Char) : Prop where
  keyword : ¬typedefKeyword <:+: text
  slash : '/' ∉ text

/-- The text holds declarations of other names only, with texts before, between and after them in
which none begins. -/
inductive Precedes (name : List Char) : List Char → Prop where
  | last {between : List Char} (hbetween : IsBetween between) : Precedes name between
  | other {between declared rest other : List Char} {ms : List Member}
      (hbetween : IsBetween between) (hdeclared : Declares ms other declared) (hne : other ≠ name)
      (hrest : Precedes name rest) : Precedes name (between ++ (declared ++ rest))

variable {ms : List Member} {name text s rest base body before after : List Char}

theorem upTo?_append {stop : Char} (htext : stop ∉ text) (rest : List Char) :
    upTo? stop (text ++ stop :: rest) = some (text, rest) := by
  have hpass : ∀ c ∈ text, decide (c ≠ stop) = true :=
    fun c hc => decide_eq_true fun heq => htext (heq ▸ hc)
  have hstop : ∀ c ∈ (stop :: rest).head?, decide (c ≠ stop) = false := by
    rintro _ ⟨⟩
    simp
  rw [upTo?, Text.dropWhile_append_of_stop hpass hstop, Text.takeWhile_append_of_stop hpass hstop]

theorem isWord_of_isBlank {c : Char} (h : Text.isBlank c = true) : Text.isWord c = false := by
  rw [Bool.eq_false_iff]
  intro hword
  rw [Text.isBlank_of_isWord hword] at h
  cases h

theorem IsName.startsWith_append (h : IsName name) (rest : List Char) :
    startsWith Text.isWord (name ++ rest) = true := by
  obtain ⟨c, letters, rfl⟩ := List.exists_cons_of_ne_nil h.ne_nil
  exact h.word c List.mem_cons_self

theorem isBlank_of_startsWith (h : startsWith Text.isWord s = true) :
    ∀ c ∈ s.head?, Text.isBlank c = false := by
  cases s with
  | nil => cases h
  | cons c s =>
      rintro _ ⟨⟩
      exact Text.isBlank_of_isWord h

theorem named?_append (hbefore : Text.Blanks before) (hname : IsName name)
    (hafter : Text.Blanks after) (rest : List Char) :
    named? (before ++ (name ++ (after ++ ';' :: rest))) = some (name, rest) := by
  have hstart := hname.startsWith_append (after ++ ';' :: rest)
  have hends : ∀ d ∈ (after ++ ';' :: rest).head?, Text.isWord d = false := by
    cases after with
    | nil =>
        rintro _ ⟨⟩
        decide +kernel
    | cons d gap =>
        rintro _ ⟨⟩
        exact isWord_of_isBlank (hafter d List.mem_cons_self)
  have hsemicolon : ∀ d ∈ (';' :: rest).head?, Text.isBlank d = false := by
    rintro _ ⟨⟩
    decide
  rw [named?, Text.dropWhile_append_of_stop hbefore (isBlank_of_startsWith hstart)]
  simp only [Text.dropWhile_append_of_stop hname.word hends,
    Text.takeWhile_append_of_stop hname.word hends,
    Text.dropWhile_append_of_stop hafter hsemicolon, hstart, if_true]

theorem afterKeywords_append (hbase : IsBase base) (hbody : '}' ∉ body)
    (hbefore : Text.Blanks before) (hname : IsName name) (hafter : Text.Blanks after)
    (rest : List Char) :
    Declaration.afterKeywords (base ++ '{' ::
      (body ++ '}' :: (before ++ (name ++ (after ++ ';' :: rest))))) =
        (some ⟨body, name⟩, rest) := by
  have hpass : ∀ c ∈ base, decide (c ≠ '{' ∧ c ≠ ';') = true := fun c hc =>
    decide_eq_true ⟨fun heq => hbase.brace (heq ▸ hc), fun heq => hbase.semicolon (heq ▸ hc)⟩
  have hstop (t : List Char) : ∀ c ∈ ('{' :: t).head?, decide (c ≠ '{' ∧ c ≠ ';') = false := by
    rintro _ ⟨⟩
    decide
  rw [Declaration.afterKeywords, Text.dropWhile_append_of_stop hpass (hstop _)]
  simp only [if_true, upTo?_append hbody, named?_append hbefore hname hafter]

theorem declarations_of_declares (h : Declares ms name text) :
    ∃ body, Body ms body ∧
      ∀ rest, declarations (text ++ rest) = ⟨body, name⟩ :: declarations rest := by
  cases h with
  | @mk gap base body before after hgap hblank hbase hbody hbefore hname hafter =>
      refine ⟨body, hbody, fun rest => ?_⟩
      have hstart (t : List Char) : startsWith Text.isWord (base ++ '{' :: t) = false := by
        cases base with
        | nil =>
            rw [List.nil_append, startsWith]
            decide +kernel
        | cons c base => exact hbase.start
      have hdeclared := afterKeywords_append hbase hbody.notMem.1 hbefore hname hafter rest
      have hkeywords := declarations_of_some (afterKeywords?_append hgap hblank (hstart
        (body ++ '}' :: (before ++ (name ++ (after ++ ';' :: rest))))))
      rw [hdeclared, Option.toList_some] at hkeywords
      simpa only [List.append_assoc, List.cons_append, List.nil_append] using hkeywords

theorem Declares.exists_eq (h : Declares ms name text) : ∃ rest, text = typedefKeyword ++ rest := by
  cases h with
  | mk => exact ⟨_, rfl⟩

theorem Declares.slash_notMem (h : Declares ms name text) : '/' ∉ text := by
  cases h with
  | @mk gap base body before after _ hblank hbase hbody hbefore hname hafter =>
      have hword : '/' ∉ name := by
        intro hmem
        exact absurd (hname.word _ hmem) (by decide +kernel)
      have htypedef : '/' ∉ typedefKeyword := by decide
      have henum : '/' ∉ enumKeyword := by decide
      simp [hword, htypedef, henum, hblank.notMem (c := '/') (by decide), hbase.slash,
        hbody.notMem.2, hbefore.notMem (c := '/') (by decide), hafter.notMem (c := '/') (by decide)]

theorem Precedes.slash_notMem (h : Precedes name before) : '/' ∉ before := by
  induction h with
  | last hbetween => exact hbetween.slash
  | other hbetween hdeclared _ _ ih => simp [hbetween.slash, hdeclared.slash_notMem, ih]

theorem withoutComments_append (h : '/' ∉ s) (rest : List Char) :
    withoutComments (s ++ rest) = s ++ withoutComments rest := by
  induction s with
  | nil => rfl
  | cons c s ih =>
      obtain ⟨hc, hs⟩ := not_or.1 (mt List.mem_cons.2 h)
      rw [List.cons_append, withoutComments.eq_4 _ _ (fun _ heq => absurd heq.symm hc)
        (fun _ heq => absurd heq.symm hc), ih hs, List.cons_append]

theorem find?_declarations (hbefore : Precedes name before) (htext : Declares ms name text) :
    ∃ body, Body ms body ∧ ∀ rest,
      (declarations (before ++ (text ++ rest))).find? (·.name = name) = some ⟨body, name⟩ := by
  obtain ⟨body, hbody, hfound⟩ := declarations_of_declares htext
  refine ⟨body, hbody, fun rest => ?_⟩
  induction hbefore with
  | last hbetween =>
      obtain ⟨inner, rfl⟩ := htext.exists_eq
      rw [List.append_assoc, declarations_append hbetween.keyword, ← List.append_assoc, hfound,
        List.find?_cons_of_pos (by simp)]
  | other hbetween hdeclared hne _ ih =>
      obtain ⟨inner, rfl⟩ := hdeclared.exists_eq
      obtain ⟨otherBody, -, hother⟩ := declarations_of_declares hdeclared
      rw [List.append_assoc, List.append_assoc, List.append_assoc,
        declarations_append hbetween.keyword, ← List.append_assoc, hother,
        List.find?_cons_of_neg (by simpa using hne), ih]

theorem Declares.isIdentifier (h : Declares ms name text) :
    ∀ m ∈ ms, isIdentifier m.name = true := by
  cases h with
  | mk _ _ _ hbody _ _ _ => exact hbody.isIdentifier

end Flags

namespace FlagTable

open Flags

/-- The first enumeration of a name is read as it is declared, whatever other enumerations stand
before it and whatever follows it. A literal that cannot be read is an error, and of several the
first one. -/
theorem ofSource_of_declares {source name : String} {ms : List Member}
    {before text after : List Char} (hbefore : Precedes name.toList before)
    (htext : Declares ms name.toList text) (hsource : source.toList = before ++ (text ++ after)) :
    ((∀ m ∈ ms, m.Readable) →
      ∃ entries, ofSource source name = .ok ⟨name, entries⟩ ∧ Numbered 0 ms entries) ∧
    ∀ earlier m later literal, ms = earlier ++ m :: later → (∀ m ∈ earlier, m.Readable) →
      m.literal = some literal → literal? literal = none →
      ofSource source name = .error (.invalidEnumValue (.ofList m.name) (.ofList literal)) := by
  obtain ⟨body, hbody, hfind⟩ := find?_declarations hbefore htext
  have hfound : ofSource source name =
      (entriesFrom 0 ms).map fun entries => ⟨name, entries⟩ := by
    rw [ofSource, hsource, withoutComments_append hbefore.slash_notMem,
      withoutComments_append htext.slash_notMem, hfind]
    simp only [members_of_body hbody]
  have hnames := htext.isIdentifier
  constructor
  · intro hreadable
    obtain ⟨entries, hentries, hnumbered⟩ := exists_entriesFrom hnames hreadable 0
    exact ⟨entries, by rw [hfound, hentries]; rfl, hnumbered⟩
  · rintro earlier m later literal rfl hreadable hliteral hnone
    have hearlier : ∀ m ∈ earlier, isIdentifier m.name = true :=
      fun m hm => hnames m (List.mem_append_left _ hm)
    rw [hfound, entriesFrom_of_unreadable hearlier hreadable hliteral hnone]
    rfl

section Wrapped

def wrappedMembers : List Member :=
  [⟨"LAST".toList, some "32'hFFFF_FFFF".toList⟩, ⟨"WRAPPED".toList, none⟩,
    ⟨"BUSY".toList, some "'h8".toList⟩, ⟨"DONE".toList, none⟩]

theorem spelled_of_texts {gap name space literal : String}
    (hname : isIdentifier name.toList = true) (hgap : Text.Blanks gap.toList)
    (hspace : Text.Blanks space.toList) (htrimmed : Text.trim literal.toList = literal.toList)
    (hcomma : ',' ∉ literal.toList) (hbrace : '}' ∉ literal.toList)
    (hslash : '/' ∉ literal.toList) :
    Member.Spelled ⟨name.toList, some literal.toList⟩
      (gap.toList ++ (name.toList ++ (" ".toList ++ '=' ::
        (" ".toList ++ (literal.toList ++ space.toList))))) := by
  have hone : Text.Blanks " ".toList := by decide +kernel
  exact .assigned hname hgap hone ⟨htrimmed, hcomma, hbrace, hslash⟩ hone hspace

def wrappedText : String :=
  "typedef enum logic [31:0] \x7b\n  LAST = 32'hFFFF_FFFF,\n  WRAPPED,\n" ++
    "  BUSY = 'h8 , DONE,\n\x7d flags_e ;"

def wrappedBefore : String :=
  "enum mode;\ntypedef enum \x7b OLD = 1 \x7d old_e;\n\n"

theorem declares_wrapped : Declares wrappedMembers "flags_e".toList
    wrappedText.toList := by
  have hlast := @spelled_of_texts "\n  " "LAST" "" "32'hFFFF_FFFF" (by decide +kernel)
    (by decide +kernel) (by decide +kernel) (by decide +kernel) (by decide +kernel)
    (by decide +kernel) (by decide +kernel)
  have hwrapped := @Member.Spelled.bare "\n  ".toList "WRAPPED".toList [] (by decide +kernel)
    (by decide +kernel) (by decide +kernel)
  have hbusy := @spelled_of_texts "\n  " "BUSY" " " "'h8" (by decide +kernel)
    (by decide +kernel) (by decide +kernel) (by decide +kernel) (by decide +kernel)
    (by decide +kernel) (by decide +kernel)
  have hdone := @Member.Spelled.bare " ".toList "DONE".toList [] (by decide +kernel)
    (by decide +kernel) (by decide +kernel)
  have hend : Text.Blanks "\n".toList := by decide +kernel
  have hbody := Body.next hlast (.next hwrapped (.next hbusy (.next hdone (.finished hend))))
  have hdeclares := @Declares.mk wrappedMembers "flags_e".toList " ".toList
    " logic [31:0] ".toList _ " ".toList " ".toList (by decide +kernel) (by decide +kernel)
    ⟨by decide +kernel, by decide +kernel, by decide +kernel, by decide +kernel⟩ hbody
    (by decide +kernel) (by decide +kernel) (by decide +kernel)
  refine Eq.mp (congrArg (Declares _ _) ?_) hdeclares
  decide +kernel

theorem precedes_wrapped : Precedes "flags_e".toList wrappedBefore.toList := by
  have hold := @spelled_of_texts " " "OLD" " " "1" (by decide +kernel)
    (by decide +kernel) (by decide +kernel) (by decide +kernel) (by decide +kernel)
    (by decide +kernel) (by decide +kernel)
  have hdeclares := @Declares.mk _ "old_e".toList " ".toList " ".toList _ " ".toList []
    (by decide +kernel) (by decide +kernel)
    ⟨by decide +kernel, by decide +kernel, by decide +kernel, by decide +kernel⟩ (.last hold)
    (by decide +kernel) (by decide +kernel) (by decide +kernel)
  have hfirst : IsBetween "enum mode;\n".toList := ⟨by decide +kernel, by decide +kernel⟩
  have hlast : IsBetween "\n\n".toList := ⟨by decide +kernel, by decide +kernel⟩
  have hprecedes := Precedes.other hfirst hdeclares
    (show "old_e".toList ≠ "flags_e".toList by decide +kernel) (.last hlast)
  refine Eq.mp (congrArg (Precedes _) ?_) hprecedes
  decide +kernel

theorem ofSource_of_declares_wrapped :
    ofSource (wrappedBefore ++ (wrappedText ++ " // typedef enum \x7b X \x7d flags_e;\n"))
        "flags_e" =
      .ok ⟨"flags_e", [("LAST", 0xFFFFFFFF), ("WRAPPED", 0), ("BUSY", 8), ("DONE", 9)]⟩ := by
  have hreadable : ∀ m ∈ wrappedMembers, m.Readable := by
    simp only [wrappedMembers, List.forall_mem_cons]
    refine ⟨?_, ?_, ?_, ?_, by simp⟩
    · rintro _ ⟨⟩
      exact ⟨0xFFFFFFFF, by decide +kernel⟩
    · rintro _ ⟨⟩
    · rintro _ ⟨⟩
      exact ⟨8, by decide +kernel⟩
    · rintro _ ⟨⟩
  have hexpected : Numbered 0 wrappedMembers
      [(.ofList "LAST".toList, 0xFFFFFFFF), (.ofList "WRAPPED".toList, 0),
        (.ofList "BUSY".toList, 8), (.ofList "DONE".toList, 9)] := by
    refine .cons ?_ nofun (.cons nofun ?_ (.cons ?_ nofun (.cons nofun ?_ (.nil _))))
    · rintro _ ⟨⟩
      decide +kernel
    · decide
    · rintro _ ⟨⟩
      decide +kernel
    · decide
  have hsource := String.toList_append (s := wrappedBefore)
    (t := wrappedText ++ " // typedef enum \x7b X \x7d flags_e;\n")
  rw [String.toList_append (s := wrappedText)] at hsource
  obtain ⟨entries, hok, hnumbered⟩ :=
    (ofSource_of_declares precedes_wrapped declares_wrapped hsource).1 hreadable
  rw [hok, hnumbered.unique hexpected]
  simp only [String.ofList_toList]

end Wrapped

end FlagTable

end Testbench
