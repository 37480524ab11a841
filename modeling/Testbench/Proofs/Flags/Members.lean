import Mathlib.Data.List.TakeWhile
import Testbench.Flags.Source
import Testbench.Proofs.Text.Items

namespace Testbench.Flags

structure IsLiteral (text : List Char) : Prop where
  trimmed : Text.trim text = text
  comma : ',' ∉ text
  brace : '}' ∉ text
  slash : '/' ∉ text

inductive Member.Spelled : Member → List Char → Prop where
  | bare {before name after : List Char} (hname : isIdentifier name = true)
      (hbefore : Text.Blanks before) (hafter : Text.Blanks after) :
      Spelled ⟨name, none⟩ (before ++ (name ++ after))
  | assigned {before name after left literal right : List Char} (hname : isIdentifier name = true)
      (hbefore : Text.Blanks before) (hafter : Text.Blanks after) (hliteral : IsLiteral literal)
      (hleft : Text.Blanks left) (hright : Text.Blanks right) :
      Spelled ⟨name, some literal⟩
        (before ++ (name ++ (after ++ '=' :: (left ++ (literal ++ right)))))

inductive Body : List Member → List Char → Prop where
  | finished {gap : List Char} (hgap : Text.Blanks gap) : Body [] gap
  | last {m : Member} {text : List Char} (hm : m.Spelled text) : Body [m] text
  | skipped {gap rest : List Char} {ms : List Member} (hgap : Text.Blanks gap)
      (hrest : Body ms rest) : Body ms (gap ++ ',' :: rest)
  | next {m : Member} {text rest : List Char} {ms : List Member} (hm : m.Spelled text)
      (hrest : Body ms rest) : Body (m :: ms) (text ++ ',' :: rest)

variable {m : Member} {ms : List Member} {c : Char} {name text rest body : List Char}

theorem isWord_of_isIdentifier (h : isIdentifier name = true) :
    ∀ c ∈ name, Text.isWord c = true := by
  cases name with
  | nil => cases h
  | cons d s =>
      simp only [isIdentifier, Bool.and_eq_true, List.all_eq_true] at h
      intro c hc
      rcases List.mem_cons.1 hc with rfl | hc
      · simp only [Text.isWord, Char.isAlphanum, Bool.or_eq_true] at h ⊢
        exact .inl (h.1.imp .inl id)
      · exact h.2 c hc

theorem notMem_of_isIdentifier (h : isIdentifier name = true) (hc : Text.isWord c = false) :
    c ∉ name := by
  intro hmem
  rw [isWord_of_isIdentifier h c hmem] at hc
  cases hc

theorem trim_of_isIdentifier (h : isIdentifier name = true) : Text.trim name = name :=
  Text.trim_of_forall fun c hc => Text.isBlank_of_isWord (isWord_of_isIdentifier h c hc)

namespace Member.Spelled

theorem isIdentifier (h : m.Spelled text) : isIdentifier m.name = true := by
  cases h with
  | bare hname _ _ => exact hname
  | assigned hname _ _ _ _ _ => exact hname

theorem notMem (h : m.Spelled text) : ',' ∉ text ∧ '}' ∉ text ∧ '/' ∉ text := by
  have hblank {s : List Char} (hs : Text.Blanks s) : ',' ∉ s ∧ '}' ∉ s ∧ '/' ∉ s :=
    ⟨hs.notMem (by decide), hs.notMem (by decide), hs.notMem (by decide)⟩
  have hword {s : List Char} (hs : Flags.isIdentifier s = true) : ',' ∉ s ∧ '}' ∉ s ∧ '/' ∉ s :=
    ⟨notMem_of_isIdentifier hs (by decide +kernel), notMem_of_isIdentifier hs (by decide +kernel),
      notMem_of_isIdentifier hs (by decide +kernel)⟩
  cases h with
  | bare hname hbefore hafter =>
      have := hword hname
      have := hblank hbefore
      have := hblank hafter
      simp_all
  | assigned hname hbefore hafter hliteral hleft hright =>
      have := hword hname
      have := hblank hbefore
      have := hblank hafter
      have := hblank hleft
      have := hblank hright
      obtain ⟨-, hcomma, hbrace, hslash⟩ := hliteral
      simp_all

end Member.Spelled

theorem members_eq_map_items (body : List Char) :
    members body = (Text.items body).map Member.ofText := by
  rw [members, Text.items]

theorem members_cons (htext : ',' ∉ text) (rest : List Char) :
    members (text ++ ',' :: rest) = members text ++ members rest := by
  simp only [members_eq_map_items, Text.items_append_comma htext, List.map_append]

theorem members_of_blanks (h : Text.Blanks text) : members text = [] := by
  rw [members_eq_map_items,
    Text.items_of_trim_eq_nil (h.notMem (by decide)) (Text.trim_of_blanks h), List.map_nil]

theorem Member.ofText_of_isIdentifier (h : isIdentifier name = true) :
    Member.ofText name = ⟨name, none⟩ := by
  have hplain : name.dropWhile (· ≠ '=') = [] := by
    rw [List.dropWhile_eq_nil_iff]
    intro c hc
    exact decide_eq_true fun heq => notMem_of_isIdentifier h (by decide +kernel) (heq ▸ hc)
  rw [Member.ofText, hplain]

theorem Member.ofText_append (h : '=' ∉ name) (text : List Char) :
    Member.ofText (name ++ '=' :: text) = ⟨Text.trim name, some (Text.trim text)⟩ := by
  have hname : ∀ c ∈ name, decide (c ≠ '=') = true :=
    fun c hc => decide_eq_true fun heq => h (heq ▸ hc)
  have hstop : ∀ c ∈ ('=' :: text).head?, decide (c ≠ '=') = false := by
    rintro _ ⟨⟩
    decide
  rw [Member.ofText, Text.takeWhile_append_of_stop hname hstop,
    Text.dropWhile_append_of_stop hname hstop]

theorem Member.Spelled.ofText_trim (h : m.Spelled text) :
    Text.trim text ≠ [] ∧ Member.ofText (Text.trim text) = m := by
  cases h with
  | bare hname hbefore hafter =>
      rw [Text.trim_surrounded hbefore hafter, trim_of_isIdentifier hname]
      exact ⟨fun hnil => absurd (hnil ▸ hname) (by decide), Member.ofText_of_isIdentifier hname⟩
  | @assigned before name after left literal right hname hbefore hafter hliteral hleft hright =>
      have hequals : '=' ∉ before ++ (name ++ after) := by
        simp [hbefore.notMem (c := '=') (by decide), hafter.notMem (c := '=') (by decide),
          notMem_of_isIdentifier (c := '=') hname (by decide +kernel)]
      have htrimmed : '=' ∉ Text.trimLeft (before ++ (name ++ after)) :=
        fun hmem => hequals ((List.dropWhile_suffix _).subset hmem)
      rw [← List.append_assoc name, ← List.append_assoc before, Text.trim_append_cons (by decide)]
      refine ⟨List.append_ne_nil_of_right_ne_nil _ (List.cons_ne_nil _ _), ?_⟩
      rw [Member.ofText_append htrimmed, Text.trim_trimLeft, Text.trim_trimRight,
        Text.trim_surrounded hbefore hafter, Text.trim_surrounded hleft hright,
        trim_of_isIdentifier hname, hliteral.trimmed]

theorem Member.Spelled.members_eq (h : m.Spelled text) : members text = [m] := by
  obtain ⟨hne, hm⟩ := h.ofText_trim
  rw [members_eq_map_items, Text.items_of_trim_ne_nil h.notMem.1 hne, List.map_singleton, hm]

theorem members_of_body (h : Body ms body) : members body = ms := by
  induction h with
  | finished hgap => exact members_of_blanks hgap
  | last hm => exact hm.members_eq
  | skipped hgap _ ih =>
      rw [members_cons (hgap.notMem (by decide)), members_of_blanks hgap, ih, List.nil_append]
  | next hm _ ih => rw [members_cons hm.notMem.1, hm.members_eq, ih, List.singleton_append]

theorem Body.notMem (h : Body ms body) : '}' ∉ body ∧ '/' ∉ body := by
  induction h with
  | finished hgap => exact ⟨hgap.notMem (by decide), hgap.notMem (by decide)⟩
  | last hm => exact hm.notMem.2
  | skipped hgap _ ih =>
      have hbrace := hgap.notMem (c := '}') (by decide)
      have hslash := hgap.notMem (c := '/') (by decide)
      simp [ih, hbrace, hslash]
  | next hm _ ih => simp [ih, hm.notMem]

theorem Body.isIdentifier (h : Body ms body) : ∀ m ∈ ms, isIdentifier m.name = true := by
  induction h with
  | finished _ => simp
  | last hm => simpa using hm.isIdentifier
  | skipped _ _ ih => exact ih
  | next hm _ ih => exact List.forall_mem_cons.2 ⟨hm.isIdentifier, ih⟩

def Member.Readable (m : Member) : Prop :=
  ∀ literal, m.literal = some literal → ∃ value, literal? literal = some value

structure Numbered (next : UInt32) (ms : List Member) (entries : List (String × UInt32)) :
    Prop where
  names : entries.map Prod.fst = ms.map fun m => String.ofList m.name
  explicit : ∀ (i : Nat) (m : Member) (literal : List Char) (entry : String × UInt32),
    ms[i]? = some m → m.literal = some literal → entries[i]? = some entry →
    literal? literal = some entry.2
  first : ∀ (m : Member) (entry : String × UInt32), ms[0]? = some m → m.literal = none →
    entries[0]? = some entry → entry.2 = next
  later : ∀ (i : Nat) (m : Member) (entry previous : String × UInt32), ms[i + 1]? = some m →
    m.literal = none → entries[i + 1]? = some entry → entries[i]? = some previous →
    entry.2 = previous.2 + 1

variable {next value : UInt32} {entries : List (String × UInt32)}

theorem Numbered.nil (next : UInt32) : Numbered next [] [] := by
  constructor <;> simp

theorem Numbered.cons
    (hexplicit : ∀ literal, m.literal = some literal → literal? literal = some value)
    (himplicit : m.literal = none → value = next) (h : Numbered (value + 1) ms entries) :
    Numbered next (m :: ms) ((.ofList m.name, value) :: entries) where
  names := by rw [List.map_cons, List.map_cons, h.names]
  explicit := by
    intro i member literal entry hm hliteral hentry
    cases i with
    | zero =>
        cases hm
        cases hentry
        exact hexplicit literal hliteral
    | succ i => exact h.explicit i member literal entry hm hliteral hentry
  first := by
    intro member entry hm hnone hentry
    cases hm
    cases hentry
    exact himplicit hnone
  later := by
    intro i member entry previous hm hnone hentry hprevious
    cases i with
    | zero =>
        cases hprevious
        exact h.first member entry hm hnone hentry
    | succ i => exact h.later i member entry previous hm hnone hentry hprevious

theorem numbered_cons {first : String × UInt32}
    (h : Numbered next (m :: ms) (first :: entries)) :
    first.1 = .ofList m.name ∧
      (∀ literal, m.literal = some literal → literal? literal = some first.2) ∧
      (m.literal = none → first.2 = next) ∧ Numbered (first.2 + 1) ms entries := by
  obtain ⟨hfirst, hrest⟩ := List.cons.inj h.names
  refine ⟨hfirst, fun literal hliteral => h.explicit 0 m literal first rfl hliteral rfl,
    fun hnone => h.first m first rfl hnone rfl, hrest, ?_, ?_, ?_⟩
  · intro i member literal entry hm hliteral hentry
    exact h.explicit (i + 1) member literal entry hm hliteral hentry
  · intro member entry hm hnone hentry
    exact h.later 0 member entry first hm hnone hentry rfl
  · intro i member entry previous hm hnone hentry hprevious
    exact h.later (i + 1) member entry previous hm hnone hentry hprevious

theorem Numbered.unique {others : List (String × UInt32)} (h : Numbered next ms entries)
    (hothers : Numbered next ms others) : entries = others := by
  induction ms generalizing next entries others with
  | nil => rw [List.map_eq_nil_iff.1 h.names, List.map_eq_nil_iff.1 hothers.names]
  | cons m ms ih =>
      obtain ⟨entry, entries, rfl, -, -⟩ := List.map_eq_cons_iff.1 h.names
      obtain ⟨other, others, rfl, -, -⟩ := List.map_eq_cons_iff.1 hothers.names
      obtain ⟨hname, hexplicit, himplicit, hrest⟩ := numbered_cons h
      obtain ⟨hname', hexplicit', himplicit', hrest'⟩ := numbered_cons hothers
      have hvalue : entry.2 = other.2 := by
        cases hliteral : m.literal with
        | none => rw [himplicit hliteral, himplicit' hliteral]
        | some literal =>
            exact Option.some.inj
              ((hexplicit literal hliteral).symm.trans (hexplicit' literal hliteral))
      rw [hvalue] at hrest
      rw [ih hrest hrest', Prod.ext (hname.trans hname'.symm) hvalue]

theorem entriesFrom_cons (hname : isIdentifier m.name = true) (hvalue : m.value next = .ok value) :
    entriesFrom next (m :: ms) =
      (entriesFrom (value + 1) ms).map fun entries => (.ofList m.name, value) :: entries := by
  simp only [entriesFrom, hvalue, hname, bind, Except.bind, if_true]
  cases entriesFrom (value + 1) ms <;> rfl

theorem exists_value_of_readable (h : m.Readable) (next : UInt32) :
    ∃ value, m.value next = .ok value ∧
      (∀ literal, m.literal = some literal → literal? literal = some value) ∧
      (m.literal = none → value = next) := by
  cases hliteral : m.literal with
  | none => exact ⟨next, by rw [Member.value, hliteral], by simp, fun _ => rfl⟩
  | some literal =>
      obtain ⟨value, hvalue⟩ := h literal hliteral
      refine ⟨value, by simp only [Member.value, hliteral, hvalue], ?_, by simp⟩
      rintro _ ⟨⟩
      exact hvalue

theorem exists_entriesFrom (hnames : ∀ m ∈ ms, isIdentifier m.name = true)
    (hreadable : ∀ m ∈ ms, m.Readable) (next : UInt32) :
    ∃ entries, entriesFrom next ms = .ok entries ∧ Numbered next ms entries := by
  induction ms generalizing next with
  | nil => exact ⟨[], rfl, .nil next⟩
  | cons m ms ih =>
      rw [List.forall_mem_cons] at hnames hreadable
      obtain ⟨value, hvalue, hexplicit, himplicit⟩ := exists_value_of_readable hreadable.1 next
      obtain ⟨entries, hentries, hnumbered⟩ := ih hnames.2 hreadable.2 (value + 1)
      refine ⟨_, ?_, .cons hexplicit himplicit hnumbered⟩
      rw [entriesFrom_cons hnames.1 hvalue, hentries]
      rfl

theorem entriesFrom_of_unreadable {earlier later : List Member} {literal : List Char}
    (hnames : ∀ m ∈ earlier, isIdentifier m.name = true) (hreadable : ∀ m ∈ earlier, m.Readable)
    (hliteral : m.literal = some literal) (hnone : literal? literal = none) (next : UInt32) :
    entriesFrom next (earlier ++ m :: later) =
      .error (.invalidEnumValue (.ofList m.name) (.ofList literal)) := by
  induction earlier generalizing next with
  | nil =>
      simp only [List.nil_append, entriesFrom, Member.value, hliteral, hnone, bind, Except.bind]
  | cons first earlier ih =>
      rw [List.forall_mem_cons] at hnames hreadable
      obtain ⟨value, hvalue, -⟩ := exists_value_of_readable hreadable.1 next
      rw [List.cons_append, entriesFrom_cons hnames.1 hvalue, ih hnames.2 hreadable.2]
      rfl

end Testbench.Flags
