import Testbench.Binary.Source
import Testbench.Elf.Builder
import Testbench.Proofs.Elf.Decoded
import Testbench.Proofs.Image.Load
import Testbench.Proofs.Listing.Described

namespace Testbench

namespace Listing

def isKindChar (c : Char) : Bool :=
  33 ≤ c.toNat && c.toNat < 128 && c ≠ '[' && c ≠ ']'

theorem isKind_of_chars {text : List Char} (hchars : text.all isKindChar = true)
    (hletter : text.any (!Text.isDigit ·) = true) (hname : isName text = false) : IsKind text := by
  simp only [List.all_eq_true, isKindChar, Bool.and_eq_true, decide_eq_true_eq] at hchars
  simp only [List.any_eq_true, Bool.not_eq_true'] at hletter
  refine ⟨⟨?_, ?_⟩, ?_, ?_, hletter, hname⟩
  · obtain ⟨c, hc, -⟩ := hletter
    exact List.ne_nil_of_mem hc
  · intro c hc
    exact Text.isBlank_of_ascii (hchars c hc).1.1.1 (hchars c hc).1.1.2
  · intro hmem
    exact (hchars _ hmem).1.2 rfl
  · intro hmem
    exact (hchars _ hmem).2 rfl

theorem isKind_hexMarked (n : Nat) : IsKind (Numeral.hexMarked n) := by
  have hdigits : (Numeral.hex n).all isKindChar = true := by
    rw [List.all_eq_true]
    intro c hc
    have hdigit := Numeral.digitValue?_of_mem (Numeral.value?_hex n) hc
    obtain ⟨hlow, hhigh⟩ := Numeral.ascii_of_digitValue? hdigit
    simp only [isKindChar, Bool.and_eq_true, decide_eq_true_eq]
    refine ⟨⟨⟨hlow, hhigh⟩, ?_⟩, ?_⟩
    · rintro rfl
      exact absurd hdigit (by decide)
    · rintro rfl
      exact absurd hdigit (by decide)
  have hletter : Text.isDigit 'x' = false := by decide +kernel
  refine isKind_of_chars ?_ ?_ rfl
  · rw [Numeral.hexMarked, List.all_cons, List.all_cons, hdigits]
    rfl
  · rw [Numeral.hexMarked, List.any_cons, List.any_cons, hletter]
    exact Bool.or_true _

theorem isKind_kindName (code : Nat) : IsKind (Elf.kindName code).toList := by
  rw [Elf.kindName.eq_def]
  split
  case h_18 =>
    rw [String.toList_ofList]
    exact isKind_hexMarked code
  all_goals exact isKind_of_chars (by decide) (by decide +kernel) (by decide)

theorem listable_of_decoded {s : Section} (hs : s.Decoded)
    (hname : ∀ c ∈ s.name.toList, Text.isBlank c = false) : Listable s where
  name := ⟨fun h => hs.name (String.toList_eq_nil_iff.1 h), hname⟩
  kind := by
    obtain ⟨code, hcode⟩ := hs.kind
    rw [hcode]
    exact isKind_kindName code
  index := hs.index
  address := hs.address
  offset := hs.offset
  size := hs.size
  entrySize := hs.entrySize

/-- Each section has a row of its own, in this order, and no other line looks like a row. -/
inductive Lists : List Section → List (List Char) → Prop where
  | nil : Lists [] []
  | row {s : Section} {sections : List Section} {line : List Char} {lines : List (List Char)}
      (hline : Describes s line) (hrest : Lists sections lines) :
      Lists (s :: sections) (line :: lines)
  | other {sections : List Section} {line : List Char} {lines : List (List Char)}
      (hline : ¬Marked line) (hrest : Lists sections lines) : Lists sections (line :: lines)

variable {sections : List Section}

theorem filterMap_of_lists {lines : List (List Char)} (hsections : ∀ s ∈ sections, Listable s)
    (h : Lists sections lines) :
    lines.filterMap (fun line => (Row.ofLine? line).bind Row.section?) =
      sections.filter fun s => isName s.name.toList := by
  induction h with
  | nil => rfl
  | @row s sections line lines hline _ ih =>
      rw [List.forall_mem_cons] at hsections
      rw [List.filterMap_cons, section?_of_describes hsections.1 hline, List.filter_cons,
        ih hsections.2]
      by_cases hname : isName s.name.toList
      · rw [if_pos hname, if_pos hname]
      · rw [if_neg hname, if_neg hname]
  | @other sections line lines hline _ ih =>
      have hnone : (Row.ofLine? line).bind Row.section? = none := by
        cases hfound : (Row.ofLine? line).bind Row.section? with
        | none => rfl
        | some s => exact absurd (marked_of_section? hfound) hline
      rw [List.filterMap_cons, hnone, ih hsections]

theorem perm_sections_table {native : SectionTable} {text : String}
    (hnative : ∀ s ∈ native.sections, Listable s) (hperm : sections.Perm native.sections)
    (h : Lists sections (Text.lines text.toList)) :
    (table text).sections.Perm (native.sections.filter fun s => isName s.name.toList) := by
  have hrows := filterMap_of_lists (fun s hs => hnative s (hperm.mem_iff.1 hs)) h
  have hnodup : ((sections.filter fun s => isName s.name.toList).map Section.name).Nodup :=
    ((hperm.map Section.name).nodup_iff.2 native.nodup).sublist (List.filter_sublist.map _)
  rw [table, Listing.sections, hrows, SectionTable.sections_ofList hnodup]
  exact hperm.filter _

theorem get?_of_perm {native listed : SectionTable} {name : String}
    (hname : isName name.toList = true)
    (h : listed.sections.Perm (native.sections.filter fun s => isName s.name.toList)) :
    listed.get? name = native.get? name := by
  refine Option.ext fun s => ?_
  rw [SectionTable.get?_eq_some_iff, SectionTable.get?_eq_some_iff, h.mem_iff, List.mem_filter]
  constructor
  · rintro ⟨⟨hmem, -⟩, rfl⟩
    exact ⟨hmem, rfl⟩
  · rintro ⟨hmem, rfl⟩
    exact ⟨⟨hmem, hname⟩, rfl⟩

end Listing

namespace Image

/-- From a listing of all sections of a binary those are read whose name begins with a dot. They are
loaded as the binary itself tells them, unless the program that lists them changes the binary. -/
theorem load_listed_eq_native {host : Host} {lister : Lister} {file : String} {data : Bytes}
    {native : SectionTable} {done : Completion} {printed : List Section}
    (hfile : host.files.lookup file = .ok (.file data)) (hnative : Elf.readTable data = .ok native)
    (hnames : ∀ s ∈ native.sections, ∀ c ∈ s.name.toList, Text.isBlank c = false)
    (hdone : host.launch (lister.invocation file) = .ok done) (hcode : done.code = some 0)
    (hprinted : printed.Perm native.sections)
    (hlines : Listing.Lists printed (Text.lines done.stdout.toList)) :
    (Listing.table done.stdout).sections.Perm
        (native.sections.filter fun s => Listing.isName s.name.toList) ∧
      ((host.after (lister.invocation file)).files.lookup file = host.files.lookup file →
        ∀ config : LoadConfig, (∀ name ∈ config.sections, Listing.isName name.toList = true) →
          load host { config with source := .listed lister } file =
            load host { config with source := .native } file) := by
  have hperm := Listing.perm_sections_table
    (fun s hs => Listing.listable_of_decoded (Elf.decoded_of_readTable hnative hs) (hnames s hs))
    hprinted hlines
  refine ⟨hperm, ?_⟩
  intro hkept config hconfig
  have hlisted : Binary.sectionTable host (.listed lister) file =
      .ok (Listing.table done.stdout) := by
    simp only [Binary.sectionTable, hfile, Lister.table, hdone, hcode, if_true]
  have hown : Binary.sectionTable host .native file = .ok native :=
    sectionTable_native_eq_ok_iff.2 ⟨data, hfile, hnative⟩
  have hfound : config.sections.filterMap (Listing.table done.stdout).get? =
      config.sections.filterMap native.get? :=
    List.filterMap_congr fun name hname => Listing.get?_of_perm (hconfig name hname) hperm
  have hafter : (SectionSource.listed lister).after host file =
      host.after (lister.invocation file) := by
    simp only [SectionSource.after, hfile]
  have hsame : SectionSource.native.after host file = host := rfl
  rw [load_of_table hlisted, load_of_table hown, hfound, hafter, hsame]
  refine congrArg _ (mapM_congr_of_forall fun s _ => ?_)
  rw [blockOf, blockOf, Binary.sectionWords_of_sameSystem (host.sameSystem_after _) hkept]
  rfl

def listedFile : Bytes :=
  (Elf.Builder.fileHeader 52 4 ++ Elf.Builder.zeros 40 ++
    Elf.Builder.entry [1, 1, 0, 0x80000000, 224, 4, 0, 0, 4, 0] ++
    Elf.Builder.entry [7, 8, 0, 0x800000AC, 0, 3, 0, 0, 4, 0] ++
    Elf.Builder.entry [0, 3, 0, 0, 212, 12, 0, 0, 1, 0] ++
    0 :: Elf.Builder.nameBytes ".text" ++ Elf.Builder.nameBytes "a[7]" ++ [1, 2, 3, 4]).toArray

def listedEntries : List Elf.Entry :=
  [⟨0, 0, 0, 0, 0, 0⟩, ⟨1, 1, 0x80000000, 224, 4, 0⟩, ⟨7, 8, 0x800000AC, 0, 3, 0⟩,
    ⟨0, 3, 0, 212, 12, 0⟩]

def listedCode : Section :=
  ⟨1, ".text", "PROGBITS", 0x80000000, 224, 4, 0⟩

def listedSpace : Section :=
  ⟨2, "a[7]", "NOBITS", 0x800000AC, 0, 3, 0⟩

def listedLines : List (List Char) :=
  ["[Nr] Name Type Addr".toList, "[ 0]  NULL 0 0 0 0".toList,
    " [ 2] a[7] NOBITS 800000Ac 00 03 00 WA".toList, "[01] .text PROGBITS 80000000 0E0 4 0".toList]

def listedText : String :=
  .ofList (listedLines.intersperse ['\n']).flatten

def listingHost : Host where
  files := .ofEntries [] [] [(["a"], listedFile), (["lister"], #[])]
  searchPath := []
  program? place := if place = ["lister"] then some fun _ => ⟨some 0, listedText, "", []⟩ else none

theorem printed_spaced {rest : List Char} (hbreak : Text.EndsWord rest) (hopen : '[' ∉ rest)
    (texts : List (List Char)) : Listing.Printed texts (texts.flatMap ([' '] ++ ·) ++ rest) := by
  induction texts with
  | nil => exact .done hbreak hopen
  | cons text texts ih =>
      rw [List.flatMap_cons, List.append_assoc, List.append_assoc]
      exact .column (List.cons_ne_nil _ _) (List.all_eq_true.1 rfl) ih

theorem lists_listedText :
    Listing.Lists [listedSpace, listedCode] (Text.lines listedText.toList) := by
  have hspace : Listing.Printed
      (["a[7]", "NOBITS", "800000Ac", "00", "03", "00"].map String.toList)
      " a[7] NOBITS 800000Ac 00 03 00 WA".toList :=
    @printed_spaced " WA".toList (fun c hc => by cases hc; decide) (by decide) _
  have hcode : Listing.Printed
      ([".text", "PROGBITS", "80000000", "0E0", "4", "0"].map String.toList)
      " .text PROGBITS 80000000 0E0 4 0".toList :=
    @printed_spaced [] (fun c hc => by cases hc) (by decide) _
  have hlines : Text.lines listedText.toList = listedLines := by
    rw [listedText, String.toList_ofList]
    simp only [listedLines, String.reduceToList]
    decide +kernel
  rw [hlines]
  refine .other (by decide +kernel) (.other (by decide +kernel) (.row ?_ (.row ?_ .nil)))
  · exact @Listing.Describes.row listedSpace [' '] [' '] ['2'] "800000Ac".toList "00".toList
      "03".toList "00".toList _ (by decide) (List.all_eq_true.1 rfl) ⟨0, by decide⟩
      ⟨0, by decide⟩ ⟨1, by decide⟩ ⟨1, by decide⟩ ⟨1, by decide⟩ hspace
  · exact @Listing.Describes.row listedCode [] [] ['0', '1'] "80000000".toList "0E0".toList
      "4".toList "0".toList _ (by decide) (List.all_eq_true.1 rfl) ⟨1, by decide⟩ ⟨0, by decide⟩
      ⟨1, by decide⟩ ⟨0, by decide⟩ ⟨0, by decide⟩ hcode

theorem load_listed_eq_native_bracketed :
    (Listing.table listedText).sections.Perm [listedCode] ∧
      load listingHost ⟨[".data", ".text"], true, .listed ⟨"./lister"⟩⟩ "a" =
        load listingHost ⟨[".data", ".text"], true, .native⟩ "a" := by
  have hheader : Elf.readHeader listedFile = .ok ⟨.elf32, 52, 40, 4, 3⟩ := by decide +kernel
  have hentries : Elf.readEntries listedFile ⟨.elf32, 52, 40, 4, 3⟩ = .ok listedEntries := by
    decide +kernel
  have hrows : listedEntries.zipIdx.filterMap
      (fun entry => entry.1.section? listedFile 212 entry.2) = [listedCode, listedSpace] := by
    decide +kernel
  have hnative : Elf.readTable listedFile = .ok (.ofList [listedCode, listedSpace]) := by
    rw [Elf.readTable, hheader]
    simp only [bind, Except.bind, hentries]
    exact congrArg (fun sections => Except.ok (SectionTable.ofList sections)) hrows
  have hsections : (SectionTable.ofList [listedCode, listedSpace]).sections =
      [listedCode, listedSpace] := SectionTable.sections_ofList (by decide)
  have hfile : listingHost.files.lookup "a" = .ok (.file listedFile) := rfl
  have hdone : listingHost.launch (Lister.invocation ⟨"./lister"⟩ "a") =
      .ok ⟨some 0, listedText, "", []⟩ := rfl
  have hkept : (listingHost.after (Lister.invocation ⟨"./lister"⟩ "a")).files.lookup "a" =
      listingHost.files.lookup "a" := by
    rw [Host.after, hdone]
    rfl
  have hnames : ∀ s ∈ (SectionTable.ofList [listedCode, listedSpace]).sections,
      ∀ c ∈ s.name.toList, Text.isBlank c = false := by
    have hall : [listedCode, listedSpace].all
        (fun s => s.name.toList.all (!Text.isBlank ·)) = true := by decide
    simpa only [hsections, List.all_eq_true, Bool.not_eq_true'] using hall
  have hperm : [listedSpace, listedCode].Perm
      (SectionTable.ofList [listedCode, listedSpace]).sections := by
    rw [hsections]
    exact .swap ..
  obtain ⟨hlisted, hload⟩ :=
    load_listed_eq_native hfile hnative hnames hdone rfl hperm lists_listedText
  rw [hsections] at hlisted
  exact ⟨hlisted, hload hkept ⟨[".data", ".text"], true, .native⟩ (by decide)⟩

end Image

end Testbench
