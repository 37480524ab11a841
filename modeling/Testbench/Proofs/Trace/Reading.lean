import Testbench.Proofs.Trace.Scanning

namespace Testbench

open Text Json

theorem trim_marked {s : List Char} {n : Nat} (h : Numeral.natural? 16 s = some n) :
    trim ('0' :: 'x' :: s) = '0' :: 'x' :: s := by
  refine trim_of_forall fun c hc => ?_
  simp only [List.mem_cons] at hc
  rcases hc with rfl | rfl | hc
  · decide
  · decide
  · have hdigit := Numeral.digitValue?_of_mem (Numeral.value?_of_natural? h) hc
    obtain ⟨hlow, hhigh⟩ := Numeral.ascii_of_digitValue? hdigit
    exact isBlank_of_ascii hlow hhigh

theorem parseHex_marked {s : List Char} {n : Nat} (hlt : n < UInt32.size)
    (h : Numeral.natural? 16 s = some n) : parseHex ('0' :: 'x' :: s) = some (.ofNat n) := by
  rw [parseHex, trim_marked h]
  exact Numeral.word?_of_natural? hlt h

theorem parseHex_hexMarked (w : UInt32) : parseHex (Numeral.hexMarked w.toNat) = some w := by
  rw [Numeral.hexMarked, parseHex_marked w.toNat_lt (Numeral.natural?_hex _), UInt32.ofNat_toNat]

theorem parseHex_hexMarkedPadded (width : Nat) (w : UInt32) :
    parseHex (Numeral.hexMarkedPadded width w.toNat) = some w := by
  rw [Numeral.hexMarkedPadded, parseHex_marked w.toNat_lt (Numeral.natural?_hexPadded _ _),
    UInt32.ofNat_toNat]

namespace Draft

def fill (d : Draft) (r : Record) : Record.Field → Draft
  | .cycle => { d with cycle := some r.cycle }
  | .pc => { d with pc := some r.pc }
  | .insn => { d with insn := some r.insn }
  | .status => { d with status := some r.status }

theorem has_fill_of_ne (d : Draft) (r : Record) {f g : Record.Field} (h : g ≠ f) :
    (d.fill r f).has g = d.has g := by
  cases f <;> cases g <;> first | rfl | exact absurd rfl h

end Draft

theorem Record.Field.ofKey?_key (f : Record.Field) : ofKey? f.key = some f := by
  cases f <;> decide

namespace TraceReader

def inList (records : Array Record) (phase : Phase) : TraceReader :=
  ⟨records, .records, ⟨[.array], phase, .none⟩⟩

def inObject (records : Array Record) (d : Draft) (phase : Phase) : TraceReader :=
  ⟨records, .members d, ⟨[.object, .array], phase, .none⟩⟩

def atValue (records : Array Record) (d : Draft) (f : Record.Field) : TraceReader :=
  ⟨records, .member d f, ⟨[.object, .array], .value, .none⟩⟩

variable {records : Array Record} {d : Draft} {next : TraceReader} {c : Char}

theorem reads_scalar {f : Record.Field} {v : Scalar} {filled : Draft}
    (h : d.set? f v = some filled) :
    accept ⟨records, .member d f, .afterValue [.object, .array]⟩ (.scalar v) =
      .ok (inObject records filled .next) := by
  change moved _ (Place.filled (d.set? f v) .members) = _
  rw [h]
  rfl

theorem reads_text_member {f : Record.Field} {s : List Char} {filled : Draft}
    (hset : d.set? f (.text (.ofList s)) = some filled)
    (h : (inObject records filled .next).Reads [c] next) :
    (atValue records d f).Reads (quoted s ++ [c]) next := by
  have htext := (reads_text rfl (reads_scalar hset)).append h
  rwa [String.toList_ofList] at htext

theorem reads_natural_member {f : Record.Field} {n : Nat} {filled : Draft}
    (hlt : n < UInt64.size) (hset : d.set? f (.natural n) = some filled)
    (hc : Number.EndsMember c) (h : (inObject records filled .next).Reads [c] next) :
    (atValue records d f).Reads (Numeral.decimal n ++ [c]) next :=
  reads_natural hlt rfl hc (reads_scalar hset) h

theorem reads_value (r : Record) (f : Record.Field) (hc : Number.EndsMember c)
    (h : (inObject records (d.fill r f) .next).Reads [c] next) :
    (atValue records d f).Reads (r.text f ++ [c]) next := by
  cases f with
  | cycle =>
      refine reads_natural_member r.cycle.toNat_lt ?_ hc h
      simp [Draft.set?, Draft.fill, r.cycle.toNat_lt]
  | pc =>
      refine reads_text_member ?_ h
      simp [Draft.set?, Draft.fill, parseHex_hexMarked]
  | insn =>
      refine reads_text_member ?_ h
      simp [Draft.set?, Draft.fill, parseHex_hexMarkedPadded]
  | status =>
      obtain ⟨cycle, pc, insn, status⟩ := r
      cases status with
      | raw bits =>
          have hlt := bits.toNat_lt
          refine reads_natural_member (Nat.lt_trans hlt (by decide)) ?_ hc h
          simp [Draft.set?, Draft.fill, hlt]
      | symbolic names =>
          refine reads_text_member ?_ h
          simp [Draft.set?, Draft.fill]

theorem reads_member (records : Array Record) (r : Record) (f : Record.Field) {phase : Phase}
    (hphase : phase = .firstKey ∨ phase = .key) (hnew : d.has f = false)
    (hc : Number.EndsMember c) (h : (inObject records (d.fill r f) .next).Reads [c] next) :
    (inObject records d phase).Reads (r.member f ++ [c]) next := by
  have hindent : (inObject records d phase).Reads "    ".toList (inObject records d phase) := rfl
  have hkey : (inObject records d phase).Reads (quoted f.key.toList)
      ⟨records, .member d f, ⟨[.object, .array], .colon, .none⟩⟩ := by
    refine reads_key rfl hphase ?_
    change moved _ (Place.atKey d f.key) = _
    rw [Place.atKey, Record.Field.ofKey?_key]
    simp only [hnew]
    rfl
  have hcolon : Reads ⟨records, .member d f, ⟨[.object, .array], .colon, .none⟩⟩ ": ".toList
      (atValue records d f) := rfl
  have hsplit : r.member f ++ [c] =
      "    ".toList ++ quoted f.key.toList ++ ": ".toList ++ (r.text f ++ [c]) :=
    List.append_assoc ..
  rw [hsplit]
  exact ((hindent.append hkey).append hcolon).append (reads_value r f hc h)

theorem reads_comma : (inObject records d .next).Reads [','] (inObject records d .key) :=
  rfl

theorem reads_break : (inObject records d .next).Reads ['\n'] (inObject records d .next) :=
  rfl

theorem reads_break_of_key : (inObject records d .key).Reads ['\n'] (inObject records d .key) :=
  rfl

theorem reads_members (records : Array Record) (r : Record) {f : Record.Field}
    {fields : List Record.Field} {phase : Phase} (hphase : phase = .firstKey ∨ phase = .key)
    (hnodup : (f :: fields).Nodup) (hnew : ∀ g ∈ f :: fields, d.has g = false) :
    (inObject records d phase).Reads
      (",\n".toList.intercalate ((f :: fields).map r.member) ++ ['\n'])
      (inObject records ((f :: fields).foldl (fun d f => d.fill r f) d) .next) := by
  induction fields generalizing d f phase with
  | nil =>
      rw [List.map_singleton, List.intercalate_singleton]
      exact reads_member records r f hphase (hnew f List.mem_cons_self) (.inr rfl) reads_break
  | cons g fields ih =>
      obtain ⟨hfirst, hrest⟩ := List.nodup_cons.1 hnodup
      have hhead := reads_member records r f hphase (hnew f List.mem_cons_self) (.inl rfl)
        reads_comma
      have htail := ih (d := d.fill r f) (.inr rfl) hrest fun other hother => by
        have hne : other ≠ f := fun heq => hfirst (heq ▸ hother)
        rw [Draft.has_fill_of_ne _ _ hne]
        exact hnew other (List.mem_cons_of_mem _ hother)
      have hall := (hhead.append reads_break_of_key).append htail
      have hseparator : ",\n".toList = [','] ++ ['\n'] := rfl
      rw [List.map_cons, List.map_cons, List.intercalate_cons_cons]
      simp only [List.map_cons, hseparator, List.append_assoc] at hall ⊢
      exact hall

theorem reads_object (records : Array Record) (r : Record) {phase : Phase}
    (hphase : phase = .firstItem ∨ phase = .value) :
    (inList records phase).Reads r.object (inList (records.push r) .next) := by
  have hopen : (inList records phase).Reads "  \x7b\n".toList
      (inObject records .blank .firstKey) := by
    rcases hphase with rfl | rfl <;> rfl
  have hmembers := reads_members records (d := .blank) r (.inl rfl)
    (show [Record.Field.cycle, .pc, .insn, .status].Nodup by decide) (by decide)
  have hclose : (inObject records ⟨some r.cycle, some r.pc, some r.insn, some r.status⟩ .next).Reads
      "  \x7d".toList (inList (records.push r) .next) := rfl
  have hsplit : r.object = "  \x7b\n".toList ++
      (",\n".toList.intercalate (Record.Field.all.map r.member) ++ ['\n']) ++ "  \x7d".toList := by
    have hend : "\n  \x7d".toList = ['\n'] ++ "  \x7d".toList := rfl
    calc
      r.object = "  \x7b\n".toList ++ ",\n".toList.intercalate (Record.Field.all.map r.member) ++
          (['\n'] ++ "  \x7d".toList) := congrArg (_ ++ ·) hend
      _ = "  \x7b\n".toList ++
          (",\n".toList.intercalate (Record.Field.all.map r.member) ++ ['\n']) ++
          "  \x7d".toList := by simp only [List.append_assoc]
  rw [hsplit]
  exact (hopen.append hmembers).append hclose

theorem reads_objects (records : Array Record) (r : Record) (rs : List Record) {phase : Phase}
    (hphase : phase = .firstItem ∨ phase = .value) :
    (inList records phase).Reads (",\n".toList.intercalate ((r :: rs).map Record.object))
      (inList (records ++ (r :: rs).toArray) .next) := by
  induction rs generalizing records r phase with
  | nil => simpa using reads_object records r hphase
  | cons r' rs ih =>
      have hcomma : (inList (records.push r) .next).Reads ",\n".toList
          (inList (records.push r) .value) := rfl
      have hall := ((reads_object records r hphase).append hcomma).append
        (ih (records.push r) r' (.inr rfl))
      rw [List.map_cons, List.map_cons, List.intercalate_cons_cons]
      simpa using hall

end TraceReader

namespace Trace

theorem read_of_reads (text : List Char) {records : Array Record}
    (h : TraceReader.start.Reads text ⟨records, .finished, ⟨[], .done, .none⟩⟩) :
    read (Utf8.encode text) = .ok ⟨records⟩ := by
  rw [read, show TraceReader.start.run _ = _ from h]
  rfl

theorem read_bytes (t : Trace) : read t.bytes = .ok t := by
  obtain ⟨⟨rs⟩⟩ := t
  cases rs with
  | nil => exact read_of_reads "[]\n".toList rfl
  | cons r rs =>
      have hopen : TraceReader.start.Reads "[\n".toList (TraceReader.inList #[] .firstItem) := rfl
      have hobjects := TraceReader.reads_objects #[] r rs (.inl rfl)
      have hclose : (TraceReader.inList (#[] ++ (r :: rs).toArray) .next).Reads "\n]\n".toList
          ⟨#[] ++ (r :: rs).toArray, .finished, ⟨[], .done, .none⟩⟩ := rfl
      have hall := read_of_reads _ ((hopen.append hobjects).append hclose)
      rw [Array.empty_append] at hall
      rw [bytes, text, if_neg (List.cons_ne_nil r rs)]
      exact hall

end Trace

end Testbench
