import Testbench.Proofs.Elf.Checked
import Testbench.Proofs.Memory.Mirror

namespace Testbench

inductive MemoryCall where
  | write (address : Nat) (value : UInt32)
  | read (address : Nat)
  deriving DecidableEq, Repr

def MemoryCall.address : MemoryCall → Nat
  | .write address _ => address
  | .read address => address

/-- An array of words refuses a look-up without an error. -/
inductive MemoryReply where
  | stored
  | found (value : UInt32)
  | refused (e : Option MemoryError)
  deriving DecidableEq, Repr

def storedAt? (address : Nat) : MemoryCall × MemoryReply → Option UInt32
  | (.write other value, .stored) => if other = address then some value else none
  | _ => none

@[simp] theorem storedAt?_read (address other : Nat) (reply : MemoryReply) :
    storedAt? address (.read other, reply) = none :=
  rfl

@[simp] theorem storedAt?_refused (address : Nat) (c : MemoryCall) (e : Option MemoryError) :
    storedAt? address (c, .refused e) = none := by
  cases c <;> rfl

def lastStoredAt? (address : Nat) : List (MemoryCall × MemoryReply) → Option UInt32
  | [] => none
  | entry :: history => (lastStoredAt? address history).or (storedAt? address entry)

structure MemoryPort (μ : Type) where
  size : μ → Nat
  call : μ → MemoryCall → μ × MemoryReply

namespace MemoryPort

variable {μ : Type}

def run (p : MemoryPort μ) (m : μ) : List MemoryCall → μ × List (MemoryCall × MemoryReply)
  | [] => (m, [])
  | c :: calls =>
      let rest := p.run (p.call m c).1 calls
      (rest.1, (c, (p.call m c).2) :: rest.2)

/-- How one call is answered by a memory that, after earlier calls, is a map from the addresses it
takes to words. -/
structure AnswersAsMap (p : MemoryPort μ) (m : μ) (takes : Nat → Prop) (initial : Nat → UInt32)
    (error : MemoryCall → Option MemoryError) (earlier : List MemoryCall) (c : MemoryCall) :
    Prop where
  refused_iff : (∃ e, (p.call (p.run m earlier).1 c).2 = .refused e) ↔ ¬takes c.address
  refused : ¬takes c.address →
    p.call (p.run m earlier).1 c = ((p.run m earlier).1, .refused (error c))
  size_eq : p.size (p.call (p.run m earlier).1 c).1 = p.size m
  stored : ∀ a v, c = .write a v → takes a → (p.call (p.run m earlier).1 c).2 = .stored
  found : ∀ a, c = .read a → takes a → (p.call (p.run m earlier).1 c).2 =
    .found ((lastStoredAt? a (p.run m earlier).2).getD (initial a))

structure Lawful (p : MemoryPort μ) (takes : Nat → Nat → Prop) (word : μ → Nat → UInt32)
    (error : Nat → MemoryCall → Option MemoryError) : Prop where
  refused : ∀ {m c}, ¬takes (p.size m) c.address →
    p.call m c = (m, .refused (error (p.size m) c))
  read : ∀ {m a}, takes (p.size m) a → p.call m (.read a) = (m, .found (word m a))
  write : ∀ {m a} v, takes (p.size m) a → ∃ next, p.call m (.write a v) = (next, .stored) ∧
    p.size next = p.size m ∧
    ∀ b, takes (p.size m) b → word next b = if a = b then v else word m b

variable {p : MemoryPort μ} {takes : Nat → Nat → Prop} {word : μ → Nat → UInt32}
  {error : Nat → MemoryCall → Option MemoryError}

theorem Lawful.size_call (h : p.Lawful takes word error) (m : μ) (c : MemoryCall) :
    p.size (p.call m c).1 = p.size m := by
  by_cases htaken : takes (p.size m) c.address
  · cases c with
    | write a v =>
        obtain ⟨next, hcall, hsize, -⟩ := h.write (a := a) v htaken
        rw [hcall, hsize]
    | read a => rw [h.read (a := a) htaken]
  · rw [h.refused htaken]

theorem Lawful.word_call (h : p.Lawful takes word error) {m : μ} {a : Nat}
    (ha : takes (p.size m) a) (c : MemoryCall) :
    word (p.call m c).1 a = (storedAt? a (c, (p.call m c).2)).getD (word m a) := by
  by_cases htaken : takes (p.size m) c.address
  · cases c with
    | write b v =>
        obtain ⟨next, hcall, -, hword⟩ := h.write (a := b) v htaken
        rw [hcall, hword a ha, storedAt?]
        split <;> rfl
    | read b => rw [h.read (a := b) htaken, storedAt?_read, Option.getD_none]
  · rw [h.refused htaken, storedAt?_refused, Option.getD_none]

theorem Lawful.size_run (h : p.Lawful takes word error) (m : μ) (calls : List MemoryCall) :
    p.size (p.run m calls).1 = p.size m := by
  induction calls generalizing m with
  | nil => rfl
  | cons c calls ih => rw [run, ih, h.size_call]

theorem Lawful.word_run (h : p.Lawful takes word error) {m : μ} {a : Nat}
    (ha : takes (p.size m) a) (calls : List MemoryCall) :
    word (p.run m calls).1 a = (lastStoredAt? a (p.run m calls).2).getD (word m a) := by
  induction calls generalizing m with
  | nil => rfl
  | cons c calls ih =>
      have hstill : takes (p.size (p.call m c).1) a := by rwa [h.size_call]
      rw [run, ih hstill, h.word_call ha, lastStoredAt?]
      cases lastStoredAt? a (p.run (p.call m c).1 calls).2 <;> rfl

theorem Lawful.answersAsMap (h : p.Lawful takes word error) (m : μ) (earlier : List MemoryCall)
    (c : MemoryCall) :
    p.AnswersAsMap m (takes (p.size m)) (word m) (error (p.size m)) earlier c := by
  have hsize := h.size_run m earlier
  have hrefused : ¬takes (p.size m) c.address →
      p.call (p.run m earlier).1 c = ((p.run m earlier).1, .refused (error (p.size m) c)) := by
    rw [← hsize]
    exact h.refused
  have hstored : ∀ a v, c = .write a v → takes (p.size m) a →
      (p.call (p.run m earlier).1 c).2 = .stored := by
    rintro a v rfl ha
    obtain ⟨next, hcall, -⟩ := h.write v (hsize.symm ▸ ha)
    rw [hcall]
  have hfound : ∀ a, c = .read a → takes (p.size m) a → (p.call (p.run m earlier).1 c).2 =
      .found ((lastStoredAt? a (p.run m earlier).2).getD (word m a)) := by
    rintro a rfl ha
    rw [h.read (hsize.symm ▸ ha), h.word_run ha]
  refine ⟨⟨?_, fun hnot => ⟨_, congrArg Prod.snd (hrefused hnot)⟩⟩, hrefused,
    (h.size_call _ c).trans hsize, hstored, hfound⟩
  rintro ⟨e, he⟩ htaken
  cases c with
  | write a v =>
      rw [hstored a v rfl htaken] at he
      cases he
  | read a =>
      rw [hfound a rfl htaken] at he
      cases he

end MemoryPort

namespace BusRam

def port : MemoryPort BusRam where
  size := size
  call ram
    | .write address value =>
        match ram.write address value with
        | .ok next => (next, .stored)
        | .error e => (ram, .refused (some e))
    | .read address =>
        match ram.read address with
        | .ok value => (ram, .found value)
        | .error e => (ram, .refused (some e))

theorem size_port (ram : BusRam) : port.size ram = ram.size :=
  rfl

def wordOf (ram : BusRam) (address : Nat) : UInt32 :=
  .ofNat (ram.bytes.number address 4)

def addressError (size address : Nat) : MemoryError :=
  if address % 4 ≠ 0 then .misaligned address else .addressOutOfRange address size

theorem check_of_not_taken {ram : BusRam} {address : Nat}
    (h : ¬(address % 4 = 0 ∧ address + 4 ≤ ram.size)) :
    ram.check address = .error (addressError ram.size address) := by
  rw [check, addressError]
  split
  · rfl
  · next haligned => rw [if_neg fun hfits => h ⟨not_not.1 haligned, hfits⟩]

theorem wordAt_eq_wordOf {ram : BusRam} {address : Nat} (h : address + 4 ≤ ram.size) :
    ram.bytes.wordAt address = ram.wordOf address := by
  rw [Bytes.wordAt, ← Bytes.window_eq_map h, wordOf, Bytes.number]

theorem read_of_taken {ram : BusRam} {a : Nat} (h : a % 4 = 0 ∧ a + 4 ≤ ram.size) :
    ram.read a = .ok (ram.wordOf a) := by
  rw [read, check_eq_ok_iff.2 h, ← wordAt_eq_wordOf h.2]
  rfl

theorem wordOf_put {ram : BusRam} {a b : Nat} (ha : a % 4 = 0 ∧ a + 4 ≤ ram.size)
    (hb : b % 4 = 0 ∧ b + 4 ≤ ram.size) (w : UInt32) :
    (ram.put a w).wordOf b = if a = b then w else ram.wordOf b := by
  have hput : b % 4 = 0 ∧ b + 4 ≤ (ram.put a w).size := by rwa [size_put]
  have hread := read_put ha hb.1 w
  rw [read_of_taken hput, read_of_taken hb] at hread
  split at hread
  · next heq => rw [if_pos heq, Except.ok.inj hread]
  · next hne => rw [if_neg hne, Except.ok.inj hread]

theorem lawful_port : port.Lawful (fun size a => a % 4 = 0 ∧ a + 4 ≤ size) wordOf
    fun size c => some (addressError size c.address) where
  refused := by
    intro ram c h
    cases c with
    | write a v =>
        have hcheck : ram.check a = .error (addressError ram.size a) := check_of_not_taken h
        simp only [port, write, hcheck]
        rfl
    | read a =>
        have hcheck : ram.check a = .error (addressError ram.size a) := check_of_not_taken h
        simp only [port, read, hcheck]
        rfl
  read := by
    intro ram a h
    simp only [port, read_of_taken h]
  write := by
    intro ram a v h
    refine ⟨ram.put a v, ?_, ?_, fun b hb => wordOf_put h hb v⟩
    · simp only [port, write, check_eq_ok_iff.2 h]
      rfl
    · rw [size_port, size_port, size_put]

/-- The check of an address that is a 64-bit word, as the place behind the word has to be. -/
def checkWide (ram : BusRam) (address : UInt64) : Except MemoryError Unit :=
  if address % 4 ≠ 0 then .error (.misaligned address.toNat)
  else if (Elf.Checked.sum? address.toNat 4).any (· ≤ ram.size) then .ok ()
  else .error (.addressOutOfRange address.toNat ram.size)

theorem checkWide_eq {ram : BusRam} (h : ram.size < UInt64.size) (address : UInt64) :
    ram.checkWide address = ram.check address.toNat := by
  have haligned : address % 4 ≠ 0 ↔ address.toNat % 4 ≠ 0 := by
    rw [Ne, ← UInt64.toNat_inj, UInt64.toNat_mod]
    rfl
  have hfits : (Elf.Checked.sum? address.toNat 4).any (· ≤ ram.size) = true ↔
      address.toNat + 4 ≤ ram.size := by
    rw [Elf.Checked.sum?]
    split
    · rw [Option.any_some, decide_eq_true_eq]
    · rw [Option.any_none]
      simp only [Bool.false_eq_true, false_iff]
      omega
  simp only [checkWide, check, haligned, hfits]

end BusRam

namespace WordMemory

def port : MemoryPort WordMemory where
  size := size
  call m
    | .write index value =>
        match m.set index value with
        | .ok next => (next, .stored)
        | .error e => (m, .refused (some e))
    | .read index =>
        match m.get? index with
        | some value => (m, .found value)
        | none => (m, .refused none)

def indexError (size : Nat) : MemoryCall → Option MemoryError
  | .write index _ => some (.indexOutOfRange index size)
  | .read _ => none

theorem lawful_port : port.Lawful (fun size i => i < size) (fun m i => m.words.getD i 0)
    indexError where
  refused := by
    intro m c h
    cases c with
    | write i v =>
        have hbeyond : ¬i < m.words.size := h
        simp only [port, set, dif_neg hbeyond, indexError]
    | read i =>
        have hbeyond : m.words[i]? = none := Array.getElem?_eq_none (Nat.le_of_not_lt h)
        simp only [port, get?, hbeyond, indexError]
  read := by
    intro m i h
    have hi : i < m.words.size := h
    simp [port, get?, hi]
  write := by
    intro m i v h
    have hi : i < m.words.size := h
    refine ⟨⟨m.words.set i v⟩, ?_, Array.size_set hi, fun j hj => ?_⟩
    · simp only [port, set, dif_pos hi]
    · have hj : j < m.words.size := hj
      simp [hj, Array.getElem_set]

end WordMemory

/-- Over any run of calls the memories are maps from the addresses they take to words, and other
addresses are refused. On the bus, addresses that are 64-bit words find the same. -/
theorem MemoryPort.memories_answer_as_maps :
    (∀ (ram : BusRam) (earlier : List MemoryCall) (c : MemoryCall),
      BusRam.port.AnswersAsMap ram (fun a => a % 4 = 0 ∧ a + 4 ≤ ram.size)
        ram.wordOf (fun c => some (BusRam.addressError ram.size c.address)) earlier c) ∧
    (∀ (m : WordMemory) (earlier : List MemoryCall) (c : MemoryCall),
      WordMemory.port.AnswersAsMap m (· < m.size) (fun i => m.words.getD i 0)
        (WordMemory.indexError m.size) earlier c) ∧
    ∀ (ram : BusRam) (address : UInt64), ram.size < UInt64.size →
      ram.checkWide address = ram.check address.toNat := by
  refine ⟨?_, ?_, ?_⟩
  · intro ram earlier c
    exact BusRam.lawful_port.answersAsMap ram earlier c
  · intro m earlier c
    exact WordMemory.lawful_port.answersAsMap m earlier c
  · intro ram address hsize
    exact BusRam.checkWide_eq hsize address

def BusRam.short : BusRam :=
  ⟨#[1, 2, 3, 4, 5, 6, 7, 8, 9, 10]⟩

def MemoryCall.mixed : List MemoryCall :=
  [.write 4 0xDEADBEEF, .write 2 1, .write 8 2, .write 0xFFFFFFFFFFFFFFFC 3, .write 4 0xCAFEBABE,
    .read 0, .write 6 4]

theorem MemoryPort.memories_answer_as_maps_short :
    (BusRam.port.call (BusRam.port.run .short MemoryCall.mixed).1 (.read 4)).2 =
        .found 0xCAFEBABE ∧
      (BusRam.port.call (BusRam.port.run .short MemoryCall.mixed).1 (.read 0)).2 =
        .found 0x04030201 ∧
      BusRam.port.call (BusRam.port.run .short MemoryCall.mixed).1 (.write 8 5) =
        ((BusRam.port.run .short MemoryCall.mixed).1, .refused (some (.addressOutOfRange 8 10))) ∧
      BusRam.short.checkWide 0xFFFFFFFFFFFFFFFC =
        .error (.addressOutOfRange 0xFFFFFFFFFFFFFFFC 10) ∧
      (WordMemory.port.call (WordMemory.port.run ⟨#[7, 8]⟩ [.write 1 9, .write 2 3]).1
          (.read 1)).2 =
        .found 9 := by
  obtain ⟨hbus, harray, hwide⟩ := MemoryPort.memories_answer_as_maps
  have hstored := (hbus .short MemoryCall.mixed (.read 4)).found 4 rfl (by decide)
  have hinitial := (hbus .short MemoryCall.mixed (.read 0)).found 0 rfl (by decide)
  have hrefused := (hbus .short MemoryCall.mixed (.write 8 5)).refused (by decide)
  have hword := (harray ⟨#[7, 8]⟩ [.write 1 9, .write 2 3] (.read 1)).found 1 rfl (by decide)
  have hlast : lastStoredAt? 4 (BusRam.port.run .short MemoryCall.mixed).2 = some 0xCAFEBABE := by
    decide +kernel
  have hnone : lastStoredAt? 0 (BusRam.port.run .short MemoryCall.mixed).2 = none := by
    decide +kernel
  have hfirst : BusRam.short.wordOf 0 = 0x04030201 := by decide +kernel
  rw [hlast] at hstored
  rw [hnone, hfirst] at hinitial
  exact ⟨hstored, hinitial, hrefused, hwide .short _ (by decide), hword⟩

end Testbench
