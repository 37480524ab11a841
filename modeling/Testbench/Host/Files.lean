import Testbench.Bytes
import Testbench.Host.Path

namespace Testbench

/-- The names from the root down to a file or directory. -/
abbrev Location := List String

inductive Node where
  | file (data : Bytes)
  | directory
  deriving DecidableEq, Repr

def Node.contents : Node → Except FileError Bytes
  | .file data => .ok data
  | .directory => .error .isADirectory

/-- The positions that a signed 64-bit number holds lie below. -/
def Files.positionLimit : Nat := 0x8000000000000000

/-- A seek to the limit or beyond it is refused. Both numbers depend on the file system. -/
structure Files where
  working : Location
  node? : Location → Option Node
  seekLimit : Nat := Files.positionLimit
  directorySize : Nat := 4096

namespace Files

def SeeksSigned (files : Files) : Prop :=
  positionLimit ≤ files.seekLimit

def sizeOf (files : Files) : Node → Nat
  | .file data => data.size
  | .directory => files.directorySize

def ofEntries (working : Location) (directories : List Location)
    (entries : List (Location × Bytes)) : Files where
  working
  node? place :=
    match entries.lookup place with
    | some data => some (.file data)
    | none =>
        if (working :: directories ++ entries.map (·.1.dropLast)).any place.isPrefixOf then
          some .directory
        else none

def move (place : Location) (part : String) : Location :=
  if part = "." then place else if part = ".." then place.dropLast else place ++ [part]

def step (files : Files) (place : Location) (part : String) : Except FileError Location :=
  match files.node? place with
  | none => .error .notFound
  | some (.file _) => .error .notADirectory
  | some .directory =>
      if Path.nameLimit < part.utf8ByteSize then .error .nameTooLong else .ok (move place part)

def walk (files : Files) (place : Location) (parts : List String) : Except FileError Location :=
  parts.foldlM files.step place

def origin (files : Files) (path : Path) : Location :=
  if path.absolute then [] else files.working

def locate (files : Files) (name : String) : Except FileError Location := do
  let path ← Path.ofString name
  files.walk (files.origin path) path.parts

def lookup (files : Files) (name : String) : Except FileError Node := do
  match files.node? (← files.locate name) with
  | some node => .ok node
  | none => .error .notFound

def read (files : Files) (name : String) : Except FileError Bytes := do
  (← files.lookup name).contents

def replaceable (files : Files) (place : Location) : Except FileError Location :=
  if files.node? place = some .directory then .error .isADirectory else .ok place

def target (files : Files) (name : String) : Except FileError Location := do
  let path ← Path.ofString name
  let folder ← files.walk (files.origin path) (path.folder ++ ["."])
  if path.slash then .error .isADirectory else files.replaceable (← files.step folder path.name)

def put (files : Files) (place : Location) (data : Bytes) : Files :=
  { files with
    node? := fun other => if other = place then some (.file data) else files.node? other }

def write (files : Files) (name : String) (data : Bytes) : Except FileError Files :=
  (files.target name).map fun place => files.put place data

def writeAll (files : Files) (written : List (String × Bytes)) : Files :=
  written.foldl (fun files (name, data) => (files.write name data).toOption.getD files) files

structure SameSystem (files others : Files) : Prop where
  seekLimit_eq : files.seekLimit = others.seekLimit
  directorySize_eq : files.directorySize = others.directorySize

theorem SameSystem.refl (files : Files) : files.SameSystem files :=
  ⟨rfl, rfl⟩

theorem SameSystem.symm {files others : Files} (h : files.SameSystem others) :
    others.SameSystem files :=
  ⟨h.seekLimit_eq.symm, h.directorySize_eq.symm⟩

theorem SameSystem.trans {files others more : Files} (h : files.SameSystem others)
    (hmore : others.SameSystem more) : files.SameSystem more :=
  ⟨h.seekLimit_eq.trans hmore.seekLimit_eq, h.directorySize_eq.trans hmore.directorySize_eq⟩

theorem sameSystem_ofEntries (working other : Location) (directories others : List Location)
    (entries more : List (Location × Bytes)) :
    (ofEntries working directories entries).SameSystem (ofEntries other others more) :=
  ⟨rfl, rfl⟩

theorem SameSystem.sizeOf_eq {files others : Files} (h : files.SameSystem others) (node : Node) :
    files.sizeOf node = others.sizeOf node := by
  cases node with
  | file data => rfl
  | directory => exact h.directorySize_eq

theorem sameSystem_write (files : Files) (name : String) (data : Bytes) :
    ((files.write name data).toOption.getD files).SameSystem files := by
  rw [write]
  cases files.target name with
  | error e => exact .refl files
  | ok place => exact ⟨rfl, rfl⟩

theorem sameSystem_writeAll (files : Files) (written : List (String × Bytes)) :
    (files.writeAll written).SameSystem files := by
  induction written generalizing files with
  | nil => exact .refl files
  | cons entry rest ih => exact (ih _).trans (sameSystem_write files entry.1 entry.2)

theorem step_put {files : Files} {place next target : Location} {part : String} (data : Bytes)
    (htarget : files.node? target ≠ some .directory) (h : files.step place part = .ok next) :
    (files.put target data).step place part = .ok next := by
  have hplace : place ≠ target := by
    rintro rfl
    simp only [step] at h
    split at h <;> simp_all
  simpa only [step, put, if_neg hplace] using h

theorem walk_put {files : Files} {place last target : Location} {parts : List String}
    (data : Bytes) (htarget : files.node? target ≠ some .directory)
    (h : files.walk place parts = .ok last) :
    (files.put target data).walk place parts = .ok last := by
  induction parts generalizing place with
  | nil => exact h
  | cons part parts ih =>
      simp only [walk, List.foldlM_cons] at h ⊢
      cases hstep : files.step place part with
      | error e =>
          rw [hstep] at h
          cases h
      | ok next =>
          rw [hstep] at h
          rw [step_put data htarget hstep]
          exact ih h

theorem eq_of_step_dot {files : Files} {place next : Location}
    (h : files.step place "." = .ok next) : next = place := by
  simp only [step] at h
  split at h
  · cases h
  · cases h
  · split at h
    · cases h
    · exact (Except.ok.inj h).symm

theorem walk_append (files : Files) (place : Location) (before after : List String) :
    files.walk place (before ++ after) =
      files.walk place before >>= fun p => files.walk p after := by
  simp [walk, List.foldlM_append]

theorem walk_singleton (files : Files) (place : Location) (part : String) :
    files.walk place [part] = files.step place part := by
  simp [walk]

theorem eq_ok_of_bind {ε α β : Type} {x : Except ε α} {f : α → Except ε β} {b : β}
    (h : x >>= f = .ok b) : ∃ a, x = .ok a ∧ f a = .ok b := by
  cases x with
  | error e => cases h
  | ok a => exact ⟨a, rfl, h⟩

theorem walk_of_target {files : Files} {name : String} {place : Location}
    (h : files.target name = .ok place) :
    ∃ path, Path.ofString name = .ok path ∧
      files.walk (files.origin path) path.parts = .ok place ∧
      files.node? place ≠ some .directory := by
  obtain ⟨path, hpath, h⟩ := eq_ok_of_bind h
  obtain ⟨folder, hfolder, h⟩ := eq_ok_of_bind h
  rw [walk_append] at hfolder
  obtain ⟨before, hbefore, hdot⟩ := eq_ok_of_bind hfolder
  rw [walk_singleton] at hdot
  obtain rfl := eq_of_step_dot hdot
  split at h
  · cases h
  · next hslash =>
      obtain ⟨next, hstep, h⟩ := eq_ok_of_bind h
      simp only [replaceable] at h
      split at h
      · cases h
      · next hnode =>
          simp only [Except.ok.injEq] at h
          subst h
          refine ⟨path, hpath, ?_, hnode⟩
          rw [Path.parts, if_neg hslash, walk_append, hbefore]
          exact (walk_singleton ..).trans hstep

theorem write_of_target {files : Files} {name : String} {place : Location}
    (h : files.target name = .ok place) (data : Bytes) :
    files.write name data = .ok (files.put place data) := by
  rw [write, h]
  rfl

theorem read_of_write {files written : Files} {name : String} {data : Bytes}
    (h : files.write name data = .ok written) : written.read name = .ok data := by
  simp only [write] at h
  cases htarget : files.target name with
  | error e =>
      rw [htarget] at h
      cases h
  | ok place =>
      rw [htarget] at h
      cases h
      obtain ⟨path, hpath, hwalk, hnode⟩ := walk_of_target htarget
      have hplace : (files.put place data).locate name = .ok place := by
        rw [locate, hpath]
        exact walk_put data hnode hwalk
      rw [read, lookup, hplace]
      simp [put, Node.contents, bind, Except.bind]

end Files

end Testbench
