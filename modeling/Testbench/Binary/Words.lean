import Testbench.Binary.Error
import Testbench.Host.Files
import Testbench.Section.Basic
import Testbench.Words

namespace Testbench.Binary

def wordsAt (data : Bytes) (offset count : Nat) : List UInt32 :=
  (List.range count).map fun i => data.wordAt (offset + 4 * i)

@[simp] theorem length_wordsAt (data : Bytes) (offset count : Nat) :
    (wordsAt data offset count).length = count := by
  simp [wordsAt]

/-- The last word of a range may run past the end of the file, but must start before it. -/
def extractWords (files : Files) (name : String) (offset length : Nat) :
    Except BinaryError (List UInt32) :=
  if length % 4 ≠ 0 then .error (.unalignedLength length)
  else
    match files.lookup name with
    | .error cause => .error (.access cause)
    | .ok node =>
        if length = 0 then
          if offset < files.seekLimit then .ok [] else .error (.access .invalidInput)
        else if offset + (length - 4) < files.sizeOf node then
          match node with
          | .file data => .ok (wordsAt data offset (length / 4))
          | .directory => .error (.access .isADirectory)
        else .error (.rangeBeyondFile offset length (files.sizeOf node))

theorem extractWords_of_sameSystem {files others : Files} {name : String}
    (hsystem : files.SameSystem others) (hlookup : files.lookup name = others.lookup name)
    (offset length : Nat) :
    extractWords files name offset length = extractWords others name offset length := by
  simp only [extractWords, hlookup, hsystem.seekLimit_eq, hsystem.sizeOf_eq]

/-- A list that takes up this many bytes or more is refused before memory is asked for. -/
def allocationLimit : Nat := 0x8000000000000000

def sectionWords (files : Files) (name : String) (s : Section) : Except BinaryError Words :=
  match s.wordLength? with
  | none => .error .sectionOutOfBounds
  | some length =>
      if s.isNobits then
        if length < allocationLimit then .ok (.zeros (length / 4)) else .error .capacityOverflow
      else (extractWords files name s.offset length).map .listed

theorem sectionWords_of_sameSystem {files others : Files} {name : String}
    (hsystem : files.SameSystem others) (hlookup : files.lookup name = others.lookup name)
    (s : Section) : sectionWords files name s = sectionWords others name s := by
  simp only [sectionWords, extractWords_of_sameSystem hsystem hlookup]

end Testbench.Binary
