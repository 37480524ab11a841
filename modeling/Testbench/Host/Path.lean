import Testbench.Host.FileError

namespace Testbench

structure Path where
  absolute : Bool
  folder : List String
  name : String
  slash : Bool
  deriving DecidableEq, Repr

namespace Path

def nameLimit : Nat := 255

def lengthLimit : Nat := 4096

def hasNul (text : String) : Bool :=
  text.toList.contains '\x00'

def names (text : List Char) : List String :=
  ((text.splitOn '/').filter (· ≠ [])).map String.ofList

def ofText (text : List Char) : Path :=
  let names := names text
  { absolute := text.head? = some '/'
    folder := names.dropLast
    name := names.getLastD "."
    slash := text.getLast? = some '/' }

def ofString (text : String) : Except FileError Path :=
  if hasNul text then .error .nulInName
  else if text = "" then .error .notFound
  else if lengthLimit ≤ text.utf8ByteSize then .error .nameTooLong
  else .ok (ofText text.toList)

/-- What is walked through to look up the path; a slash at the end asks for a directory. -/
def parts (p : Path) : List String :=
  p.folder ++ p.name :: (if p.slash then ["."] else [])

end Path

end Testbench
