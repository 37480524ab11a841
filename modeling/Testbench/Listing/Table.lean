import Testbench.Numeral
import Testbench.Section.Table
import Testbench.Text.Blank

namespace Testbench

namespace Text

def dropReturn (line : List Char) : List Char :=
  if line.getLast? = some '\r' then line.dropLast else line

def endLines : List (List Char) → List (List Char)
  | [] => []
  | [last] => [last]
  | line :: next :: rest => dropReturn line :: endLines (next :: rest)

def lines (s : List Char) : List (List Char) :=
  endLines (s.splitOn '\n')

end Text

namespace Listing

/-- Blanks at the end of a line stand before a last column without text. -/
structure Column where
  blanks : Nat
  text : List Char
  deriving DecidableEq, Repr

def columns : Nat → List Char → List Column
  | 0, _ => []
  | _ + 1, [] => []
  | count + 1, s =>
      let word := s.dropWhile Text.isBlank
      ⟨(s.takeWhile Text.isBlank).length, word.takeWhile (!Text.isBlank ·)⟩ ::
        columns count (word.dropWhile (!Text.isBlank ·))

structure Row where
  index : List Char
  name : List Char
  kind : List Char
  address : List Char
  offset : List Char
  size : List Char
  entrySize : List Char
  deriving DecidableEq, Repr

def isName : List Char → Bool
  | '.' :: _ :: _ => true
  | _ => false

def isHex (text : List Char) : Bool :=
  text ≠ [] && text.all fun c => (Numeral.digitValue? 16 c).isSome

def Row.full? (index : List Char) : List Column → Option Row
  | name :: kind :: address :: offset :: size :: entrySize :: _ =>
      if isHex address.text && isHex offset.text && isHex size.text then
        some ⟨index, name.text, kind.text, address.text, offset.text, size.text, entrySize.text⟩
      else none
  | _ => none

def Row.withoutKind? (index : List Char) : List Column → Option Row
  | name :: address :: offset :: size :: entrySize :: _ =>
      if 1 < address.blanks && isHex address.text && isHex offset.text && isHex size.text then
        some ⟨index, name.text, [], address.text, offset.text, size.text, entrySize.text⟩
      else none
  | _ => none

def Row.ofColumns? (index : List Char) : List Column → Option Row
  | name :: rest =>
      if isName name.text then
        (full? index (name :: rest)).or (withoutKind? index (name :: rest))
      else none
  | [] => none

def bracketed? : List Char → Option (List Char × List Char)
  | '[' :: s =>
      let s := s.dropWhile Text.isBlank
      match s.takeWhile Text.isDigit, s.dropWhile Text.isDigit with
      | c :: digits, ']' :: rest => some (c :: digits, rest)
      | _, _ => none
  | _ => none

def Row.atStart? (s : List Char) : Option Row :=
  match bracketed? s with
  | some (index, c :: rest) =>
      if Text.isBlank c then ofColumns? index (columns 6 (c :: rest)) else none
  | _ => none

def Row.ofLine? : List Char → Option Row
  | [] => none
  | c :: s =>
      match Row.atStart? (c :: s) with
      | some row => some row
      | none => Row.ofLine? s

def Row.section? (row : Row) : Option Section := do
  return {
    index := ← Numeral.below? UInt64.size 10 row.index
    name := .ofList row.name
    kind := .ofList row.kind
    address := ← Numeral.below? UInt64.size 16 row.address
    offset := ← Numeral.below? UInt64.size 16 row.offset
    size := ← Numeral.below? UInt64.size 16 row.size
    entrySize := ← Numeral.below? UInt64.size 16 row.entrySize }

def sections (text : List Char) : List Section :=
  (Text.lines text).filterMap fun line => (Row.ofLine? line).bind Row.section?

def table (text : String) : SectionTable :=
  .ofList (sections text.toList)

end Listing

end Testbench
