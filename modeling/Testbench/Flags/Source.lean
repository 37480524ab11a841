import Testbench.Flags.Comment
import Testbench.Flags.Declaration
import Testbench.Flags.Literal
import Testbench.Flags.Table
import Testbench.Host.Files
import Testbench.Text.Utf8

namespace Testbench.Flags

structure Member where
  name : List Char
  literal : Option (List Char)
  deriving DecidableEq, Repr

def Member.ofText (text : List Char) : Member :=
  match text.dropWhile (· ≠ '=') with
  | [] => ⟨text, none⟩
  | _ :: literal => ⟨Text.trim (text.takeWhile (· ≠ '=')), some (Text.trim literal)⟩

def members (body : List Char) : List Member :=
  (((body.splitOn ',').map Text.trim).filter (· ≠ [])).map Member.ofText

def isIdentifier : List Char → Bool
  | [] => false
  | c :: s => (c.isAlpha || c = '_') && s.all Text.isWord

def Member.value (m : Member) (next : UInt32) : Except TraceError UInt32 :=
  match m.literal with
  | none => .ok next
  | some literal =>
      match literal? literal with
      | some value => .ok value
      | none => .error (.invalidEnumValue (.ofList m.name) (.ofList literal))

def entriesFrom (next : UInt32) : List Member → Except TraceError (List (String × UInt32))
  | [] => .ok []
  | m :: ms => do
      let value ← m.value next
      if isIdentifier m.name then
        let entries ← entriesFrom (value + 1) ms
        return (.ofList m.name, value) :: entries
      else entriesFrom next ms

end Testbench.Flags

namespace Testbench.FlagTable

def ofSource (source : String) (name : String) : Except TraceError FlagTable :=
  match (Flags.declarations (Flags.withoutComments source.toList)).find? (·.name = name.toList) with
  | none => .error (.enumNotFound name)
  | some d => (Flags.entriesFrom 0 (Flags.members d.body)).map fun entries => ⟨name, entries⟩

def ofFile (files : Files) (file name : String) : Except TraceError FlagTable :=
  match files.read file with
  | .error cause => .error (.access cause)
  | .ok data =>
      match Text.Utf8.decode? data.toList with
      | none => .error (.access .invalidText)
      | some source => ofSource source name

def statusName : String := "cycle_status_e"

end Testbench.FlagTable
