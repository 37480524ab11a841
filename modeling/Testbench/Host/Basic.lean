import Testbench.Host.Files

namespace Testbench

structure Invocation where
  command : String
  arguments : List String
  input : String
  deriving DecidableEq, Repr

/-- A program that a signal stops has no exit code. -/
structure Completion where
  code : Option Nat
  stdout : String
  stderr : String
  written : List (String × Bytes)
  deriving Repr

abbrev Program := Invocation → Completion

structure Host where
  files : Files
  searchPath : List String
  program? : Location → Option Program

namespace Host

def programAt (host : Host) (path : String) : Except FileError Program := do
  let place ← host.files.locate path
  match host.files.node? place, host.program? place with
  | none, _ => .error .notFound
  | some _, none => .error .permissionDenied
  | some _, some program => .ok program

def inDirectory (directory command : String) : String :=
  if directory = "" then command else directory ++ "/" ++ command

/-- That a file is no program is told only when no later directory holds one. -/
def search (host : Host) (command : String) (absent : FileError) :
    List String → Except FileError Program
  | [] => .error absent
  | directory :: rest =>
      match host.programAt (inDirectory directory command) with
      | .error .notFound | .error .notADirectory => search host command absent rest
      | .error .permissionDenied => search host command .permissionDenied rest
      | result => result

def program (host : Host) (command : String) : Except FileError Program :=
  if command = "" then .error .notFound
  else if command.toList.contains '/' then host.programAt command
  else host.search command .notFound host.searchPath

def launch (host : Host) (call : Invocation) : Except FileError Completion :=
  if (call.command :: call.arguments).any Path.hasNul then .error .nulInArgument
  else (host.program call.command).map fun program => program call

def after (host : Host) (call : Invocation) : Host :=
  match host.launch call with
  | .ok done => { host with files := host.files.writeAll done.written }
  | .error _ => host

theorem sameSystem_after (host : Host) (call : Invocation) :
    (host.after call).files.SameSystem host.files := by
  rw [after]
  split
  · exact Files.sameSystem_writeAll ..
  · exact .refl host.files

def finds (host : Host) (command : String) : Bool :=
  (host.program command).isOk

end Host

end Testbench
