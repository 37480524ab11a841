import Testbench.CommandLine.Value

namespace Testbench.CommandLine

inductive Halt where
  | usage
  | version
  | help
  deriving DecidableEq, Repr

inductive OptionKind where
  | flag
  | value (kind : ValueKind)
  | list (kind : ValueKind)
  | halt (h : Halt)
  deriving DecidableEq, Repr

structure OptionSpec where
  name : String
  short : Option Char
  kind : OptionKind
  deriving DecidableEq, Repr

def OptionSpec.takesValue (o : OptionSpec) : Bool :=
  match o.kind with
  | .value _ | .list _ => true
  | .flag | .halt _ => false

/-- What one command accepts. -/
structure Level where
  options : List OptionSpec
  arguments : List ValueKind
  commands : List String
  deriving DecidableEq, Repr

structure Given where
  flags : List String
  values : List (String × Value)
  arguments : List Value
  command : Option (String × List String)
  deriving DecidableEq, Repr

namespace Given

def empty : Given :=
  ⟨[], [], [], none⟩

def has (g : Given) (name : String) : Bool :=
  g.flags.contains name || (g.values.lookup name).isSome

def addFlag (g : Given) (name : String) : Except Halt Given :=
  if g.has name then .error .usage else .ok { g with flags := g.flags ++ [name] }

def addValue (g : Given) (name : String) (kind : ValueKind) (text : String) : Except Halt Given :=
  match kind.read? text with
  | some value => .ok { g with values := g.values ++ [(name, value)] }
  | none => .error .usage

def add (g : Given) (o : OptionSpec) (text : String) : Except Halt Given :=
  match o.kind with
  | .halt h => .error h
  | .flag => g.addFlag o.name
  | .list kind => g.addValue o.name kind text
  | .value kind => if g.has o.name then .error .usage else g.addValue o.name kind text

def addArgument (g : Given) (kind : ValueKind) (text : String) : Except Halt Given :=
  match kind.read? text with
  | some value => .ok { g with arguments := g.arguments ++ [value] }
  | none => .error .usage

end Given

inductive Form where
  | operand
  | escape
  | long (name : String) (value : Option String)
  | short (letters : List Char)
  deriving DecidableEq, Repr

def Form.ofLong (text : List Char) : Form :=
  let name := String.ofList (text.takeWhile (· ≠ '='))
  match text.dropWhile (· ≠ '=') with
  | [] => .long name none
  | _ :: value => .long name (some (.ofList value))

def Form.of (arg : String) : Form :=
  match arg.toList with
  | ['-', '-'] => .escape
  | '-' :: '-' :: text => .ofLong text
  | '-' :: c :: rest => .short (c :: rest)
  | _ => .operand

namespace Level

def operand (l : Level) (g : Given) (arg : String) : Except Halt Given :=
  match l.arguments[g.arguments.length]? with
  | some kind => g.addArgument kind arg
  | none => .error .usage

def long (l : Level) (g : Given) (name : String) (value : Option String) :
    Except Halt (Option OptionSpec × Given) :=
  match l.options.find? (·.name = name) with
  | none => .error .usage
  | some o =>
      match o.takesValue, value with
      | true, some v => (g.add o v).map (none, ·)
      | true, none => .ok (some o, g)
      | false, some _ => .error .usage
      | false, none => (g.add o "").map (none, ·)

def dropEquals : List Char → List Char
  | '=' :: s => s
  | s => s

def shorts (l : Level) (g : Given) : List Char → Except Halt (Option OptionSpec × Given)
  | [] => .ok (none, g)
  | c :: rest =>
      match l.options.find? (·.short = some c) with
      | none => .error .usage
      | some o =>
          if o.takesValue then
            if rest = [] then .ok (some o, g)
            else (g.add o (.ofList (dropEquals rest))).map (none, ·)
          else do l.shorts (← g.add o "") rest

def scan (l : Level) : Option OptionSpec → Given → List String → Except Halt Given
  | none, g, [] => .ok g
  | some _, _, [] => .error .usage
  | some o, g, arg :: rest =>
      if Form.of arg = .operand then do l.scan none (← g.add o arg) rest else .error .usage
  | none, g, arg :: rest =>
      match Form.of arg with
      | .escape => rest.foldlM l.operand g
      | .operand =>
          if l.commands.contains arg then .ok { g with command := some (arg, rest) }
          else do l.scan none (← l.operand g arg) rest
      | .long name value => do
          let (waiting, g) ← l.long g name value
          l.scan waiting g rest
      | .short letters => do
          let (waiting, g) ← l.shorts g letters
          l.scan waiting g rest

end Level

end Testbench.CommandLine
