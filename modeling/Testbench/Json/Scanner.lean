import Testbench.Json.Token

namespace Testbench.Json

inductive Bracket where
  | array
  | object
  deriving DecidableEq, Repr

inductive Phase where
  | value
  | firstItem
  | firstKey
  | key
  | colon
  | next
  | done
  deriving DecidableEq, Repr

inductive Token where
  | none
  | text (isKey : Bool) (q : Quoted)
  | number (n : Number)
  | word (rest : List Char)
  deriving DecidableEq, Repr

inductive Scalar where
  | text (s : String)
  | natural (n : Nat)
  | other
  deriving DecidableEq, Repr

inductive Event where
  | opened (b : Bracket)
  | closed
  | separator
  | key (s : String)
  | scalar (v : Scalar)
  deriving DecidableEq, Repr

structure Scanner where
  stack : List Bracket
  phase : Phase
  token : Token
  deriving DecidableEq, Repr

namespace Scanner

def start : Scanner :=
  ⟨[], .value, .none⟩

def depthLimit : Nat := 128

def isBlank (c : Char) : Bool :=
  c = ' ' || c = '\n' || c = '\t' || c = '\r'

def afterValue (stack : List Bracket) : Scanner :=
  ⟨stack, if stack = [] then .done else .next, .none⟩

def openBracket (skip : Bool) (s : Scanner) (b : Bracket) : Except Fault (Scanner × List Event) :=
  if ¬ skip ∧ depthLimit ≤ s.stack.length + 1 then .error .malformed
  else
    let phase := match b with
      | .array => Phase.firstItem
      | .object => Phase.firstKey
    .ok (⟨b :: s.stack, phase, .none⟩, [.opened b])

def closeBracket (s : Scanner) (b : Bracket) : Except Fault (Scanner × List Event) :=
  match s.stack with
  | top :: stack => if top = b then .ok (afterValue stack, [.closed]) else .error .malformed
  | [] => .error .malformed

def openToken (s : Scanner) (t : Token) : Except Fault (Scanner × List Event) :=
  .ok ({ s with token := t }, [])

def openValue (skip : Bool) (s : Scanner) (c : Char) : Except Fault (Scanner × List Event) :=
  match c with
  | '[' => s.openBracket skip .array
  | '{' => s.openBracket skip .object
  | '"' => s.openToken (.text false .start)
  | '-' => s.openToken (.number .negated)
  | 'n' => s.openToken (.word ['u', 'l', 'l'])
  | 't' => s.openToken (.word ['r', 'u', 'e'])
  | 'f' => s.openToken (.word ['a', 'l', 's', 'e'])
  | c =>
      if c.isDigit then s.openToken (.number (.ofDigit false (c.toNat - '0'.toNat)))
      else .error .malformed

def openKey (s : Scanner) (c : Char) : Except Fault (Scanner × List Event) :=
  if c = '"' then s.openToken (.text true .start) else .error .malformed

def proceed (s : Scanner) (c : Char) : Except Fault (Scanner × List Event) :=
  match c, s.stack with
  | ',', .array :: _ => .ok ({ s with phase := .value }, [.separator])
  | ',', .object :: _ => .ok ({ s with phase := .key }, [.separator])
  | ']', _ => s.closeBracket .array
  | '}', _ => s.closeBracket .object
  | _, _ => .error .malformed

def between (skip : Bool) (s : Scanner) (c : Char) : Except Fault (Scanner × List Event) :=
  if isBlank c then .ok (s, [])
  else
    match s.phase with
    | .value => s.openValue skip c
    | .firstItem => if c = ']' then s.closeBracket .array else s.openValue skip c
    | .firstKey => if c = '}' then s.closeBracket .object else s.openKey c
    | .key => s.openKey c
    | .colon => if c = ':' then .ok ({ s with phase := .value }, []) else .error .malformed
    | .next => s.proceed c
    | .done => .error .malformed

def textOf (skip : Bool) (content : List UInt8) : Except Fault String :=
  if skip then .ok ""
  else
    match Text.Utf8.decode? content with
    | some s => .ok s
    | none => .error .malformed

def closeText (skip : Bool) (s : Scanner) (isKey : Bool) (content : List UInt8) :
    Except Fault (Scanner × List Event) := do
  let text ← textOf skip content
  if isKey then return ({ s with phase := .colon, token := .none }, [.key text])
  else return (afterValue s.stack, [.scalar (.text text)])

def numberOf (skip : Bool) (n : Number) : Except Fault Scalar :=
  match n.natural? with
  | some value => .ok (.natural value)
  | none => if ¬ skip ∧ n.isOutOfRange then .error .malformed else .ok .other

def wordStep (s : Scanner) (rest : List Char) (c : Char) : Except Fault (Scanner × List Event) :=
  match rest with
  | expected :: rest =>
      if c ≠ expected then .error .malformed
      else if rest = [] then .ok (afterValue s.stack, [.scalar .other])
      else .ok ({ s with token := .word rest }, [])
  | [] => .error .malformed

/-- A number ends before the first byte that does not belong to it. -/
def settle (skip : Bool) (s : Scanner) (b : UInt8) : Except Fault (Scanner × List Event) :=
  match s.token with
  | .number n => do
      match ← n.step b with
      | some _ => return (s, [])
      | none => return (afterValue s.stack, [.scalar (← numberOf skip n)])
  | _ => .ok (s, [])

def step (skip : Bool) (s : Scanner) (b : UInt8) : Except Fault (Scanner × List Event) :=
  match s.token with
  | .none => s.between skip (.ofUInt8 b)
  | .text isKey q => do
      match ← q.step skip b with
      | .more q => return ({ s with token := .text isKey q }, [])
      | .closed content => s.closeText skip isKey content
  | .word rest => s.wordStep rest (.ofUInt8 b)
  | .number n => do
      match ← n.step b with
      | some n => return ({ s with token := .number n }, [])
      | none => .error .malformed

def finish (skip : Bool) (s : Scanner) : Except Fault (List Event) :=
  match s.token with
  | .none => .ok []
  | .number n =>
      if n.isComplete then (numberOf skip n).map fun value => [.scalar value]
      else .error (if skip then .malformed else .truncated)
  | _ => .error .truncated

end Scanner

end Testbench.Json
