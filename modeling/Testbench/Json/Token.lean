import Testbench.Numeral
import Testbench.Text.Utf8

namespace Testbench.Json

inductive Fault where
  | malformed
  | mismatched
  | truncated
  deriving DecidableEq, Repr

def Fault.message : Fault → String
  | .malformed => "malformed text"
  | .mismatched => "unexpected value"
  | .truncated => "unexpected end of text"

inductive NumberPart where
  | sign
  | zero
  | whole
  | point
  | fraction
  | mark
  | markSign
  | exponent
  deriving DecidableEq, Repr

/-- A number that is being read. It stands for `significand * 10 ^ (scale ± exponent)`; digits that
no longer fit in 64 bits are dropped, in the whole part by counting them in `scale`. -/
structure Number where
  part : NumberPart
  negative : Bool
  significand : Nat
  scale : Int
  full : Bool
  wide : Bool
  small : Bool
  exponent : Nat
  deriving DecidableEq, Repr

namespace Number

def digit? (b : UInt8) : Option Nat :=
  if 0x30 ≤ b ∧ b ≤ 0x39 then some (b.toNat - 0x30) else none

def negated : Number :=
  ⟨.sign, true, 0, 0, false, false, false, 0⟩

def ofDigit (negative : Bool) (d : Nat) : Number :=
  ⟨if d = 0 then .zero else .whole, negative, d, 0, false, false, false, 0⟩

def fits (n : Number) (d : Nat) : Bool :=
  !n.full && n.significand * 10 + d < UInt64.size

def wholeDigit (n : Number) (d : Nat) : Number :=
  if n.fits d then { n with significand := n.significand * 10 + d }
  else { n with scale := n.scale + 1, full := true, wide := true }

def fractionDigit (n : Number) (d : Nat) : Number :=
  if n.fits d then
    { n with part := .fraction, significand := n.significand * 10 + d, scale := n.scale - 1 }
  else { n with part := .fraction, full := true }

/-- An exponent that reaches this is not told from larger ones. -/
def exponentLimit : Nat := 0x80000000

def exponentDigit (n : Number) (d : Nat) : Number :=
  { n with part := .exponent, exponent := min (n.exponent * 10 + d) exponentLimit }

def step (n : Number) (b : UInt8) : Except Fault (Option Number) :=
  let pointOrMark : Option Number :=
    if b = 0x2E then some { n with part := .point, full := false }
    else if b = 0x65 ∨ b = 0x45 then some { n with part := .mark }
    else none
  match n.part, digit? b with
  | .sign, some d => .ok (some (ofDigit n.negative d))
  | .sign, none => .error .malformed
  | .zero, some _ => .error .malformed
  | .zero, none => .ok pointOrMark
  | .whole, some d => .ok (some (n.wholeDigit d))
  | .whole, none => .ok pointOrMark
  | .point, some d => .ok (some (n.fractionDigit d))
  | .point, none => .error .malformed
  | .fraction, some d => .ok (some (n.fractionDigit d))
  | .fraction, none => .ok (if b = 0x2E then none else pointOrMark)
  | .mark, some d => .ok (some (n.exponentDigit d))
  | .mark, none =>
      if b = 0x2B then .ok (some { n with part := .markSign })
      else if b = 0x2D then .ok (some { n with part := .markSign, small := true })
      else .error .malformed
  | .markSign, some d => .ok (some (n.exponentDigit d))
  | .markSign, none => .error .malformed
  | .exponent, some d => .ok (some (n.exponentDigit d))
  | .exponent, none => .ok none

def isComplete (n : Number) : Bool :=
  n.part = .zero || n.part = .whole || n.part = .fraction || n.part = .exponent

def natural? (n : Number) : Option Nat :=
  if (n.part = .zero ∨ n.part = .whole) ∧ ¬ n.negative ∧ ¬ n.wide then some n.significand else none

/-- The nearest number of at most 53 significant bits; ties go to the even one. -/
def round53 (n : Nat) : Nat :=
  let unit := 1 <<< (n.log2 - 52)
  let low := n / unit
  let rest := n % unit
  if unit < 2 * rest ∨ (unit = 2 * rest ∧ low % 2 = 1) then (low + 1) * unit else low * unit

/-- No binary floating point number of 64 bits comes near the product of the rounded significand and
the rounded power of ten. -/
def isOutOfRange (n : Number) : Bool :=
  let power : Int := if n.small then n.scale - n.exponent else n.scale + n.exponent
  n.significand ≠ 0 && 0 ≤ power &&
    (309 ≤ power ||
      (1 <<< 1024) - (1 <<< 970) ≤ round53 n.significand * round53 (Nat.pow 10 power.toNat))

end Number

def isControl (c : Char) : Bool :=
  c.toNat < 0x20

def escaped (c : Char) : List Char :=
  match c with
  | '"' => ['\\', '"']
  | '\\' => ['\\', '\\']
  | '\x08' => ['\\', 'b']
  | '\x0c' => ['\\', 'f']
  | '\n' => ['\\', 'n']
  | '\r' => ['\\', 'r']
  | '\t' => ['\\', 't']
  | c => if isControl c then '\\' :: 'u' :: Numeral.hexPadded 4 c.toNat else [c]

def quoted (s : List Char) : List Char :=
  '"' :: s.flatMap escaped ++ ['"']

/-- A high surrogate is kept until its partner is read. -/
inductive Escape where
  | outside
  | opened
  | digits (read : List Char) (high : Option Nat)
  | expectsBackslash (high : Nat)
  | expectsLetter (high : Nat)
  deriving DecidableEq, Repr

/-- `content` holds the bytes so far, the last one first. -/
structure Quoted where
  content : List UInt8
  escape : Escape
  deriving DecidableEq, Repr

namespace Quoted

def start : Quoted :=
  ⟨[], .outside⟩

def push (q : Quoted) (c : Char) : Quoted :=
  ⟨(String.utf8EncodeChar c).reverse ++ q.content, .outside⟩

inductive Progress where
  | more (q : Quoted)
  | closed (content : List UInt8)
  deriving DecidableEq, Repr

def isHighSurrogate (n : Nat) : Bool :=
  0xD800 ≤ n ∧ n ≤ 0xDBFF

def isLowSurrogate (n : Nat) : Bool :=
  0xDC00 ≤ n ∧ n ≤ 0xDFFF

def codeUnit (skip : Bool) (q : Quoted) (high : Option Nat) (n : Nat) : Except Fault Quoted :=
  if skip then .ok { q with escape := .outside }
  else
    match high with
    | some h =>
        if isLowSurrogate n then
          .ok (q.push (.ofNat (0x10000 + (h - 0xD800) * 0x400 + (n - 0xDC00))))
        else .error .malformed
    | none =>
        if isLowSurrogate n then .error .malformed
        else if isHighSurrogate n then .ok { q with escape := .expectsBackslash n }
        else .ok (q.push (.ofNat n))

def unescape (q : Quoted) (c : Char) : Except Fault Quoted :=
  match c with
  | '"' => .ok (q.push '"')
  | '\\' => .ok (q.push '\\')
  | '/' => .ok (q.push '/')
  | 'b' => .ok (q.push '\x08')
  | 'f' => .ok (q.push '\x0c')
  | 'n' => .ok (q.push '\n')
  | 'r' => .ok (q.push '\r')
  | 't' => .ok (q.push '\t')
  | 'u' => .ok { q with escape := .digits [] none }
  | _ => .error .malformed

def digit (skip : Bool) (q : Quoted) (read : List Char) (high : Option Nat) (c : Char) :
    Except Fault Quoted :=
  if read.length < 3 then .ok { q with escape := .digits (read ++ [c]) high }
  else
    match Numeral.value? 16 0 (read ++ [c]) with
    | some n => codeUnit skip q high n
    | none => .error .malformed

def step (skip : Bool) (q : Quoted) (b : UInt8) : Except Fault Progress :=
  let c := Char.ofUInt8 b
  match q.escape with
  | .outside =>
      if c = '"' then .ok (.closed q.content.reverse)
      else if c = '\\' then .ok (.more { q with escape := .opened })
      else if isControl c then .error .malformed
      else .ok (.more { q with content := b :: q.content })
  | .opened => (unescape q c).map .more
  | .digits read high => (digit skip q read high c).map .more
  | .expectsBackslash high =>
      if c = '\\' then .ok (.more { q with escape := .expectsLetter high }) else .error .malformed
  | .expectsLetter high =>
      if c = 'u' then .ok (.more { q with escape := .digits [] (some high) })
      else .error .malformed

end Quoted

end Testbench.Json
