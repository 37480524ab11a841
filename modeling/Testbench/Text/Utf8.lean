namespace Testbench.Text.Utf8

def encode (s : List Char) : List UInt8 :=
  s.flatMap String.utf8EncodeChar

def replacement : Char := '\uFFFD'

abbrev Range := UInt8 × UInt8

def continuation : Range := (0x80, 0xBF)

/-- How far a character has been read: `within` holds its bits so far, the range of its next byte
and the ranges of those after it. -/
inductive Progress where
  | between
  | within (bits : Nat) (next : Range) (later : List Range)

inductive Lead where
  | whole (c : Char)
  | opens (bits : Nat) (next : Range) (later : List Range)
  | stray
  deriving DecidableEq, Repr

def Lead.ofByte (b : UInt8) : Lead :=
  if b < 0x80 then .whole (.ofNat b.toNat)
  else if b < 0xC2 then .stray
  else if b < 0xE0 then .opens (b.toNat % 32) continuation []
  else if b = 0xE0 then .opens 0 (0xA0, 0xBF) [continuation]
  else if b = 0xED then .opens 13 (0x80, 0x9F) [continuation]
  else if b < 0xF0 then .opens (b.toNat % 16) continuation [continuation]
  else if b = 0xF0 then .opens 0 (0x90, 0xBF) [continuation, continuation]
  else if b < 0xF4 then .opens (b.toNat % 8) continuation [continuation, continuation]
  else if b = 0xF4 then .opens 4 (0x80, 0x8F) [continuation, continuation]
  else .stray

def start (b : UInt8) : List Char × Progress :=
  match Lead.ofByte b with
  | .whole c => ([c], .between)
  | .opens bits next later => ([], .within bits next later)
  | .stray => ([replacement], .between)

def step : Progress → UInt8 → List Char × Progress
  | .between, b => start b
  | .within bits (low, high) later, b =>
      if low ≤ b ∧ b ≤ high then
        match later with
        | [] => ([.ofNat (bits * 64 + b.toNat % 64)], .between)
        | next :: later => ([], .within (bits * 64 + b.toNat % 64) next later)
      else (replacement :: (start b).1, (start b).2)

def decodeFrom : Progress → List UInt8 → List Char
  | .between, [] => []
  | .within .., [] => [replacement]
  | progress, b :: bs => (step progress b).1 ++ decodeFrom (step progress b).2 bs

/-- Each longest start of a character that breaks off becomes one replacement character. -/
def decodeLossy (bs : List UInt8) : List Char :=
  decodeFrom .between bs

def decode? (bs : List UInt8) : Option String :=
  String.fromUTF8? ⟨bs.toArray⟩

theorem bytes_encode (s : List Char) : (⟨(encode s).toArray⟩ : ByteArray) = s.utf8Encode := by
  ext1
  simp [List.utf8Encode, encode]

theorem decode?_encode (s : String) : decode? (encode s.toList) = some s := by
  rw [decode?, bytes_encode, String.utf8Encode_toList, String.fromUTF8?, dif_pos s.isValidUTF8]
  rfl

end Testbench.Text.Utf8
