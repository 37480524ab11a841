import Testbench.Image.Basic
import Testbench.Text.Utf8

namespace Testbench

/-- A line of a memory image in text: a marker sets the position of the next word, a word is stored
at the position and moves it on by one. -/
inductive HexLine where
  | marker (address : Nat)
  | word (value : UInt32)
  deriving DecidableEq, Repr

def HexLine.text : HexLine → List Char
  | .marker address => '@' :: Numeral.hex address
  | .word value => Numeral.hexPadded 8 value.toNat

namespace Image

def hexLinesFrom : Nat → List Block → List HexLine
  | _, [] => []
  | cursor, b :: bs =>
      if b.words.length = 0 then hexLinesFrom cursor bs
      else
        (if b.wordAddress = cursor then [] else [.marker b.wordAddress]) ++
          b.words.toList.map .word ++ hexLinesFrom b.endWord bs

def hexLines (image : Image) : List HexLine :=
  hexLinesFrom 0 image.blocks

def hexText (image : Image) : List Char :=
  image.hexLines.flatMap fun line => line.text ++ ['\n']

def overflow? (image : Image) (maxWords : Nat) : Option Block :=
  image.blocks.find? fun b => b.words.length ≠ 0 ∧ maxWords < b.endWord

def checkCapacity (image : Image) (maxWords : Nat) : Except Failure Unit :=
  match image.overflow? maxWords with
  | some b => .error (.capacityExceeded b.name b.endWord maxWords)
  | none => .ok ()

def writeHexFile (host : Host) (config : LoadConfig) (file output : String) (maxWords : Nat) :
    Files × Except Failure Image :=
  let files := (config.source.after host file).files
  match load host config file with
  | .error e => (files, .error (.binary e))
  | .ok image =>
      match image.checkCapacity maxWords with
      | .error e => (files, .error e)
      | .ok () =>
          match files.write output (Text.Utf8.encode image.hexText).toArray with
          | .error e => (files, .error (.access e))
          | .ok files => (files, .ok image)

end Image

end Testbench
