import Handheld.Block
import Handheld.Word

/-!
# Colour palettes

Eight palettes of four colours lie in 64 bytes of their own, reached through an index register and
a data register. A colour is a word of fifteen bits, low byte first.
-/
namespace Handheld

structure Palette where
  /-- The byte that the data register addresses. -/
  index : UInt8 := 0
  /-- Whether a write to the data register moves on to the next byte. -/
  autoIncrement : Bool := false
  bytes : Block 64 := .filled 64 0
  deriving DecidableEq, Repr

namespace Palette

/-- Bit 6 of the index register does not exist and reads as one. -/
def readIndex (palette : Palette) : UInt8 :=
  (if palette.autoIncrement then 0x80 else 0) ||| 0x40 ||| palette.index

def writeIndex (palette : Palette) (value : UInt8) : Palette :=
  { palette with index := value &&& 0x3f, autoIncrement := value &&& 0x80 != 0 }

def readData (palette : Palette) : UInt8 := palette.bytes.read palette.index.toNat

/-- The index wraps from the last byte to the first. -/
def writeData (palette : Palette) (value : UInt8) : Palette :=
  { palette with
    bytes := palette.bytes.write palette.index.toNat value
    index := if palette.autoIncrement then (palette.index + 1) &&& 0x3f else palette.index }

/-- Colour `color` of palette number `number`; both wrap. -/
def color (palette : Palette) (number color : Nat) : UInt16 :=
  let first := number % 8 * 8 + color % 4 * 2
  word (palette.bytes.read (first + 1)) (palette.bytes.read first)

end Palette

end Handheld
