import Handheld.Block
import Handheld.Text.Blank

/-!
# Cartridge headers

Bytes 0x134 to 0x149 of an image name the game and describe the board. An image too short to hold
a header is refused.
-/
namespace Handheld

/-- Which machines a cartridge is made for: monochrome, both, colour alone. -/
inductive ColorSupport where
  | none | dual | only
  deriving DecidableEq, Repr

structure Header where
  title : String
  color : ColorSupport
  /-- Which board, with or without RAM and battery. -/
  boardCode : UInt8
  ramCode : UInt8
  deriving DecidableEq, Repr

namespace Header

/-- The smallest image that holds a whole header. -/
def leastSize : Nat := 0x150

/-- Up to fifteen characters, ended by a zero byte, without the blanks around them. -/
def titleOf (image : Bytes) : String :=
  let field := (image.extract 0x134 0x143).toList.takeWhile (· != 0)
  String.ofList (Text.trim (field.map fun byte => Char.ofNat byte.toNat))

def colorOf (code : UInt8) : ColorSupport :=
  if code = 0x80 then .dual else if code = 0xc0 then .only else .none

/-- The header of an image, if the image is large enough to hold one. -/
def ofImage? (image : Bytes) : Option Header :=
  if image.size < leastSize then none
  else some
    { title := titleOf image
      color := colorOf (image.read 0x143)
      boardCode := image.read 0x147
      ramCode := image.read 0x149 }

/-- Whether a battery keeps the external RAM. -/
def battery (header : Header) : Bool :=
  [0x03, 0x09, 0x0f, 0x10, 0x13, 0x1b, 0x1e].contains header.boardCode

/-- Bytes of external RAM, for the codes in use. -/
def knownRamSize? (header : Header) : Option Nat :=
  match header.ramCode with
  | 0 => some 0
  | 1 => some 0x800
  | 2 => some 0x2000
  | 3 => some 0x8000
  | 4 => some 0x20000
  | 5 => some 0x10000
  | _ => none

/-- A cartridge with an unknown code is taken to have no RAM. -/
def ramSize (header : Header) : Nat := header.knownRamSize?.getD 0

end Header

end Handheld
