import Handheld.Cartridge.Board
import Handheld.Cartridge.Header
import Handheld.Text.Hexadecimal

/-!
# Cartridges

A cartridge is a board with the header that describes it. Loading an image fails for two reasons
only: there is no room for a header, or the header names a board that is not known.
-/
namespace Handheld

inductive LoadError where
  | shortImage (size : Nat)
  | unknownBoard (code : UInt8)
  deriving DecidableEq, Repr

def LoadError.message : LoadError → String
  | shortImage size =>
    "malformed rom: image is " ++ toString size ++ " bytes, header needs at least " ++
      toString Header.leastSize
  | unknownBoard code => "unsupported cartridge type 0x" ++ Text.hexByte code

structure Cartridge where
  header : Header
  board : Board
  deriving DecidableEq

namespace Cartridge

/-- Places an image on the board that its header names. -/
def assemble (header : Header) (image : Bytes) : Except LoadError Cartridge :=
  match Controller.ofCode? header.boardCode with
  | some controller => .ok { header, board := .fresh image header.ramSize controller }
  | none => .error (.unknownBoard header.boardCode)

def load (image : Bytes) : Except LoadError Cartridge :=
  match Header.ofImage? image with
  | some header => assemble header image
  | none => .error (.shortImage image.size)

def loadRam (cartridge : Cartridge) (saved : Bytes) : Cartridge :=
  { cartridge with board := cartridge.board.loadRam saved }

end Cartridge

end Handheld
