import Handheld.Cartridge.Controller

/-!
# Cartridge boards

The image, the external RAM and the controller between them and the bus. Only the RAM and the
controller's registers ever change.
-/
namespace Handheld

structure Board where
  rom : Bytes
  ram : Bytes
  controller : Controller
  deriving DecidableEq

namespace Board

/-- A board fresh from power-on, with `ramSize` zero bytes of RAM. -/
def fresh (rom : Bytes) (ramSize : Nat) (controller : Controller) : Board where
  rom := rom
  ram := Array.replicate ramSize 0
  controller := controller

def readRam (board : Board) (address : UInt16) : UInt8 :=
  match board.controller.window with
  | .closed => 0xff
  | .bank number => board.ram.read (Controller.ramCell board.ram.size number address)
  | .clock register => board.controller.readClock register

/-- Outside its two windows a board drives no line. -/
def read (board : Board) (address : UInt16) : UInt8 :=
  if address < 0x8000 then board.rom.read (board.controller.romCell board.rom.size address)
  else if 0xa000 ≤ address ∧ address < 0xc000 then board.readRam address
  else 0xff

/-- A write into the ROM window reaches the controller, never the image. -/
def control (board : Board) (address : UInt16) (value : UInt8) : Board :=
  { board with controller := board.controller.control address value }

def writeRam (board : Board) (address : UInt16) (value : UInt8) : Board :=
  match board.controller.window with
  | .closed => board
  | .bank number =>
    { board with ram := board.ram.write (Controller.ramCell board.ram.size number address) value }
  | .clock register => { board with controller := board.controller.writeClock register value }

/-- Sets one RAM byte directly, past the controller. -/
def setRam (board : Board) (cell : Nat) (value : UInt8) : Board :=
  { board with ram := board.ram.write cell value }

/-- Copies saved RAM in. Bytes past the end of the RAM are dropped, missing ones keep their value.
-/
def loadRam (board : Board) (saved : Bytes) : Board :=
  { board with
    ram := saved.extract 0 board.ram.size ++ board.ram.extract saved.size board.ram.size }

theorem size_ram_loadRam (board : Board) (saved : Bytes) :
    (board.loadRam saved).ram.size = board.ram.size := by
  simp only [loadRam, Array.size_append, Array.size_extract]
  omega

end Board

end Handheld
