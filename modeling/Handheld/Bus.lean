import Handheld.Block
import Handheld.Cartridge
import Handheld.Interrupts
import Handheld.Joypad
import Handheld.Palette
import Handheld.Timer

/-!
# The bus: what the machine remembers

Everything the processor can reach by an address, and the state of the engines behind the I/O
registers. The I/O page holds what was stored last; a register with a device of its own keeps its
state there.
-/
namespace Handheld

structure Bus where
  cartridge : Cartridge
  /-- Whether the colour registers answer. -/
  color : Bool
  /-- Two banks of 0x2000 bytes. -/
  videoRam : Block 0x4000 := .filled _ 0
  videoBank : UInt8 := 0
  /-- Eight banks of 0x1000 bytes; bank 0 is always mapped. -/
  workRam : Block 0x8000 := .filled _ 0
  workBank : UInt8 := 1
  objectRam : Block 0xa0 := .filled _ 0
  io : Block 0x80 := .filled _ 0
  highRam : Block 0x7f := .filled _ 0
  joypad : Joypad := {}
  /-- Bytes shifted out over the serial line so far. -/
  sent : Array UInt8 := #[]
  doubleSpeed : Bool := false
  speedArmed : Bool := false
  /-- Whether a copy of one block per line is in progress. Its register counts the blocks left,
  less one. -/
  copyActive : Bool := false
  background : Palette := {}
  objects : Palette := {}
  timer : Timer := {}
  interrupts : Interrupts := {}
  deriving DecidableEq

namespace Bus

/-! Cells of the I/O page that more than one device looks at. -/

abbrev serialData : Nat := 0x01
abbrev serialControl : Nat := 0x02
abbrev lcdControl : Nat := 0x40
abbrev lcdStatus : Nat := 0x41
abbrev line : Nat := 0x44
abbrev lineCompare : Nat := 0x45
abbrev objectSource : Nat := 0x46
abbrev copySourceHigh : Nat := 0x51
abbrev copySourceLow : Nat := 0x52
abbrev copyTargetHigh : Nat := 0x53
abbrev copyTargetLow : Nat := 0x54
abbrev copyControl : Nat := 0x55

def setIo (bus : Bus) (cell : Nat) (value : UInt8) : Bus :=
  { bus with io := bus.io.write cell value }

def request (bus : Bus) (source : Interrupt) : Bus :=
  { bus with interrupts := bus.interrupts.request source }

def requestMask (bus : Bus) (mask : UInt8) : Bus :=
  { bus with interrupts := bus.interrupts.requestMask mask }

/-- Cell of video RAM behind an address, in the current bank. -/
def videoCell (bus : Bus) (address : UInt16) : Nat :=
  let offset : UInt16 := address &&& 0x1fff
  bus.videoBank.toNat * 0x2000 + offset.toNat

/-- Cell of work RAM behind an address of the switchable half. -/
def workCell (bus : Bus) (address : UInt16) : Nat :=
  let offset : UInt16 := address &&& 0x0fff
  bus.workBank.toNat * 0x1000 + offset.toNat

def writeVideo (bus : Bus) (address : UInt16) (value : UInt8) : Bus :=
  { bus with videoRam := bus.videoRam.write (bus.videoCell address) value }

/-- Lets `clocks` clocks pass for the timer. -/
def tick (bus : Bus) (clocks : Nat) : Bus :=
  match bus.timer.tick clocks with
  | (true, timer) => { bus with timer, interrupts := bus.interrupts.request .timer }
  | (false, timer) => { bus with timer }

/-- Changes speed if a colour machine was prepared for it. The flag tells whether it was. -/
def switchSpeed (bus : Bus) : Bool × Bus :=
  if bus.color && bus.speedArmed then
    (true, { bus with
      speedArmed := false, doubleSpeed := !bus.doubleSpeed, timer := bus.timer.resetDivider })
  else
    (false, bus)

/-- A key that was not held before asks for an interrupt, whichever row is selected. -/
def press (bus : Bus) (key : Key) : Bus :=
  match bus.joypad.press key with
  | (true, joypad) => { bus with joypad, interrupts := bus.interrupts.request .joypad }
  | (false, joypad) => { bus with joypad }

def release (bus : Bus) (key : Key) : Bus := { bus with joypad := bus.joypad.release key }

def loadRam (bus : Bus) (saved : Bytes) : Bus :=
  { bus with cartridge := bus.cartridge.loadRam saved }

end Bus

end Handheld
