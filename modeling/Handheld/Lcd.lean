import Handheld.Video

/-!
# LCD timing

A picture is 154 lines of 456 clocks. The first 144 lines scan objects, transfer pixels and rest;
the remaining ones are the vertical blank. The unit keeps the line register and the low bits of
the status register up to date and asks for interrupts; it draws nothing. While the screen is off
it rests at the first line.
-/
namespace Handheld

inductive Mode where
  | hblank | vblank | objectScan | transfer
  deriving DecidableEq, Repr

namespace Mode

/-- The mode as the status register shows it. -/
def code : Mode → UInt8
  | hblank => 0
  | vblank => 1
  | objectScan => 2
  | transfer => 3

/-- The status bit that asks for an interrupt when this mode begins. Nothing can ask for the
transfer. -/
def enableBit : Mode → UInt8
  | hblank => 0x08
  | vblank => 0x10
  | objectScan => 0x20
  | transfer => 0

end Mode

structure Lcd where
  /-- Clocks into the current line. -/
  clock : Nat := 0
  line : Nat := 0
  mode : Mode := .objectScan
  /-- Vertical blanks begun so far. -/
  frames : Nat := 0
  deriving DecidableEq, Repr

namespace Lcd

abbrev height : Nat := 144
abbrev lines : Nat := 154
abbrev lineClocks : Nat := 456
abbrev scanEnd : Nat := 80
abbrev transferEnd : Nat := 252

/-- The mode that belongs to a position. -/
def modeAt (lcd : Lcd) : Mode :=
  if height ≤ lcd.line then .vblank
  else if lcd.clock < scanEnd then .objectScan
  else if lcd.clock < transferEnd then .transfer
  else .hblank

/-- The clock of the line at which the mode can next change. -/
def boundary (lcd : Lcd) : Nat :=
  match lcd.modeAt with
  | .objectScan => scanEnd
  | .transfer => transferEnd
  | .hblank | .vblank => lineClocks

/-- Shows the line, and the outcome of its comparison in the status register. -/
def showLine (lcd : Lcd) (bus : Bus) : VideoStep Lcd :=
  let line := UInt8.ofNat lcd.line
  let bus := bus.setIo Bus.line line
  let status := bus.io.read Bus.lcdStatus
  if line = bus.io.read Bus.lineCompare then
    let status := status ||| 0x04
    { unit := lcd
      bus := bus.setIo Bus.lcdStatus status
      requests := if status &&& 0x40 = 0 then 0 else Interrupt.lcdStatus.bit }
  else
    { unit := lcd, bus := bus.setIo Bus.lcdStatus (status &&& ~~~0x04), requests := 0 }

/-- Goes from the end of a line to the start of the next one. -/
def nextLine (lcd : Lcd) (bus : Bus) : VideoStep Lcd :=
  let line := (lcd.line + 1) % lines
  if line = height then
    let shown := showLine { lcd with clock := 0, line, frames := lcd.frames + 1 } bus
    { shown with requests := Interrupt.vblank.bit ||| shown.requests }
  else
    showLine { lcd with clock := 0, line } bus

/-- Makes the mode agree with the position. A line that comes to rest first lets the block copy
have its part. -/
def showMode (lcd : Lcd) (bus : Bus) : VideoStep Lcd :=
  let mode := lcd.modeAt
  if mode = lcd.mode then
    { unit := lcd, bus, requests := 0 }
  else
    let bus := if mode = .hblank then bus.copyLineBlock else bus
    let status := bus.io.read Bus.lcdStatus
    { unit := { lcd with mode }
      bus := bus.setIo Bus.lcdStatus ((status &&& ~~~0x03) ||| mode.code)
      requests := if status &&& mode.enableBit = 0 then 0 else Interrupt.lcdStatus.bit }

/-- Moves on by clocks that do not pass the next boundary. -/
def move (lcd : Lcd) (clocks : Nat) (bus : Bus) : VideoStep Lcd :=
  let moved : Lcd := { lcd with clock := lcd.clock + clocks }
  if moved.clock = lineClocks then
    let atLine := moved.nextLine bus
    let atMode := atLine.unit.showMode atLine.bus
    { atMode with requests := atLine.requests ||| atMode.requests }
  else
    moved.showMode bus

/-- Moves on from boundary to boundary and gathers the requests. -/
def run (lcd : Lcd) (clocks : Nat) (bus : Bus) (requests : UInt8) : VideoStep Lcd :=
  if 0 < clocks ∧ lcd.clock < lcd.boundary then
    let part := min clocks (lcd.boundary - lcd.clock)
    let moved := lcd.move part bus
    moved.unit.run (clocks - part) moved.bus (requests ||| moved.requests)
  else
    { unit := lcd, bus, requests }
termination_by clocks

/-- Rests at the first line without asking for anything. -/
def park (lcd : Lcd) (bus : Bus) : VideoStep Lcd :=
  let bus := bus.setIo Bus.line 0
  let status := bus.io.read Bus.lcdStatus
  { unit := { lcd with clock := 0, line := 0, mode := .hblank }
    bus := bus.setIo Bus.lcdStatus (status &&& ~~~0x03)
    requests := 0 }

/-- Lets clocks pass, if the screen is on. -/
def step (lcd : Lcd) (clocks : Nat) (bus : Bus) : VideoStep Lcd :=
  if bus.io.read Bus.lcdControl &&& 0x80 = 0 then lcd.park bus
  else lcd.run clocks bus 0

instance : VideoUnit Lcd where
  step := step

end Lcd

end Handheld
