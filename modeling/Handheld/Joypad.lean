/-!
# Joypad

Eight keys hang on two rows of four lines. A program selects rows and reads the four lines;
selected rows, held keys and the lines themselves are all active low.
-/
namespace Handheld

inductive Key where
  | a | b | start | select | left | up | down | right
  deriving DecidableEq, Repr

inductive Key.Row where
  | buttons | directions
  deriving DecidableEq, Repr

namespace Key

def row : Key → Row
  | a | b | select | start => .buttons
  | right | left | up | down => .directions

/-- The line of a key within its row. -/
def bit : Key → UInt8
  | right | a => 0x01
  | left | b => 0x02
  | up | select => 0x04
  | down | start => 0x08

end Key

structure Joypad where
  buttons : UInt8 := 0x0f
  directions : UInt8 := 0x0f
  /-- Bit 5 clear selects the buttons, bit 4 clear the directions. -/
  selection : UInt8 := 0x30
  deriving DecidableEq, Repr

namespace Joypad

def read (joypad : Joypad) : UInt8 :=
  let buttons := if joypad.selection &&& 0x20 = 0 then joypad.buttons else 0x0f
  let directions := if joypad.selection &&& 0x10 = 0 then joypad.directions else 0x0f
  0xc0 ||| joypad.selection ||| (buttons &&& directions)

def write (joypad : Joypad) (value : UInt8) : Joypad :=
  { joypad with selection := value &&& 0x30 }

def lines (joypad : Joypad) : Key.Row → UInt8
  | .buttons => joypad.buttons
  | .directions => joypad.directions

def setLines (joypad : Joypad) (lines : UInt8) : Key.Row → Joypad
  | .buttons => { joypad with buttons := lines }
  | .directions => { joypad with directions := lines }

def held (joypad : Joypad) (key : Key) : Bool := joypad.lines key.row &&& key.bit = 0

/-- Holds a key down. The flag tells whether it was not held before. -/
def press (joypad : Joypad) (key : Key) : Bool × Joypad :=
  (!joypad.held key, joypad.setLines (joypad.lines key.row &&& ~~~key.bit) key.row)

def release (joypad : Joypad) (key : Key) : Joypad :=
  joypad.setLines (joypad.lines key.row ||| key.bit) key.row

end Joypad

end Handheld
