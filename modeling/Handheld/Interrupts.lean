/-!
# Interrupt requests

Five sources share one request register and one enable register. The processor serves the lowest
numbered source that is both requested and enabled; which one that is, is decided here, the rest
of the service needs the stack and belongs to the machine.
-/
namespace Handheld

/-- Interrupt sources in order of priority. -/
inductive Interrupt where
  | vblank | lcdStatus | timer | serial | joypad
  deriving DecidableEq, Repr

namespace Interrupt

def all : List Interrupt := [.vblank, .lcdStatus, .timer, .serial, .joypad]

def number : Interrupt → Nat
  | vblank => 0
  | lcdStatus => 1
  | timer => 2
  | serial => 3
  | joypad => 4

/-- The bit of this source in the request and enable registers. -/
def bit : Interrupt → UInt8
  | vblank => 0x01
  | lcdStatus => 0x02
  | timer => 0x04
  | serial => 0x08
  | joypad => 0x10

/-- The address of the service routine; routines lie eight bytes apart. -/
def vector (source : Interrupt) : UInt16 := 0x40 + 8 * UInt16.ofNat source.number

end Interrupt

/-- The enable register keeps all eight bits, the request register only those of a source. -/
structure Interrupts where
  enable : UInt8 := 0
  flags : UInt8 := 0
  deriving DecidableEq, Repr

namespace Interrupts

def request (interrupts : Interrupts) (source : Interrupt) : Interrupts :=
  { interrupts with flags := interrupts.flags ||| source.bit }

/-- Requests every source whose bit is set in `mask`. -/
def requestMask (interrupts : Interrupts) (mask : UInt8) : Interrupts :=
  { interrupts with flags := interrupts.flags ||| (mask &&& 0x1f) }

/-- Drops the request of a source that is being served. -/
def acknowledge (interrupts : Interrupts) (source : Interrupt) : Interrupts :=
  { interrupts with flags := interrupts.flags &&& ~~~source.bit }

/-- The sources that are both requested and enabled. -/
def pending (interrupts : Interrupts) : UInt8 := interrupts.flags &&& interrupts.enable &&& 0x1f

/-- The source to serve next. -/
def next? (interrupts : Interrupts) : Option Interrupt :=
  Interrupt.all.find? fun source => interrupts.pending &&& source.bit != 0

/-- The registers as the bus sees them: the three missing request bits read as ones. -/
def read (interrupts : Interrupts) (address : UInt16) : UInt8 :=
  match address with
  | 0xff0f => interrupts.flags ||| 0xe0
  | 0xffff => interrupts.enable
  | _ => 0xff

def write (interrupts : Interrupts) (address : UInt16) (value : UInt8) : Interrupts :=
  match address with
  | 0xff0f => { interrupts with flags := value &&& 0x1f }
  | 0xffff => { interrupts with enable := value }
  | _ => interrupts

end Interrupts

end Handheld
