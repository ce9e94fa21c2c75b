/-!
# Divider and timer

A 16-bit divider counts every clock; its upper byte is the register DIV. The counter TIMA advances
once per period while the timer is enabled, and on passing 255 starts again from TMA and asks for
the timer interrupt.
-/
namespace Handheld

structure Timer where
  divider : UInt16 := 0
  /-- Clocks counted towards the next advance of the counter. -/
  elapsed : Nat := 0
  counter : UInt8 := 0
  modulo : UInt8 := 0
  /-- The three bits of TAC: enabled, and two that choose the period. -/
  control : UInt8 := 0
  deriving DecidableEq, Repr

namespace Timer

def enabled (timer : Timer) : Bool := timer.control &&& 0x04 != 0

/-- Clocks per advance of the counter. -/
def period (timer : Timer) : Nat :=
  match timer.control &&& 0x03 with
  | 0 => 1024
  | 1 => 16
  | 2 => 64
  | _ => 256

/-- Advances a counter `count` times. Passing 255 reloads it; the flag tells whether that
happened, now or before. -/
def advance (modulo : UInt8) : Nat → UInt8 → Bool → UInt8 × Bool
  | 0, counter, overflowed => (counter, overflowed)
  | count + 1, counter, overflowed =>
    if counter = 0xff then advance modulo count modulo true
    else advance modulo count (counter + 1) overflowed

/-- Lets `clocks` clocks pass. The flag tells whether the counter overflowed at least once. -/
def tick (timer : Timer) (clocks : Nat) : Bool × Timer :=
  let divider := timer.divider + UInt16.ofNat clocks
  if timer.enabled then
    let elapsed := timer.elapsed + clocks
    let (counter, overflowed) :=
      advance timer.modulo (elapsed / timer.period) timer.counter false
    (overflowed, { timer with divider, elapsed := elapsed % timer.period, counter })
  else
    (false, { timer with divider })

/-- Clears the divider together with the part of a period already counted. -/
def resetDivider (timer : Timer) : Timer := { timer with divider := 0, elapsed := 0 }

/-- The four registers; the missing bits of TAC read as ones. -/
def read (timer : Timer) (address : UInt16) : UInt8 :=
  match address with
  | 0xff04 => (timer.divider >>> 8).toUInt8
  | 0xff05 => timer.counter
  | 0xff06 => timer.modulo
  | 0xff07 => timer.control ||| 0xf8
  | _ => 0xff

/-- Any write to DIV resets it. A change of period drops the part of a period already counted,
while switching the timer on or off keeps it. -/
def write (timer : Timer) (address : UInt16) (value : UInt8) : Timer :=
  match address with
  | 0xff04 => timer.resetDivider
  | 0xff05 => { timer with counter := value }
  | 0xff06 => { timer with modulo := value }
  | 0xff07 =>
    let elapsed := if timer.control &&& 0x03 = value &&& 0x03 then timer.elapsed else 0
    { timer with control := value &&& 0x07, elapsed }
  | _ => timer

end Timer

end Handheld
