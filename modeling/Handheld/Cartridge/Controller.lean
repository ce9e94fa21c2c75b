import Handheld.Block

/-!
# Banking controllers

A cartridge may hold more memory than its two address windows show. A controller listens to writes
into the ROM window and decides which bank each window shows. Fixed boards have no controller;
MBC1, MBC3 and MBC5 differ in the width and layout of their registers. MBC3 also has five clock
registers, which stand still here and change only when a program writes them.
-/
namespace Handheld

/-- What the RAM window shows. -/
inductive Window where
  | closed
  | bank (number : Nat)
  | clock (register : Nat)
  deriving DecidableEq, Repr

/-- RAM and clock answer only after a write whose low four bits are ten. -/
def opensRam (value : UInt8) : Bool := value &&& 0x0f = 0x0a

/-- A register that never holds zero: zero is taken as one. -/
def nonzeroBank (value : UInt8) : UInt8 := if value = 0 then 1 else value

theorem toNat_nonzeroBank (value : UInt8) : (nonzeroBank value).toNat = max 1 value.toNat := by
  unfold nonzeroBank
  split
  · rename_i zero
    rw [zero]
    rfl
  · rename_i nonzero
    have positive : value.toNat ≠ 0 := fun zero => nonzero (UInt8.toNat_inj.mp zero)
    omega

structure Mbc1 where
  /-- Five bits, never zero. -/
  lowBank : UInt8 := 1
  /-- Two bits, shared between the upper part of the ROM bank and the RAM bank. -/
  highBank : UInt8 := 0
  ramOpen : Bool := false
  /-- Whether the high bank also moves the lower ROM window and the RAM window. -/
  wide : Bool := false
  deriving DecidableEq, Repr

namespace Mbc1

def lowerBank (mbc : Mbc1) : Nat := if mbc.wide then 32 * mbc.highBank.toNat else 0

def upperBank (mbc : Mbc1) : Nat := 32 * mbc.highBank.toNat + mbc.lowBank.toNat

def window (mbc : Mbc1) : Window :=
  if mbc.ramOpen then .bank (if mbc.wide then mbc.highBank.toNat else 0) else .closed

def control (mbc : Mbc1) (address : UInt16) (value : UInt8) : Mbc1 :=
  if address < 0x2000 then { mbc with ramOpen := opensRam value }
  else if address < 0x4000 then { mbc with lowBank := nonzeroBank (value &&& 0x1f) }
  else if address < 0x6000 then { mbc with highBank := value &&& 0x03 }
  else if address < 0x8000 then { mbc with wide := value &&& 0x01 != 0 }
  else mbc

end Mbc1

structure Mbc3 where
  /-- Seven bits, never zero. -/
  romBank : UInt8 := 1
  /-- 0 to 3 select a RAM bank, 8 to 12 a clock register. -/
  select : UInt8 := 0
  ramOpen : Bool := false
  clock : Block 5 := .filled 5 0
  /-- The clock as it stood at the last latch; programs read this copy. -/
  latched : Block 5 := .filled 5 0
  /-- Whether the last write to the latch was zero. -/
  latchArmed : Bool := false
  deriving DecidableEq, Repr

namespace Mbc3

def window (mbc : Mbc3) : Window :=
  if mbc.ramOpen then
    if mbc.select ≤ 3 then .bank mbc.select.toNat
    else if 8 ≤ mbc.select ∧ mbc.select ≤ 12 then .clock (mbc.select.toNat - 8)
    else .closed
  else .closed

def control (mbc : Mbc3) (address : UInt16) (value : UInt8) : Mbc3 :=
  if address < 0x2000 then { mbc with ramOpen := opensRam value }
  else if address < 0x4000 then { mbc with romBank := nonzeroBank (value &&& 0x7f) }
  else if address < 0x6000 then { mbc with select := value &&& 0x0f }
  else if address < 0x8000 then
    { mbc with
      latched := if mbc.latchArmed && value = 1 then mbc.clock else mbc.latched
      latchArmed := value = 0 }
  else mbc

end Mbc3

structure Mbc5 where
  /-- Nine bits; bank 0 may show in the upper window. -/
  romBank : UInt16 := 1
  ramBank : UInt8 := 0
  ramOpen : Bool := false
  deriving DecidableEq, Repr

namespace Mbc5

def window (mbc : Mbc5) : Window :=
  if mbc.ramOpen then .bank mbc.ramBank.toNat else .closed

def control (mbc : Mbc5) (address : UInt16) (value : UInt8) : Mbc5 :=
  if address < 0x2000 then { mbc with ramOpen := opensRam value }
  else if address < 0x3000 then
    { mbc with romBank := (mbc.romBank &&& 0x100) ||| value.toUInt16 }
  else if address < 0x4000 then
    { mbc with
      romBank := (mbc.romBank &&& 0xff) ||| (if value &&& 0x01 = 0 then 0 else 0x100) }
  else if address < 0x6000 then { mbc with ramBank := value &&& 0x0f }
  else mbc

end Mbc5

inductive Controller where
  | fixed
  | mbc1 (registers : Mbc1)
  | mbc3 (registers : Mbc3)
  | mbc5 (registers : Mbc5)
  deriving DecidableEq, Repr

namespace Controller

/-- The controller in its power-on state for a board code of the header. -/
def ofCode? (code : UInt8) : Option Controller :=
  if code = 0x00 ∨ code = 0x08 ∨ code = 0x09 then some .fixed
  else if 0x01 ≤ code ∧ code ≤ 0x03 then some (.mbc1 {})
  else if 0x0f ≤ code ∧ code ≤ 0x13 then some (.mbc3 {})
  else if 0x19 ≤ code ∧ code ≤ 0x1e then some (.mbc5 {})
  else none

/-- Number `bank` among the banks that memory of `size` bytes has. Memory smaller than a bank
counts as one. -/
def wrapBank (size bankSize bank : Nat) : Nat := bank % max 1 (size / bankSize)

/-- The cell of an image of `size` bytes that shows at an address below 0x8000. -/
def romCell (controller : Controller) (size : Nat) (address : UInt16) : Nat :=
  let offset : UInt16 := address &&& 0x3fff
  let cellOf (bank : Nat) : Nat := wrapBank size 0x4000 bank * 0x4000 + offset.toNat
  match controller with
  | fixed => address.toNat
  | mbc1 mbc => cellOf (if address < 0x4000 then mbc.lowerBank else mbc.upperBank)
  | mbc3 mbc => cellOf (if address < 0x4000 then 0 else mbc.romBank.toNat)
  | mbc5 mbc => cellOf (if address < 0x4000 then 0 else mbc.romBank.toNat)

/-- The cell of a RAM of `size` bytes that shows at an address when `bank` is selected. -/
def ramCell (size bank : Nat) (address : UInt16) : Nat :=
  let offset : UInt16 := address &&& 0x1fff
  wrapBank size 0x2000 bank * 0x2000 + offset.toNat

/-- Without a controller the RAM window is always open. -/
def window : Controller → Window
  | fixed => .bank 0
  | mbc1 mbc => mbc.window
  | mbc3 mbc => mbc.window
  | mbc5 mbc => mbc.window

/-- A write into the ROM window. -/
def control (controller : Controller) (address : UInt16) (value : UInt8) : Controller :=
  match controller with
  | fixed => .fixed
  | mbc1 mbc => .mbc1 (mbc.control address value)
  | mbc3 mbc => .mbc3 (mbc.control address value)
  | mbc5 mbc => .mbc5 (mbc.control address value)

def readClock (controller : Controller) (register : Nat) : UInt8 :=
  match controller with
  | mbc3 mbc => mbc.latched.read register
  | _ => 0xff

def writeClock (controller : Controller) (register : Nat) (value : UInt8) : Controller :=
  match controller with
  | mbc3 mbc => .mbc3 { mbc with clock := mbc.clock.write register value }
  | other => other

end Controller

end Handheld
