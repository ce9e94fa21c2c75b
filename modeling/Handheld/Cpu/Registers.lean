import Handheld.Word

/-!
# Registers of the processor

Seven bytes, four flags, a stack pointer and a program counter. The flags are seen by programs as
the byte F, whose low four bits do not exist: they are dropped on the way in and read as zero.
-/
namespace Handheld

/-- The outcome of the last arithmetic: zero, subtraction, carry out of bit 3, carry out of bit 7.
-/
structure Flags where
  zero : Bool := false
  subtract : Bool := false
  halfCarry : Bool := false
  carry : Bool := false
  deriving DecidableEq, Repr

namespace Flags

/-- The flags as the upper half of F. -/
def toByte (flags : Flags) : UInt8 :=
  (if flags.zero then 0x80 else 0) ||| (if flags.subtract then 0x40 else 0) |||
    (if flags.halfCarry then 0x20 else 0) ||| (if flags.carry then 0x10 else 0)

def ofByte (value : UInt8) : Flags where
  zero := value &&& 0x80 != 0
  subtract := value &&& 0x40 != 0
  halfCarry := value &&& 0x20 != 0
  carry := value &&& 0x10 != 0

theorem ofByte_toByte (flags : Flags) : ofByte flags.toByte = flags := by
  rcases flags with ⟨zero, subtract, halfCarry, carry⟩
  cases zero <;> cases subtract <;> cases halfCarry <;> cases carry <;> rfl

end Flags

structure Registers where
  a : UInt8
  b : UInt8
  c : UInt8
  d : UInt8
  e : UInt8
  h : UInt8
  l : UInt8
  flags : Flags
  sp : UInt16
  pc : UInt16
  deriving DecidableEq, Repr

namespace Registers

def f (regs : Registers) : UInt8 := regs.flags.toByte

def af (regs : Registers) : UInt16 := word regs.a regs.f

def bc (regs : Registers) : UInt16 := word regs.b regs.c

def de (regs : Registers) : UInt16 := word regs.d regs.e

def hl (regs : Registers) : UInt16 := word regs.h regs.l

def setF (regs : Registers) (value : UInt8) : Registers := { regs with flags := .ofByte value }

def setAF (regs : Registers) (value : UInt16) : Registers :=
  { regs with a := highByte value, flags := .ofByte (lowByte value) }

def setBC (regs : Registers) (value : UInt16) : Registers :=
  { regs with b := highByte value, c := lowByte value }

def setDE (regs : Registers) (value : UInt16) : Registers :=
  { regs with d := highByte value, e := lowByte value }

def setHL (regs : Registers) (value : UInt16) : Registers :=
  { regs with h := highByte value, l := lowByte value }

def incrementHL (regs : Registers) : Registers := regs.setHL (regs.hl + 1)

def decrementHL (regs : Registers) : Registers := regs.setHL (regs.hl - 1)

/-- What the start-up program leaves behind. Software tells a colour machine from the value in A.
-/
def powerOn (color : Bool) : Registers :=
  let monochrome : Registers :=
    { a := 0x01, b := 0x00, c := 0x13, d := 0x00, e := 0xd8, h := 0x01, l := 0x4d
      flags := .ofByte 0xb0, sp := 0xfffe, pc := 0x0100 }
  if color then
    (((monochrome.setAF 0x1180).setBC 0x0000).setDE 0xff56).setHL 0x000d
  else
    monochrome

theorem hl_setHL (regs : Registers) (value : UInt16) : (regs.setHL value).hl = value :=
  word_highByte_lowByte value

theorem bc_setBC (regs : Registers) (value : UInt16) : (regs.setBC value).bc = value :=
  word_highByte_lowByte value

theorem de_setDE (regs : Registers) (value : UInt16) : (regs.setDE value).de = value :=
  word_highByte_lowByte value

end Registers

end Handheld
