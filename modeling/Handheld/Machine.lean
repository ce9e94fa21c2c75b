import Handheld.Bus.PowerOn
import Handheld.Cpu.Opcode

/-!
# The machine

A processor and the bus it works on, with the accesses that instructions are made of: fetching
bytes at the program counter, operands by name, and the stack, which grows downwards.
-/
namespace Handheld

structure Processor where
  registers : Registers
  /-- Whether requests are served. -/
  masterEnable : Bool := false
  /-- Whether requests are to be served from the end of the next instruction on. -/
  enablePending : Bool := false
  halted : Bool := false
  /-- Whether the next fetch leaves the program counter where it is. -/
  repeatFetch : Bool := false
  deriving DecidableEq, Repr

def Processor.powerOn (color : Bool) : Processor := { registers := .powerOn color }

structure Machine where
  cpu : Processor
  bus : Bus
  deriving DecidableEq

namespace Machine

def powerOn (cartridge : Cartridge) (color : Bool) : Machine where
  cpu := .powerOn color
  bus := .powerOn cartridge color

def registers (machine : Machine) : Registers := machine.cpu.registers

def flags (machine : Machine) : Flags := machine.cpu.registers.flags

def pc (machine : Machine) : UInt16 := machine.cpu.registers.pc

@[inline] def withRegisters (machine : Machine) (change : Registers → Registers) : Machine :=
  { machine with cpu := { machine.cpu with registers := change machine.cpu.registers } }

def setPC (machine : Machine) (address : UInt16) : Machine :=
  machine.withRegisters fun registers => { registers with pc := address }

def setA (machine : Machine) (value : UInt8) : Machine :=
  machine.withRegisters fun registers => { registers with a := value }

def setFlags (machine : Machine) (flags : Flags) : Machine :=
  machine.withRegisters fun registers => { registers with flags }

def read (machine : Machine) (address : UInt16) : UInt8 := machine.bus.read address

def write (machine : Machine) (address : UInt16) (value : UInt8) : Machine :=
  { machine with bus := machine.bus.write address value }

/-- Moves past the byte at the program counter, unless the last instruction asked for this byte to
be fetched twice. -/
def passByte (machine : Machine) : Machine :=
  if machine.cpu.repeatFetch then
    { machine with cpu := { machine.cpu with repeatFetch := false } }
  else
    machine.setPC (machine.pc + 1)

/-- Fetches the byte at the program counter. -/
@[inline] def nextByte (machine : Machine) : UInt8 × Machine :=
  (machine.read machine.pc, machine.passByte)

/-- Fetches a word, low byte first. -/
@[inline] def nextWord (machine : Machine) : UInt16 × Machine :=
  let (low, machine) := machine.nextByte
  let (high, machine) := machine.nextByte
  (word high low, machine)

/-- The high byte goes first, so the word lies low byte first at the new top. -/
def push (machine : Machine) (value : UInt16) : Machine :=
  let sp := machine.registers.sp
  let machine := (machine.write (sp - 1) (highByte value)).write (sp - 2) (lowByte value)
  machine.withRegisters fun registers => { registers with sp := sp - 2 }

@[inline] def pop (machine : Machine) : UInt16 × Machine :=
  let sp := machine.registers.sp
  (machine.bus.readWord sp,
    machine.withRegisters fun registers => { registers with sp := sp + 2 })

def operand (machine : Machine) : Operand → UInt8
  | .b => machine.registers.b
  | .c => machine.registers.c
  | .d => machine.registers.d
  | .e => machine.registers.e
  | .h => machine.registers.h
  | .l => machine.registers.l
  | .atHL => machine.read machine.registers.hl
  | .a => machine.registers.a

def setOperand (machine : Machine) (target : Operand) (value : UInt8) : Machine :=
  match target with
  | .b => machine.withRegisters fun registers => { registers with b := value }
  | .c => machine.withRegisters fun registers => { registers with c := value }
  | .d => machine.withRegisters fun registers => { registers with d := value }
  | .e => machine.withRegisters fun registers => { registers with e := value }
  | .h => machine.withRegisters fun registers => { registers with h := value }
  | .l => machine.withRegisters fun registers => { registers with l := value }
  | .atHL => machine.write machine.registers.hl value
  | .a => machine.setA value

def pair (machine : Machine) : Pair → UInt16
  | .bc => machine.registers.bc
  | .de => machine.registers.de
  | .hl => machine.registers.hl
  | .sp => machine.registers.sp

def setPair (machine : Machine) (target : Pair) (value : UInt16) : Machine :=
  machine.withRegisters fun registers =>
    match target with
    | .bc => registers.setBC value
    | .de => registers.setDE value
    | .hl => registers.setHL value
    | .sp => { registers with sp := value }

def stackPair (machine : Machine) : StackPair → UInt16
  | .bc => machine.registers.bc
  | .de => machine.registers.de
  | .hl => machine.registers.hl
  | .af => machine.registers.af

def setStackPair (machine : Machine) (target : StackPair) (value : UInt16) : Machine :=
  machine.withRegisters fun registers =>
    match target with
    | .bc => registers.setBC value
    | .de => registers.setDE value
    | .hl => registers.setHL value
    | .af => registers.setAF value

/-- The address that a pointer holds. -/
def pointer (machine : Machine) : Pointer → UInt16
  | .bc => machine.registers.bc
  | .de => machine.registers.de
  | .hlUp | .hlDown => machine.registers.hl

/-- Steps the pointer, if it is one that steps. -/
def stepPointer (machine : Machine) (used : Pointer) : Machine :=
  match used with
  | .bc | .de => machine
  | .hlUp => machine.withRegisters (·.incrementHL)
  | .hlDown => machine.withRegisters (·.decrementHL)

end Machine

end Handheld
