import Handheld.Cpu.Registers

/-!
# Arithmetic

What the arithmetic unit makes of bytes, words and flags. No function here knows where operands
come from or where results go. Carries are taken from the exact sums and differences.
-/
namespace Handheld.Alu

/-- Sum with a carry in. -/
def add (left right : UInt8) (carry : Bool) : UInt8 × Flags :=
  let result := left + right + (if carry then 1 else 0)
  (result,
    { zero := result = 0
      subtract := false
      halfCarry := 16 ≤ left.toNat % 16 + right.toNat % 16 + carry.toNat
      carry := 256 ≤ left.toNat + right.toNat + carry.toNat })

/-- Difference with a borrow in. The carry flags then mean borrows. -/
def sub (left right : UInt8) (borrow : Bool) : UInt8 × Flags :=
  let result := left - right - (if borrow then 1 else 0)
  (result,
    { zero := result = 0
      subtract := true
      halfCarry := left.toNat % 16 < right.toNat % 16 + borrow.toNat
      carry := left.toNat < right.toNat + borrow.toNat })

/-- The result of a bitwise operation; only a conjunction sets the half carry. -/
def bitwise (result : UInt8) (halfCarry : Bool) : UInt8 × Flags :=
  (result, { zero := result = 0, subtract := false, halfCarry, carry := false })

/-- Adds one and leaves the carry alone. -/
def increment (value : UInt8) (flags : Flags) : UInt8 × Flags :=
  let result := value + 1
  (result, { flags with zero := result = 0, subtract := false, halfCarry := value &&& 0x0f = 0x0f })

/-- Takes one off and leaves the carry alone. -/
def decrement (value : UInt8) (flags : Flags) : UInt8 × Flags :=
  let result := value - 1
  (result, { flags with zero := result = 0, subtract := true, halfCarry := value &&& 0x0f = 0 })

/-- Sum of two words. The half carry is that out of bit 11, and the zero flag stays. -/
def addWords (left right : UInt16) (flags : Flags) : UInt16 × Flags :=
  (left + right,
    { flags with
      subtract := false
      halfCarry := 0x1000 ≤ left.toNat % 0x1000 + right.toNat % 0x1000
      carry := 0x10000 ≤ left.toNat + right.toNat })

/-- A word moved by a signed byte. A bit of the sum differs from the bits added exactly where a
carry came in, so the carries out of bits 3 and 7 show in bits 4 and 8. -/
def addSigned (base : UInt16) (offset : UInt8) : UInt16 × Flags :=
  let addend := signExtend offset
  let result := base + addend
  let carries := base ^^^ addend ^^^ result
  (result,
    { zero := false
      subtract := false
      halfCarry := carries &&& 0x10 != 0
      carry := carries &&& 0x100 != 0 })

/-- Turns the result of adding or subtracting two decimal bytes into a decimal byte again: each
digit that carried, or that went past nine in an addition, is corrected by six. -/
def decimalAdjust (value : UInt8) (flags : Flags) : UInt8 × Flags :=
  let carry := flags.carry || (!flags.subtract && 0x99 < value)
  let result :=
    if flags.subtract then
      value - (if carry then 0x60 else 0) - (if flags.halfCarry then 0x06 else 0)
    else
      let high := value + (if carry then 0x60 else 0)
      high + (if flags.halfCarry || 0x09 < high &&& 0x0f then 0x06 else 0)
  (result, { flags with zero := result = 0, halfCarry := false, carry })

end Alu

/-- The eight operations between A and an operand. -/
inductive Arithmetic where
  | add | adc | sub | sbc | and | xor | or | cp
  deriving DecidableEq, Repr

/-- New value of A and new flags. A comparison subtracts and keeps A. -/
def Arithmetic.apply (operation : Arithmetic) (a operand : UInt8) (flags : Flags) :
    UInt8 × Flags :=
  match operation with
  | add => Alu.add a operand false
  | adc => Alu.add a operand flags.carry
  | sub => Alu.sub a operand false
  | sbc => Alu.sub a operand flags.carry
  | and => Alu.bitwise (a &&& operand) true
  | xor => Alu.bitwise (a ^^^ operand) false
  | or => Alu.bitwise (a ||| operand) false
  | cp => (a, (Alu.sub a operand false).2)

/-- Rotations and shifts of a byte, and the exchange of its halves. -/
inductive Shift where
  | rlc | rrc | rl | rr | sla | sra | swap | srl
  deriving DecidableEq, Repr

/-- The moved byte and the bit that fell out. `rl` and `rr` take the carry in; the exchange of
halves loses no bit. -/
def Shift.apply (shift : Shift) (value : UInt8) (carry : Bool) : UInt8 × Bool :=
  match shift with
  | rlc => ((value <<< 1) ||| (value >>> 7), value &&& 0x80 != 0)
  | rrc => ((value >>> 1) ||| (value <<< 7), value &&& 0x01 != 0)
  | rl => ((value <<< 1) ||| (if carry then 0x01 else 0), value &&& 0x80 != 0)
  | rr => ((value >>> 1) ||| (if carry then 0x80 else 0), value &&& 0x01 != 0)
  | sla => (value <<< 1, value &&& 0x80 != 0)
  | sra => ((value >>> 1) ||| (value &&& 0x80), value &&& 0x01 != 0)
  | swap => ((value <<< 4) ||| (value >>> 4), false)
  | srl => (value >>> 1, value &&& 0x01 != 0)

end Handheld
