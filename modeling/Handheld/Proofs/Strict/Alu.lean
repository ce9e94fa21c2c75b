import Handheld.Interrupts
import Handheld.Proofs.Machine.Clocks
import Handheld.Proofs.Strict.Store

/-!
# Arithmetic without a step out of range

The processor adds and subtracts past the ends of bytes and words on purpose. The sums from which it
takes its carries are another matter: they are made in a wider number, or of half bytes, and have to
fit there. So do the clocks of an instruction and the address of a service routine.
-/
namespace Handheld

namespace Alu

/-- The sum itself wraps. The carries come from a sum of half bytes in a byte and from one of bytes
in a word, which must fit. -/
def add? (left right : UInt8) (carry : Bool) : Option (UInt8 × Flags) := do
  let result := left + right + (if carry then 1 else 0)
  let low ← sum? 8 (left.toNat % 16) (right.toNat % 16)
  let low ← sum? 8 low carry.toNat
  let whole ← sum? 16 left.toNat right.toNat
  let whole ← sum? 16 whole carry.toNat
  some (result,
    { zero := result = 0, subtract := false, halfCarry := 16 ≤ low, carry := 256 ≤ whole })

/-- The difference itself wraps. What is taken away is summed up first, in a wider number. -/
def sub? (left right : UInt8) (borrow : Bool) : Option (UInt8 × Flags) := do
  let result := left - right - (if borrow then 1 else 0)
  let low ← sum? 8 (right.toNat % 16) borrow.toNat
  let whole ← sum? 16 right.toNat borrow.toNat
  some (result,
    { zero := result = 0
      subtract := true
      halfCarry := left.toNat % 16 < low
      carry := left.toNat < whole })

/-- The carry out of bit 11 comes from a sum in a word, that out of bit 15 from one in two words. -/
def addWords? (left right : UInt16) (flags : Flags) : Option (UInt16 × Flags) := do
  let low ← sum? 16 (left.toNat % 0x1000) (right.toNat % 0x1000)
  let whole ← sum? 32 left.toNat right.toNat
  some (left + right,
    { flags with subtract := false, halfCarry := 0x1000 ≤ low, carry := 0x10000 ≤ whole })

theorem add?_eq (left right : UInt8) (carry : Bool) :
    add? left right carry = some (add left right carry) := by
  have first := left.toNat_lt
  have second := right.toNat_lt
  have third := carry.toNat_le
  have low : left.toNat % 16 + right.toNat % 16 < 2 ^ 8 := by omega
  have lowCarry : left.toNat % 16 + right.toNat % 16 + carry.toNat < 2 ^ 8 := by omega
  have whole : left.toNat + right.toNat < 2 ^ 16 := by omega
  have wholeCarry : left.toNat + right.toNat + carry.toNat < 2 ^ 16 := by omega
  simp only [add?, sum?_eq low, sum?_eq lowCarry, sum?_eq whole, sum?_eq wholeCarry,
    Option.bind_eq_bind, Option.bind_some]
  rfl

theorem sub?_eq (left right : UInt8) (borrow : Bool) :
    sub? left right borrow = some (sub left right borrow) := by
  have second := right.toNat_lt
  have third := borrow.toNat_le
  have low : right.toNat % 16 + borrow.toNat < 2 ^ 8 := by omega
  have whole : right.toNat + borrow.toNat < 2 ^ 16 := by omega
  simp only [sub?, sum?_eq low, sum?_eq whole, Option.bind_eq_bind, Option.bind_some]
  rfl

theorem addWords?_eq (left right : UInt16) (flags : Flags) :
    addWords? left right flags = some (addWords left right flags) := by
  have first := left.toNat_lt
  have second := right.toNat_lt
  have low : left.toNat % 0x1000 + right.toNat % 0x1000 < 2 ^ 16 := by omega
  have whole : left.toNat + right.toNat < 2 ^ 32 := by omega
  simp only [addWords?, sum?_eq low, sum?_eq whole, Option.bind_eq_bind, Option.bind_some]
  rfl

end Alu

/-- The operation between A and an operand. Those that work bit by bit take no sum. -/
def Arithmetic.compute? (operation : Arithmetic) (a operand : UInt8) (flags : Flags) :
    Option (UInt8 × Flags) :=
  match operation with
  | add => Alu.add? a operand false
  | adc => Alu.add? a operand flags.carry
  | sub => Alu.sub? a operand false
  | sbc => Alu.sub? a operand flags.carry
  | cp => do
    let (_, flags) ← Alu.sub? a operand false
    some (a, flags)
  | and | xor | or => some (operation.apply a operand flags)

/-- So the step over the eight operations needs no case of its own where an instruction calls
one. -/
theorem Arithmetic.compute?_eq (operation : Arithmetic) (a operand : UInt8) (flags : Flags) :
    operation.compute? a operand flags = some (operation.apply a operand flags) := by
  cases operation with
  | add | adc => exact Alu.add?_eq ..
  | sub | sbc => exact Alu.sub?_eq ..
  | cp =>
    simp only [compute?, Alu.sub?_eq, Option.bind_eq_bind, Option.bind_some]
    rfl
  | and | xor | or => rfl

/-- Machine cycles are counted as four clocks each, in a product that must fit. -/
def Instruction.clocks? (instruction : Instruction) (flags : Flags) : Option Nat :=
  product? 32 4 (instruction.cycles (instruction.taken flags))

theorem Instruction.clocks?_eq (instruction : Instruction) (flags : Flags) :
    instruction.clocks? flags = some (instruction.clocks flags) := by
  have few := instruction.cycles_le (instruction.taken flags)
  exact product?_eq (by omega)

/-- The routines stand eight bytes apart from `0x40` on. -/
def Interrupt.vector? (source : Interrupt) : Option UInt16 := do
  let offset ← product? 16 8 source.number
  wordSum? 0x40 (UInt16.ofNat offset)

theorem Interrupt.vector?_eq (source : Interrupt) : source.vector? = some source.vector := by
  cases source <;> decide

end Handheld
