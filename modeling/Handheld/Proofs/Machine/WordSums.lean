import Mathlib.Data.Nat.Bitwise
import Handheld.Proofs.Machine.Fields
import Handheld.Proofs.Machine.Transfers

/-!
# Sums of words and their flags

Two kinds of sum work on words: a pair of registers is added to HL, and a signed byte is added to
SP. The flags of the first are the carries out of bits 11 and 15. Those of the second are the
carries out of bits 3 and 7, found from the bits where the sum differs from what was added, and are
the same for negative bytes as for positive ones. `word_sums_exact` says so for the instructions.
-/
namespace Handheld

namespace Alu

/-- A bit of a sum differs from the two bits added if and only if a carry comes in from below. The
exclusive or cancels the two bits, and what is left is the carry as the bits below define it. -/
theorem testBit_carries (left right : UInt16) {bit : Nat} (inside : bit < 16) :
    (left ^^^ right ^^^ (left + right)).toNat.testBit bit =
      decide (2 ^ bit ≤ left.toNat % 2 ^ bit + right.toNat % 2 ^ bit) := by
  have sum := BitVec.getLsbD_add inside left.toBitVec right.toBitVec
  change (left ^^^ right ^^^ (left + right)).toBitVec.getLsbD bit =
    BitVec.carry bit left.toBitVec right.toBitVec false
  rw [UInt16.toBitVec_xor, UInt16.toBitVec_xor, UInt16.toBitVec_add, BitVec.getLsbD_xor,
    BitVec.getLsbD_xor, sum]
  cases left.toBitVec.getLsbD bit <;> cases right.toBitVec.getLsbD bit <;> simp

/-- So the bit of a mask tells whether there is one. -/
theorem carries_and_mask (left right mask : UInt16) (bit : Nat) (inside : bit < 16)
    (sole : mask.toNat = 2 ^ bit) :
    ((left ^^^ right ^^^ (left + right)) &&& mask != 0) = true ↔
      2 ^ bit ≤ left.toNat % 2 ^ bit + right.toNat % 2 ^ bit := by
  rw [← decide_eq_true_iff (p := 2 ^ bit ≤ _), ← testBit_carries left right inside, bne_iff_ne,
    ne_eq, ← UInt16.toNat_inj, UInt16.toNat_and, sole, Nat.and_two_pow]
  cases (left ^^^ right ^^^ (left + right)).toNat.testBit bit <;> simp

theorem toNat_signExtend_mod (offset : UInt8) : (signExtend offset).toNat % 256 = offset.toNat := by
  revert offset
  exact forall_byte (by decide +kernel)

/-- What a word moved by a signed byte is, and which flags that leaves. The result counts the byte
with its sign and wraps; the flags count it without. -/
structure IsMoved (base : UInt16) (offset : UInt8) (result : UInt16) (flags : Flags) : Prop where
  sum : (result.toNat : Int) = (base.toNat + offset.toInt8.toInt) % 0x10000
  zero : flags.zero = false
  subtract : flags.subtract = false
  /-- As if the byte was unsigned. -/
  halfCarry : flags.halfCarry = true ↔ 16 ≤ base.toNat % 16 + offset.toNat % 16
  carry : flags.carry = true ↔ 256 ≤ base.toNat % 256 + offset.toNat

/-- The carries out of the low byte are those of the unsigned sum, for negative bytes as for others,
because extending the sign leaves the low byte alone. -/
theorem isMoved_addSigned (base : UInt16) (offset : UInt8) :
    IsMoved base offset (addSigned base offset).1 (addSigned base offset).2 := by
  have low := toNat_signExtend_mod offset
  refine ⟨toNat_add_signExtend base offset, rfl, rfl, ?halfCarry, ?carry⟩
  case halfCarry =>
    have carries := carries_and_mask base (signExtend offset) 0x10 4 (by decide) rfl
    exact carries.trans (by omega)
  case carry =>
    have carries := carries_and_mask base (signExtend offset) 0x100 8 (by decide) rfl
    exact carries.trans (by omega)

theorem addWords_column (left right : UInt16) (flags : Flags) :
    (addWords left right flags).1.toNat + 0x10000 * (addWords left right flags).2.carry.toNat =
      left.toNat + right.toNat := by
  have first := left.toNat_lt
  have second := right.toNat_lt
  simp only [addWords, UInt16.toNat_add]
  by_cases overflows : 0x10000 ≤ left.toNat + right.toNat
  · simp only [overflows, decide_true, Bool.toNat_true]
    omega
  · simp only [overflows, decide_false, Bool.toNat_false]
    omega

end Alu

/-- The byte that names the sum of HL and a pair. -/
def Opcode.addHL : Pair → UInt8
  | .bc => 0x09
  | .de => 0x19
  | .hl => 0x29
  | .sp => 0x39

namespace Machine

variable {machine : Machine}

theorem pair_passByte (machine : Machine) (source : Pair) :
    machine.passByte.pair source = machine.pair source := by
  cases source <;> simp only [pair, registers_passByte] <;> rfl

theorem registers_of_addHL {source : Pair} (named : machine.read machine.pc = Opcode.addHL source) :
    let sum := Alu.addWords machine.registers.hl (machine.pair source) machine.flags
    machine.step.2.registers =
      { machine.registers.setHL sum.1 with flags := sum.2, pc := machine.passByte.pc } := by
  intro sum
  have opcode : Opcode.ofByte (machine.read machine.pc) = .plain (.addHL source) := by
    rw [named]
    cases source <;> decide +kernel
  have passed := machine.registers_passByte
  have added : Alu.addWords machine.passByte.registers.hl (machine.passByte.pair source)
      machine.passByte.flags = sum := by
    rw [pair_passByte, flags_passByte, passed]
    rfl
  rw [step_of_plain opcode, registers_completes, execute, added]
  change { machine.passByte.registers.setHL sum.1 with flags := sum.2 } = _
  rw [passed]
  rfl

/-- The signed byte behind an opcode of one byte. -/
def offset (machine : Machine) : UInt8 := machine.passByte.read machine.passByte.pc

/-- SP moved by that byte, for both instructions that do so. -/
theorem stackOffset_passByte (machine : Machine) :
    let moved := Alu.addSigned machine.registers.sp machine.offset
    machine.passByte.stackOffset = (moved.1, machine.passByte.passByte.setFlags moved.2) := by
  have sp : machine.passByte.passByte.registers.sp = machine.registers.sp := by
    rw [registers_passByte, registers_passByte]
  dsimp only [stackOffset, nextByte]
  rw [sp]
  rfl

theorem registers_of_addSP (named : machine.read machine.pc = 0xe8) :
    let moved := Alu.addSigned machine.registers.sp machine.offset
    machine.step.2.registers =
      { machine.registers with
        sp := moved.1, flags := moved.2, pc := machine.passByte.passByte.pc } := by
  intro moved
  have opcode : Opcode.ofByte (machine.read machine.pc) = .plain .addSP := by
    rw [named]
    decide +kernel
  rw [step_of_plain opcode, registers_completes, execute, stackOffset_passByte]
  change { machine.passByte.passByte.registers with flags := moved.2, sp := moved.1 } = _
  rw [registers_passByte, registers_passByte]

theorem registers_of_loadHLSP (named : machine.read machine.pc = 0xf8) :
    let moved := Alu.addSigned machine.registers.sp machine.offset
    machine.step.2.registers =
      { machine.registers.setHL moved.1 with
        flags := moved.2, pc := machine.passByte.passByte.pc } := by
  intro moved
  have opcode : Opcode.ofByte (machine.read machine.pc) = .plain .loadHLSP := by
    rw [named]
    decide +kernel
  rw [step_of_plain opcode, registers_completes, execute, stackOffset_passByte]
  change { machine.passByte.passByte.registers.setHL moved.1 with flags := moved.2 } = _
  rw [registers_passByte, registers_passByte]
  rfl

/-- Sums of words, on any machine that stands at one: the result, all four flags, and that no other
register changes but the program counter. `hl`: HL and a pair, which may be HL itself. `sp`,
`address`: SP and the signed byte behind the opcode, into SP and into HL. The flags of a signed byte
are those of the unsigned sum of the low bytes. -/
theorem word_sums_exact (machine : Machine) :
    let opcode := machine.read machine.pc
    let before := machine.registers
    let after := machine.step.2.registers
    (∀ source, opcode = Opcode.addHL source →
      let hl := before.hl.toNat
      let operand := (machine.pair source).toNat
      after.hl.toNat + 0x10000 * after.flags.carry.toNat = hl + operand ∧
        (after.flags.halfCarry = true ↔ 0x1000 ≤ hl % 0x1000 + operand % 0x1000) ∧
        after.flags.subtract = false ∧ after.flags.zero = before.flags.zero ∧
        after = { before.setHL after.hl with flags := after.flags, pc := after.pc }) ∧
    (opcode = 0xe8 →
      Alu.IsMoved before.sp machine.offset after.sp after.flags ∧
        after = { before with sp := after.sp, flags := after.flags, pc := after.pc }) ∧
    (opcode = 0xf8 →
      Alu.IsMoved before.sp machine.offset after.hl after.flags ∧ after.sp = before.sp ∧
        after = { before.setHL after.hl with flags := after.flags, pc := after.pc }) := by
  intro opcode before after
  refine ⟨?hl, ?sp, ?address⟩
  case hl =>
    intro source named hl operand
    have added : after = _ := registers_of_addHL named
    have sum : after.hl = (Alu.addWords before.hl (machine.pair source) before.flags).1 := by
      rw [added]
      exact before.hl_setHL _
    have flags : after.flags = (Alu.addWords before.hl (machine.pair source) before.flags).2 :=
      congrArg Registers.flags added
    rw [flags, sum]
    refine ⟨Alu.addWords_column _ _ _, decide_eq_true_iff, rfl, rfl, ?_⟩
    rw [added]
    rfl
  case sp =>
    intro named
    have moved : after = _ := registers_of_addSP named
    rw [moved]
    exact ⟨Alu.isMoved_addSigned before.sp machine.offset, rfl⟩
  case address =>
    intro named
    have moved : after = _ := registers_of_loadHLSP named
    have sum : after.hl = (Alu.addSigned before.sp machine.offset).1 := by
      rw [moved]
      exact before.hl_setHL _
    rw [sum, moved]
    exact ⟨Alu.isMoved_addSigned before.sp machine.offset, rfl, rfl⟩

/-- From HL at 014d and SP at fffe: SP added to HL carries out of both bits, SP moved back by one
carries out of both low bits, and one above SP, put into HL, carries out of neither. -/
theorem word_sums_exact_carrying :
    let adding := loaded #[0x39]
    let moving := loaded #[0xe8, 0xff]
    let pointing := loaded #[0xf8, 0x01]
    (adding.read adding.pc = Opcode.addHL .sp ∧ adding.step.2.registers.hl = 0x014b ∧
        adding.step.2.registers.flags.carry = true ∧
        adding.step.2.registers.flags.halfCarry = true) ∧
      (moving.read moving.pc = 0xe8 ∧ moving.step.2.registers.sp = 0xfffd ∧
        moving.step.2.registers.flags.carry = true ∧
        moving.step.2.registers.flags.halfCarry = true) ∧
      pointing.read pointing.pc = 0xf8 ∧ pointing.step.2.registers.hl = 0xffff ∧
        ¬pointing.step.2.registers.flags.carry = true ∧ pointing.step.2.registers.sp = 0xfffe := by
  intro adding moving pointing
  refine ⟨?hl, ?sp, ?address⟩
  case hl =>
    have named : adding.read adding.pc = Opcode.addHL .sp := by decide +kernel
    have operands : adding.registers.hl.toNat = 0x014d ∧ (adding.pair .sp).toNat = 0xfffe := by
      decide +kernel
    obtain ⟨sum, halfCarry, _⟩ := (word_sums_exact adding).1 .sp named
    rw [operands.1, operands.2] at sum halfCarry
    have low := adding.step.2.registers.hl.toNat_lt
    have carries : adding.step.2.registers.flags.carry = true := by
      cases carry : adding.step.2.registers.flags.carry
      · rw [carry, Bool.toNat_false] at sum
        omega
      · rfl
    rw [carries, Bool.toNat_true] at sum
    have result : adding.step.2.registers.hl.toNat = (0x014b : UInt16).toNat :=
      Nat.add_right_cancel (sum.trans (by decide))
    exact ⟨named, UInt16.toNat_inj.mp result, carries, halfCarry.mpr (by decide)⟩
  case sp =>
    have named : moving.read moving.pc = 0xe8 := by decide +kernel
    have operands : moving.registers.sp = 0xfffe ∧ moving.offset = 0xff := by decide +kernel
    obtain ⟨moved, _⟩ := (word_sums_exact moving).2.1 named
    rw [operands.1, operands.2] at moved
    have result : moving.step.2.registers.sp.toNat = (0xfffd : UInt16).toNat :=
      Int.ofNat_inj.mp (moved.sum.trans (by decide))
    exact ⟨named, UInt16.toNat_inj.mp result, moved.carry.mpr (by decide),
      moved.halfCarry.mpr (by decide)⟩
  case address =>
    have named : pointing.read pointing.pc = 0xf8 := by decide +kernel
    have operands : pointing.registers.sp = 0xfffe ∧ pointing.offset = 0x01 := by decide +kernel
    obtain ⟨moved, kept, _⟩ := (word_sums_exact pointing).2.2 named
    rw [operands.1, operands.2] at moved
    have result : pointing.step.2.registers.hl.toNat = (0xffff : UInt16).toNat :=
      Int.ofNat_inj.mp (moved.sum.trans (by decide))
    exact ⟨named, UInt16.toNat_inj.mp result,
      fun carry => absurd (moved.carry.mp carry) (by decide), kept.trans operands.1⟩

end Machine

end Handheld
