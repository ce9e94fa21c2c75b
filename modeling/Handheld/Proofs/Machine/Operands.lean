import Handheld.Proofs.Machine.Fetch

/-!
# Operand bytes

An instruction reads its operand bytes while it runs. Here they are read first: an instruction takes
a fixed number of bytes, and what it then does, `effect`, depends on the word that they make and on
nothing else behind the opcode. `execute_eq_effect` says that running it comes to the same, as long
as no byte is to be fetched twice.
-/
namespace Handheld

/-- Bytes that follow the opcode. The one behind STOP is padding. -/
def Instruction.operandBytes (instruction : Instruction) : Nat :=
  match instruction with
  | loadWord _ | loadAFrom | storeATo | storeSP | jump _ | call _ => 2
  | stop | loadByte _ | loadAHigh | storeAHigh | loadHLSP | addSP | arithmeticByte _ |
    jumpRelative _ => 1
  | _ => 0

theorem Instruction.operandBytes_le (instruction : Instruction) :
    instruction.operandBytes ≤ 2 := by
  unfold operandBytes
  split <;> decide

namespace Machine

/-- What an instruction does on a machine that has passed it, operand bytes included. Those that
take one byte take the low byte of the operand. -/
def effect (machine : Machine) (instruction : Instruction) (operand : UInt16) : Machine :=
  let byte := lowByte operand
  match instruction with
  | .stop =>
    match machine.bus.switchSpeed with
    | (true, bus) => { machine with bus }
    | (false, bus) => { machine with bus, cpu := { machine.cpu with halted := true } }
  | .loadByte target => machine.setOperand target byte
  | .loadWord target => machine.setPair target operand
  | .loadAFrom => machine.setA (machine.read operand)
  | .storeATo => machine.write operand machine.registers.a
  | .loadAHigh => machine.setA (machine.read (highPage byte))
  | .storeAHigh => machine.write (highPage byte) machine.registers.a
  | .storeSP => { machine with bus := machine.bus.writeWord operand machine.registers.sp }
  | .loadHLSP =>
    let (result, flags) := Alu.addSigned machine.registers.sp byte
    (machine.setFlags flags).setPair .hl result
  | .addSP =>
    let (result, flags) := Alu.addSigned machine.registers.sp byte
    (machine.setFlags flags).setPair .sp result
  | .arithmeticByte operation =>
    machine.setResult .a (operation.apply machine.registers.a byte machine.flags)
  | .jump condition =>
    if condition.holds machine.flags then machine.setPC operand else machine
  | .jumpRelative condition =>
    if condition.holds machine.flags then machine.setPC (machine.pc + signExtend byte) else machine
  | .call condition =>
    if condition.holds machine.flags then machine.enter operand else machine
  | _ => machine.execute instruction

/-- What lies behind an instruction without operand bytes is nothing to it. -/
theorem effect_of_bare {instruction : Instruction} (bare : instruction.operandBytes = 0)
    (machine : Machine) (first second : UInt16) :
    machine.effect instruction first = machine.effect instruction second := by
  cases instruction with
  | stop | loadByte _ | loadWord _ | loadAFrom | storeATo | loadAHigh | storeAHigh | storeSP |
    loadHLSP | addSP | arithmeticByte _ | jump _ | jumpRelative _ | call _ => cases bare
  | _ => rfl

/-- Moves past so many bytes. -/
def skip (machine : Machine) (bytes : Nat) : Machine :=
  machine.setPC (machine.pc + UInt16.ofNat bytes)

theorem skip_skip (machine : Machine) (first second : Nat) :
    (machine.skip first).skip second = machine.skip (first + second) := by
  have sum : machine.pc + UInt16.ofNat first + UInt16.ofNat second =
      machine.pc + UInt16.ofNat (first + second) := by
    rw [UInt16.add_assoc, UInt16.ofNat_add]
  exact congrArg machine.setPC sum

theorem skip_zero (machine : Machine) : machine.skip 0 = machine :=
  congrArg machine.setPC (UInt16.add_zero machine.pc)

section

variable {machine : Machine} (advances : machine.cpu.repeatFetch = false)
include advances

theorem passByte_of_advances : machine.passByte = machine.skip 1 := by
  unfold passByte
  rw [advances]
  rfl

theorem nextByte_of_advances : machine.nextByte = (machine.read machine.pc, machine.skip 1) := by
  rw [nextByte, passByte_of_advances advances]

/-- An operand word has its low byte first; the address of the high one may wrap. -/
theorem nextWord_of_advances :
    machine.nextWord = (machine.bus.readWord machine.pc, machine.skip 2) := by
  have second : (machine.skip 1).cpu.repeatFetch = false := advances
  rw [nextWord, nextByte_of_advances advances]
  dsimp only
  rw [nextByte_of_advances second, skip_skip]
  rfl

/-- An instruction passes its operand bytes, which lie low byte first, and then does what it does
with them. -/
theorem execute_eq_effect (instruction : Instruction) :
    machine.execute instruction =
      (machine.skip instruction.operandBytes).effect instruction
        (machine.bus.readWord machine.pc) := by
  have byte := nextByte_of_advances advances
  have word := nextWord_of_advances advances
  have low : lowByte (machine.bus.readWord machine.pc) = machine.read machine.pc :=
    lowByte_word _ _
  cases instruction with
  | stop =>
    simp only [execute, stop, passByte_of_advances advances]
    rfl
  | loadByte _ | loadAHigh | storeAHigh | arithmeticByte _ =>
    simp only [execute, effect, byte, low, Instruction.operandBytes]
  | loadHLSP | addSP =>
    simp only [execute, effect, stackOffset, byte, low, Instruction.operandBytes]
  | loadWord _ | loadAFrom | storeATo =>
    simp only [execute, effect, word, Instruction.operandBytes]
  | storeSP =>
    simp only [execute, effect, word, Instruction.operandBytes]
    rfl
  | jumpRelative condition =>
    simp only [execute, effect, jumpRelative, byte, low, Instruction.operandBytes]
    rfl
  | jump condition =>
    simp only [execute, effect, jump, word, Instruction.operandBytes]
    rfl
  | call condition =>
    simp only [execute, effect, call, word, Instruction.operandBytes]
    rfl
  | _ =>
    simp only [Instruction.operandBytes, skip_zero]
    rfl

end

end Machine

end Handheld
