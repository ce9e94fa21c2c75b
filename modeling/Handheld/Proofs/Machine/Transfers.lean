import Handheld.Proofs.Machine.Operands
import Handheld.Proofs.Machine.Stores
import Handheld.Proofs.Machine.Timing

/-!
# Jumps, calls and returns

Only these instructions move the program counter anywhere but past themselves, and beside that they
do no more than leave an address on the stack or take one from it. A conditional one does what its
unconditional counterpart does, or nothing.
-/
namespace Handheld

namespace Instruction

/-- The instruction without its condition. -/
def unconditional (instruction : Instruction) : Instruction :=
  match instruction with
  | jump _ => jump .always
  | jumpRelative _ => jumpRelative .always
  | call _ => call .always
  | ret _ => ret .always
  | other => other

/-- Whether an instruction may move the program counter anywhere but past itself. -/
def branches (instruction : Instruction) : Bool :=
  match instruction with
  | jump _ | jumpRelative _ | jumpHL | call _ | ret _ | returnEnable | restart _ => true
  | _ => false

/-- Clocks that looking at the condition takes: none where operand bytes are fetched anyway. -/
def conditionClocks (instruction : Instruction) : Nat :=
  match instruction with
  | ret _ => 4
  | _ => 0

/-- The condition is part of the opcode, so both have their operand in the same bytes. -/
theorem operandBytes_unconditional (instruction : Instruction) :
    instruction.unconditional.operandBytes = instruction.operandBytes := by
  cases instruction <;> rfl

/-- A transfer that is made costs what the unconditional one costs; only a conditional return also
pays for the look at the flags. -/
theorem clocks_unconditional {instruction : Instruction} {flags : Flags}
    (conditional : instruction.condition ≠ .always)
    (holds : instruction.condition.holds flags = true) :
    instruction.clocks flags =
      instruction.unconditional.clocks flags + instruction.conditionClocks := by
  rw [clocks, clocks, taken_eq_holds, holds]
  cases instruction with
  | jump _ | jumpRelative _ | call _ => rfl
  | ret condition =>
    cases condition with
    | always => exact absurd rfl conditional
    | _ => rfl
  | _ => exact absurd rfl conditional

end Instruction

namespace Opcode

/-- The opcodes that move the program counter anywhere but past themselves. -/
def transfers : List (UInt8 × Instruction) :=
  [(0x18, .jumpRelative .always), (0x20, .jumpRelative .nonzero), (0x28, .jumpRelative .zero),
   (0x30, .jumpRelative .noCarry), (0x38, .jumpRelative .carry),
   (0xc3, .jump .always), (0xc2, .jump .nonzero), (0xca, .jump .zero),
   (0xd2, .jump .noCarry), (0xda, .jump .carry), (0xe9, .jumpHL),
   (0xcd, .call .always), (0xc4, .call .nonzero), (0xcc, .call .zero),
   (0xd4, .call .noCarry), (0xdc, .call .carry),
   (0xc9, .ret .always), (0xc0, .ret .nonzero), (0xc8, .ret .zero),
   (0xd0, .ret .noCarry), (0xd8, .ret .carry), (0xd9, .returnEnable),
   (0xc7, .restart 0x00), (0xcf, .restart 0x08), (0xd7, .restart 0x10), (0xdf, .restart 0x18),
   (0xe7, .restart 0x20), (0xef, .restart 0x28), (0xf7, .restart 0x30), (0xff, .restart 0x38)]

/-- The list of opcodes and the kind of the instruction say the same, byte by byte. -/
theorem transfers_of_plain {byte : UInt8} {instruction : Instruction}
    (named : ofByte byte = .plain instruction) :
    transfers.lookup byte = if instruction.branches then some instruction else none := by
  refine forall_plain ?_ byte instruction named
  decide +kernel

theorem branches_ofSecondByte (second : UInt8) :
    (Instruction.ofSecondByte second).branches = false := by
  revert second
  refine forall_byte ?_
  decide +kernel

end Opcode

/-! ## The sum of an address and a signed byte -/

theorem toNat_signExtend (offset : UInt8) :
    ((signExtend offset).toNat : Int) = offset.toInt8.toInt % 0x10000 := by
  revert offset
  exact forall_byte (by decide +kernel)

/-- The target of a relative jump, as a number: the byte is added with its sign and the sum
wraps. -/
theorem toNat_add_signExtend (base : UInt16) (offset : UInt8) :
    ((base + signExtend offset).toNat : Int) =
      (base.toNat + offset.toInt8.toInt) % 0x10000 := by
  rw [UInt16.toNat_add]
  have offset := toNat_signExtend offset
  omega

namespace Machine

/-! ## Control transfers -/

/-- The word behind the opcode, low byte first. -/
def immediate (machine : Machine) : UInt16 :=
  word (machine.read (machine.pc + 2)) (machine.read (machine.pc + 1))

/-- Where an instruction at the program counter goes, if not to the next one. -/
def destination? (machine : Machine) (instruction : Instruction) : Option UInt16 :=
  if instruction.condition.holds machine.flags then
    match instruction with
    | .jump _ | .call _ => some machine.immediate
    | .jumpRelative _ => some (machine.pc + 2 + signExtend (machine.read (machine.pc + 1)))
    | .jumpHL => some machine.registers.hl
    | .ret _ | .returnEnable => some (machine.bus.readWord machine.registers.sp)
    | .restart vector => some vector
    | _ => none
  else none

theorem destination?_of_not_branches {instruction : Instruction}
    (stays : instruction.branches = false) (machine : Machine) :
    machine.destination? instruction = none := by
  unfold destination?
  cases instruction with
  | jump _ | jumpRelative _ | jumpHL | call _ | ret _ | returnEnable | restart _ => cases stays
  | _ => exact ite_self none

/-- Goes to `target` as the instruction does: calls leave the program counter on the stack, returns
take a word from it. -/
def arrive (machine : Machine) (instruction : Instruction) (target : UInt16) : Machine :=
  match instruction with
  | .call _ | .restart _ => machine.enter target
  | .ret _ => machine.pop.2.setPC target
  | .returnEnable => (machine.pop.2.setPC target).enableInterrupts
  | _ => machine.setPC target

/-- What that stores. -/
def arriveStores (machine : Machine) (instruction : Instruction) : List (UInt16 × UInt8) :=
  match instruction with
  | .call _ | .restart _ => machine.pushStores machine.pc
  | _ => []

/-- The operand of a jump, read before it runs. The addresses of its bytes wrap like any. -/
theorem immediate_eq_readWord (machine : Machine) :
    machine.immediate = machine.bus.readWord (machine.pc + 1) := by
  have sum : machine.pc + 1 + 1 = machine.pc + 2 := UInt16.add_assoc machine.pc 1 1
  rw [Bus.readWord, sum]
  rfl

/-- Whatever it leaves on the stack or takes from it, a transfer arrives at its target. -/
theorem pc_arrive (machine : Machine) (instruction : Instruction) (target : UInt16) :
    (machine.arrive instruction target).pc = target := by
  cases instruction <;> rfl

/-- Of the bus a transfer changes the two bytes of a return address at most. -/
theorem bus_arrive (machine : Machine) (instruction : Instruction) (target : UInt16) :
    (machine.arrive instruction target).bus =
      machine.bus.stores (machine.arriveStores instruction) := by
  cases instruction <;> rfl

theorem arrive_unconditional (machine : Machine) (instruction : Instruction) (target : UInt16) :
    machine.arrive instruction.unconditional target = machine.arrive instruction target := by
  cases instruction <;> rfl

/-- What a transfer makes of the processor depends on the processor alone. Two machines that stand
at the same transfer may have different memories. -/
theorem cpu_arrive_congr {first second : Machine} (same : first.cpu = second.cpu)
    (instruction : Instruction) (target : UInt16) :
    (first.arrive instruction target).cpu = (second.arrive instruction target).cpu := by
  obtain ⟨cpu, bus⟩ := first
  cases same
  cases instruction <;> rfl

theorem arriveStores_congr {first second : Machine} (same : first.cpu = second.cpu)
    (instruction : Instruction) :
    first.arriveStores instruction = second.arriveStores instruction := by
  obtain ⟨cpu, bus⟩ := first
  cases same
  cases instruction <;> rfl

/-- A conditional instruction whose condition holds goes somewhere. -/
theorem exists_destination {machine : Machine} {instruction : Instruction}
    (conditional : instruction.condition ≠ .always)
    (holds : instruction.condition.holds machine.flags = true) :
    ∃ target, machine.destination? instruction = some target := by
  unfold destination?
  rw [if_pos holds]
  cases instruction with
  | jump _ | jumpRelative _ | call _ | ret _ => exact ⟨_, rfl⟩
  | _ => exact absurd rfl conditional

/-- An instruction that goes anywhere does nothing else. -/
theorem effect_of_destination {machine : Machine} {instruction : Instruction} {target : UInt16}
    (goes : machine.destination? instruction = some target) :
    (machine.skip (1 + instruction.operandBytes)).effect instruction machine.immediate =
      (machine.skip (1 + instruction.operandBytes)).arrive instruction target := by
  unfold destination? at goes
  split at goes
  · rename_i holds
    cases instruction with
    | jump _ | call _ =>
      cases goes
      exact if_pos holds
    | jumpRelative _ =>
      cases goes
      have low : lowByte machine.immediate = machine.read (machine.pc + 1) := lowByte_word _ _
      rw [← low]
      exact if_pos holds
    | ret _ =>
      cases goes
      exact if_pos holds
    | jumpHL | returnEnable | restart _ =>
      cases goes
      rfl
    | _ => cases goes
  · cases goes

/-- An instruction whose condition does not hold does nothing. -/
theorem effect_of_fails {machine : Machine} {instruction : Instruction}
    (fails : instruction.condition.holds machine.flags = false) (operand : UInt16) :
    machine.effect instruction operand = machine := by
  have not : ¬ instruction.condition.holds machine.flags = true := by
    rw [fails]
    exact Bool.false_ne_true
  cases instruction with
  | jump _ | jumpRelative _ | call _ | ret _ => exact if_neg not
  | _ => cases fails

/-- One whose condition holds does what it does unconditionally. -/
theorem effect_unconditional {machine : Machine} {instruction : Instruction}
    (holds : instruction.condition.holds machine.flags = true) (operand : UInt16) :
    machine.effect instruction.unconditional operand = machine.effect instruction operand := by
  cases instruction with
  | jump _ | jumpRelative _ | call _ | ret _ => exact (if_pos holds).symm
  | _ => rfl

/-! ## Every other instruction leaves the program counter to the fetches -/

/-- The lemmas of this section let `simp` follow the program counter through an instruction. -/
@[simp] theorem pc_setA (machine : Machine) (value : UInt8) :
    (machine.setA value).pc = machine.pc := rfl

@[simp] theorem pc_setFlags (machine : Machine) (flags : Flags) :
    (machine.setFlags flags).pc = machine.pc := rfl

@[simp] theorem pc_write (machine : Machine) (address : UInt16) (value : UInt8) :
    (machine.write address value).pc = machine.pc := rfl

@[simp] theorem pc_push (machine : Machine) (value : UInt16) :
    (machine.push value).pc = machine.pc := rfl

@[simp] theorem pc_setOperand (machine : Machine) (target : Operand) (value : UInt8) :
    (machine.setOperand target value).pc = machine.pc := by
  cases target <;> rfl

@[simp] theorem pc_setResult (machine : Machine) (target : Operand) (result : UInt8 × Flags) :
    (machine.setResult target result).pc = machine.pc :=
  machine.pc_setOperand target result.1

@[simp] theorem pc_setPair (machine : Machine) (target : Pair) (value : UInt16) :
    (machine.setPair target value).pc = machine.pc := by
  cases target <;> rfl

@[simp] theorem pc_setStackPair (machine : Machine) (target : StackPair) (value : UInt16) :
    (machine.setStackPair target value).pc = machine.pc := by
  cases target <;> rfl

@[simp] theorem pc_stepPointer (machine : Machine) (used : Pointer) :
    (machine.stepPointer used).pc = machine.pc := by
  cases used <;> rfl

/-- HALT may have the next fetch repeated, which shows in the next step only. -/
@[simp] theorem pc_halt (machine : Machine) : machine.halt.pc = machine.pc := by
  unfold halt
  split <;> rfl

/-- One case for each instruction that goes nowhere: the program counter stays behind its bytes. -/
theorem pc_effect_of_no_destination {machine : Machine} {instruction : Instruction}
    (stays : machine.destination? instruction = none) (bytes : Nat) (operand : UInt16) :
    ((machine.skip bytes).effect instruction operand).pc = (machine.skip bytes).pc := by
  by_cases holds : instruction.condition.holds machine.flags = true
  · unfold destination? at stays
    rw [if_pos holds] at stays
    cases instruction with
    | stop =>
      simp only [effect]
      split <;> rfl
    | jump _ | jumpRelative _ | call _ | ret _ | jumpHL | returnEnable | restart _ => cases stays
    | pop target => exact pc_setStackPair _ target _
    | disableInterrupts | enableInterrupts | storeSP => rfl
    | _ => simp [effect, execute, rotateA, shift, testBit, resetBit, setBit]
  · rw [Bool.not_eq_true] at holds
    have idle : instruction.condition.holds (machine.skip bytes).flags = false := holds
    rw [effect_of_fails idle]

end Machine

end Handheld
