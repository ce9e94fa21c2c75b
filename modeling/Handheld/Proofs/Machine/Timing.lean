import Handheld.Proofs.Machine.Fields
import Handheld.Proofs.Machine.Operands

/-!
# Lengths and costs of opcodes

The tables of the processor's data sheet, keyed by bytes and sixteen entries to a row: how many
bytes an instruction has and how many machine cycles it takes. The map from bytes to instructions
and the costs of instructions, put together, give the same numbers.
-/
namespace Handheld

/-- The condition of a two-bit code. -/
def Condition.ofCode (code : UInt8) : Condition :=
  match code with
  | 0 => nonzero
  | 1 => zero
  | 2 => noCarry
  | _ => carry

namespace Instruction

/-- The condition under which an instruction does what its name says. -/
def condition (instruction : Instruction) : Condition :=
  match instruction with
  | jump condition | jumpRelative condition | call condition | ret condition => condition
  | _ => .always

theorem taken_eq_holds (instruction : Instruction) (flags : Flags) :
    instruction.taken flags = instruction.condition.holds flags := by
  cases instruction <;> rfl

end Instruction

namespace Opcode

/-- The bytes of an instruction, by the first of them. Zeros stand for bytes that name none. -/
def lengths : List Nat :=
  [1, 3, 1, 1, 1, 1, 2, 1, 3, 1, 1, 1, 1, 1, 2, 1,
   2, 3, 1, 1, 1, 1, 2, 1, 2, 1, 1, 1, 1, 1, 2, 1,
   2, 3, 1, 1, 1, 1, 2, 1, 2, 1, 1, 1, 1, 1, 2, 1,
   2, 3, 1, 1, 1, 1, 2, 1, 2, 1, 1, 1, 1, 1, 2, 1,
   1, 1, 1, 1, 1, 1, 1, 1, 1, 1, 1, 1, 1, 1, 1, 1,
   1, 1, 1, 1, 1, 1, 1, 1, 1, 1, 1, 1, 1, 1, 1, 1,
   1, 1, 1, 1, 1, 1, 1, 1, 1, 1, 1, 1, 1, 1, 1, 1,
   1, 1, 1, 1, 1, 1, 1, 1, 1, 1, 1, 1, 1, 1, 1, 1,
   1, 1, 1, 1, 1, 1, 1, 1, 1, 1, 1, 1, 1, 1, 1, 1,
   1, 1, 1, 1, 1, 1, 1, 1, 1, 1, 1, 1, 1, 1, 1, 1,
   1, 1, 1, 1, 1, 1, 1, 1, 1, 1, 1, 1, 1, 1, 1, 1,
   1, 1, 1, 1, 1, 1, 1, 1, 1, 1, 1, 1, 1, 1, 1, 1,
   1, 1, 3, 3, 3, 1, 2, 1, 1, 1, 3, 2, 3, 3, 2, 1,
   1, 1, 3, 0, 3, 1, 2, 1, 1, 1, 3, 0, 3, 0, 2, 1,
   2, 1, 1, 0, 0, 1, 2, 1, 2, 1, 3, 0, 0, 0, 2, 1,
   2, 1, 1, 1, 0, 1, 2, 1, 2, 1, 3, 1, 0, 0, 2, 1]

/-- Machine cycles of the first page. Conditional instructions stand here with the cost that they
have when the condition does not hold. -/
def costs : List Nat :=
  [1, 3, 2, 2, 1, 1, 2, 1, 5, 2, 2, 2, 1, 1, 2, 1,
   1, 3, 2, 2, 1, 1, 2, 1, 3, 2, 2, 2, 1, 1, 2, 1,
   2, 3, 2, 2, 1, 1, 2, 1, 2, 2, 2, 2, 1, 1, 2, 1,
   2, 3, 2, 2, 3, 3, 3, 1, 2, 2, 2, 2, 1, 1, 2, 1,
   1, 1, 1, 1, 1, 1, 2, 1, 1, 1, 1, 1, 1, 1, 2, 1,
   1, 1, 1, 1, 1, 1, 2, 1, 1, 1, 1, 1, 1, 1, 2, 1,
   1, 1, 1, 1, 1, 1, 2, 1, 1, 1, 1, 1, 1, 1, 2, 1,
   2, 2, 2, 2, 2, 2, 1, 2, 1, 1, 1, 1, 1, 1, 2, 1,
   1, 1, 1, 1, 1, 1, 2, 1, 1, 1, 1, 1, 1, 1, 2, 1,
   1, 1, 1, 1, 1, 1, 2, 1, 1, 1, 1, 1, 1, 1, 2, 1,
   1, 1, 1, 1, 1, 1, 2, 1, 1, 1, 1, 1, 1, 1, 2, 1,
   1, 1, 1, 1, 1, 1, 2, 1, 1, 1, 1, 1, 1, 1, 2, 1,
   2, 3, 3, 4, 3, 4, 2, 4, 2, 4, 3, 0, 3, 6, 2, 4,
   2, 3, 3, 0, 3, 4, 2, 4, 2, 4, 3, 0, 3, 0, 2, 4,
   3, 3, 2, 0, 0, 4, 2, 4, 4, 1, 4, 0, 0, 0, 2, 4,
   3, 3, 2, 1, 0, 4, 2, 4, 3, 2, 4, 1, 0, 0, 2, 4]

/-- Machine cycles of the conditional instructions when the condition holds. -/
def takenCosts : List (UInt8 × Nat) :=
  [(0x20, 3), (0x28, 3), (0x30, 3), (0x38, 3),
   (0xc0, 5), (0xc8, 5), (0xd0, 5), (0xd8, 5),
   (0xc2, 4), (0xca, 4), (0xd2, 4), (0xda, 4),
   (0xc4, 6), (0xcc, 6), (0xd4, 6), (0xdc, 6)]

/-- The bytes of an instruction, by the table. -/
def length (byte : UInt8) : Nat := lengths.getD byte.toNat 0

/-- Machine cycles of an instruction of the first page that starts with these flags. The two middle
bits of a conditional one name its condition. -/
def cost (byte : UInt8) (flags : Flags) : Nat :=
  match takenCosts.lookup byte with
  | some taken =>
    if (Condition.ofCode (row byte &&& 3)).holds flags then taken else costs.getD byte.toNat 0
  | none => costs.getD byte.toNat 0

/-- Machine cycles of an instruction of the second page. The last three bits name the operand, and 6
is the one in memory, which the sixteen rows of bit tests only read. -/
def extendedCost (byte : UInt8) : Nat :=
  if column byte = 6 then (if 0x40 ≤ byte ∧ byte < 0x80 then 3 else 4) else 2

/-! ## The instructions have these numbers -/

/-- The instruction that a byte names by itself. -/
def instruction? (opcode : Opcode) : Option Instruction :=
  match opcode with
  | plain instruction => some instruction
  | _ => none

/-- What the entries of the map show for their instructions holds of every byte that names one. -/
@[elab_as_elim]
theorem forall_plain {property : UInt8 → Instruction → Prop}
    (entries : ∀ entry ∈ (lowerRows.map plain ++ upperRows).zipIdx,
      ∀ instruction ∈ entry.1.instruction?, property (UInt8.ofNat entry.2) instruction)
    (byte : UInt8) (instruction : Instruction) (named : ofByte byte = .plain instruction) :
    property byte instruction := by
  refine forall_ofByte
    (motive := fun byte opcode => ∀ instruction ∈ opcode.instruction?, property byte instruction)
    entries byte instruction ?_
  rw [named]
  rfl

/-- The lengths of the table are one opcode byte and the operand bytes. -/
theorem length_of_plain {byte : UInt8} {instruction : Instruction}
    (named : ofByte byte = .plain instruction) :
    1 + instruction.operandBytes = length byte := by
  refine forall_plain ?_ byte instruction named
  decide +kernel

/-- The condition and the two costs of an instruction, against the entries of its byte. -/
theorem costs_of_plain {byte : UInt8} {instruction : Instruction}
    (named : ofByte byte = .plain instruction) :
    (takenCosts.lookup byte = none ∧ instruction.condition = .always ∧
      instruction.cycles true = costs.getD byte.toNat 0) ∨
    (∃ taken ∈ takenCosts.lookup byte,
      instruction.condition = .ofCode (row byte &&& 3) ∧ instruction.cycles true = taken ∧
        instruction.cycles false = costs.getD byte.toNat 0) := by
  refine forall_plain ?_ byte instruction named
  decide +kernel

/-- The costs of the table are those of the instruction, with its condition fulfilled and
without. -/
theorem cost_of_plain {byte : UInt8} {instruction : Instruction}
    (named : ofByte byte = .plain instruction) (flags : Flags) :
    instruction.cycles (instruction.taken flags) = cost byte flags := by
  rw [cost, instruction.taken_eq_holds]
  rcases costs_of_plain named with ⟨single, always, same⟩ | ⟨taken, listed, condition, costs⟩
  · rw [single, always]
    exact same
  · rw [Option.mem_def.mp listed, condition]
    dsimp only
    split
    · rename_i holds
      rw [holds]
      exact costs.1
    · rename_i fails
      rw [Bool.not_eq_true] at fails
      rw [fails]
      exact costs.2

/-- The rule for the second page gives the costs of its instructions. No flags enter into them. -/
theorem cost_ofSecondByte (byte : UInt8) (flags : Flags) :
    (Instruction.ofSecondByte byte).cycles ((Instruction.ofSecondByte byte).taken flags) =
      extendedCost byte := by
  have always : ∀ byte, (Instruction.ofSecondByte byte).condition = .always ∧
      (Instruction.ofSecondByte byte).cycles true = extendedCost byte :=
    forall_byte (by decide +kernel)
  rw [Instruction.taken_eq_holds, (always byte).1]
  exact (always byte).2

theorem operandBytes_ofSecondByte (byte : UInt8) :
    (Instruction.ofSecondByte byte).operandBytes = 0 := by
  revert byte
  exact forall_byte (by decide +kernel)

theorem ofByte_eq_extended_iff (byte : UInt8) : ofByte byte = .extended ↔ byte = 0xcb := by
  refine forall_ofByte (motive := fun byte opcode => opcode = .extended ↔ byte = 0xcb) ?_ byte
  decide +kernel

theorem ne_prefix_of_plain {byte : UInt8} {instruction : Instruction}
    (named : ofByte byte = .plain instruction) : byte ≠ 0xcb := by
  intro extended
  rw [← ofByte_eq_extended_iff, named] at extended
  cases extended

end Opcode

namespace Machine

/-- Machine cycles that the tables give for the next step. -/
def tableCycles (machine : Machine) : Nat :=
  let opcode := machine.read machine.pc
  if opcode = 0xcb then Opcode.extendedCost (machine.read (machine.pc + 1))
  else Opcode.cost opcode machine.flags

end Machine

end Handheld
