import Handheld.Cpu.Alu

/-!
# Instructions

An instruction names an operation and the places it works on. Operand bytes that follow the opcode
are not part of it: they are read when it runs. Costs are in machine cycles of four clocks.
-/
namespace Handheld

/-- A byte operand, in the order of its three-bit code. `atHL` is the byte that HL points to. -/
inductive Operand where
  | b | c | d | e | h | l | atHL | a
  deriving DecidableEq, Repr

/-- Register pairs of 16-bit loads and arithmetic. -/
inductive Pair where
  | bc | de | hl | sp
  deriving DecidableEq, Repr

/-- Register pairs that go on the stack. -/
inductive StackPair where
  | bc | de | hl | af
  deriving DecidableEq, Repr

/-- Pairs that point to a byte for A. The last two step HL afterwards. -/
inductive Pointer where
  | bc | de | hlUp | hlDown
  deriving DecidableEq, Repr

inductive Condition where
  | always | nonzero | zero | noCarry | carry
  deriving DecidableEq, Repr

def Condition.holds (condition : Condition) (flags : Flags) : Bool :=
  match condition with
  | always => true
  | nonzero => !flags.zero
  | zero => flags.zero
  | noCarry => !flags.carry
  | carry => flags.carry

inductive Instruction where
  | nop
  | stop
  | halt
  | disableInterrupts
  | enableInterrupts
  /-- Between two byte operands. -/
  | load (target source : Operand)
  /-- From the byte that follows. -/
  | loadByte (target : Operand)
  /-- From the word that follows. -/
  | loadWord (target : Pair)
  | loadA (source : Pointer)
  | storeA (target : Pointer)
  /-- A and the byte at the address that follows. -/
  | loadAFrom
  | storeATo
  /-- A and the byte of the last page at the offset that follows. -/
  | loadAHigh
  | storeAHigh
  /-- A and the byte of the last page at the offset in C. -/
  | loadAHighC
  | storeAHighC
  /-- SP to the address that follows. -/
  | storeSP
  | loadSPHL
  /-- HL from SP moved by the signed byte that follows. -/
  | loadHLSP
  | addSP
  | push (source : StackPair)
  | pop (target : StackPair)
  | arithmetic (operation : Arithmetic) (source : Operand)
  | arithmeticByte (operation : Arithmetic)
  | increment (target : Operand)
  | decrement (target : Operand)
  | incrementPair (target : Pair)
  | decrementPair (target : Pair)
  | addHL (source : Pair)
  /-- A rotation of A, which leaves the zero flag clear whatever the result. -/
  | rotateA (rotation : Shift)
  | decimalAdjust
  | complement
  | setCarry
  | complementCarry
  | jump (condition : Condition)
  | jumpHL
  | jumpRelative (condition : Condition)
  | call (condition : Condition)
  | ret (condition : Condition)
  | returnEnable
  | restart (vector : UInt16)
  | shift (operation : Shift) (target : Operand)
  | testBit (bit : Fin 8) (source : Operand)
  | resetBit (bit : Fin 8) (target : Operand)
  | setBit (bit : Fin 8) (target : Operand)
  deriving DecidableEq, Repr

/-- The two costs of an operation on a byte operand: in a register, and in memory. -/
def Operand.cost (operand : Operand) (register memory : Nat) : Nat :=
  if operand = atHL then memory else register

namespace Instruction

/-- Whether a conditional instruction takes its branch. The others always do. -/
def taken (instruction : Instruction) (flags : Flags) : Bool :=
  match instruction with
  | jump condition | jumpRelative condition | call condition | ret condition =>
    condition.holds flags
  | _ => true

/-- Machine cycles, given whether the branch is taken. -/
def cycles (instruction : Instruction) (taken : Bool) : Nat :=
  match instruction with
  | nop | stop | halt | disableInterrupts | enableInterrupts => 1
  | load target source => max (target.cost 1 2) (source.cost 1 2)
  | loadByte target => target.cost 2 3
  | loadWord _ => 3
  | loadA _ | storeA _ => 2
  | loadAFrom | storeATo => 4
  | loadAHigh | storeAHigh => 3
  | loadAHighC | storeAHighC => 2
  | storeSP => 5
  | loadSPHL => 2
  | loadHLSP => 3
  | addSP => 4
  | push _ => 4
  | pop _ => 3
  | arithmetic _ source => source.cost 1 2
  | arithmeticByte _ => 2
  | increment target | decrement target => target.cost 1 3
  | incrementPair _ | decrementPair _ | addHL _ => 2
  | rotateA _ | decimalAdjust | complement | setCarry | complementCarry => 1
  | jump _ => if taken then 4 else 3
  | jumpHL => 1
  | jumpRelative _ => if taken then 3 else 2
  | call _ => if taken then 6 else 3
  | ret .always => 4
  | ret _ => if taken then 5 else 2
  | returnEnable => 4
  | restart _ => 4
  | shift _ target => target.cost 2 4
  | testBit _ source => source.cost 2 3
  | resetBit _ target | setBit _ target => target.cost 2 4

/-- Clocks that the instruction takes when it starts with these flags. -/
def clocks (instruction : Instruction) (flags : Flags) : Nat :=
  4 * instruction.cycles (instruction.taken flags)

theorem cycles_pos (instruction : Instruction) (taken : Bool) : 0 < instruction.cycles taken := by
  cases instruction <;> simp only [cycles, Operand.cost] <;> (repeat' split) <;> decide

end Instruction

end Handheld
