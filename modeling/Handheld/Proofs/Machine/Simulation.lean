import Handheld.Proofs.Bus.Devices
import Handheld.Proofs.Machine.Stores

/-!
# Buses that no machine can tell apart

A relation of buses is a simulation if related buses read alike and stay related in each of the four
ways in which a bus changes. Then a machine cannot tell them apart: with the same processor, every
instruction and every service gives the same result on both sides and leaves them related. The
processor is followed here access by access, once for all such relations.
-/
namespace Handheld

/-- A relation that everything that can happen to two buses alike keeps. Its fields are the ways
in which a bus is read and changed; once they are shown of a relation, machines and rigs keep it
too. -/
structure Bus.Simulation (related : Bus → Bus → Prop) : Prop where
  color {left right : Bus} (same : related left right) : left.color = right.color
  devices {left right : Bus} (same : related left right) : left.devices = right.devices
  read {left right : Bus} (same : related left right) (address : UInt16) :
    left.read address = right.read address
  write {left right : Bus} (same : related left right) (address : UInt16) (value : UInt8) :
    related (left.write address value) (right.write address value)
  setIo {left right : Bus} (same : related left right) (cell : Nat) (value : UInt8) :
    related (left.setIo cell value) (right.setIo cell value)
  copyLineBlock {left right : Bus} (same : related left right) :
    related left.copyLineBlock right.copyLineBlock
  setDevices {left right : Bus} (same : related left right) (devices : Devices) :
    related (left.setDevices devices) (right.setDevices devices)

/-- The same processor on related buses. The processor needs no relation of its own, as nothing
outside the bus may differ. -/
structure Machine.Related (related : Bus → Bus → Prop) (left right : Machine) : Prop where
  cpu : left.cpu = right.cpu
  bus : related left.bus right.bus

namespace Machine.Related

theorem of_bus {related : Bus → Bus → Prop} {left right : Bus} (cpu : Processor)
    (bus : related left right) : Related related ⟨cpu, left⟩ ⟨cpu, right⟩ := ⟨rfl, bus⟩

variable {related : Bus → Bus → Prop} {left right : Machine} (same : Related related left right)
include same

theorem registers : left.registers = right.registers := congrArg Processor.registers same.cpu

theorem flags : left.flags = right.flags := congrArg Registers.flags same.registers

theorem pc : left.pc = right.pc := congrArg Registers.pc same.registers

/-- Of a pair of registers only the processor matters, so that no bus is asked. -/
theorem pair (source : Pair) : left.pair source = right.pair source := by
  unfold Machine.pair
  rw [same.registers]

theorem stackPair (source : StackPair) : left.stackPair source = right.stackPair source := by
  unfold Machine.stackPair
  rw [same.registers]

/-- The address that a pointer names is the same on both sides, though what stands there need not
be. -/
theorem pointer (used : Pointer) : left.pointer used = right.pointer used := by
  unfold Machine.pointer
  rw [same.registers]

theorem setProcessor {cpu other : Processor} (equal : cpu = other) :
    Related related { left with cpu } { right with cpu := other } := ⟨equal, same.bus⟩

theorem withRegisters (change : Registers → Registers) :
    Related related (left.withRegisters change) (right.withRegisters change) :=
  same.setProcessor (by rw [same.cpu])

theorem stepPointer (used : Pointer) :
    Related related (left.stepPointer used) (right.stepPointer used) := by
  cases used with
  | bc | de => exact same
  | hlUp | hlDown => exact same.withRegisters _

theorem passByte : Related related left.passByte right.passByte := by
  unfold Machine.passByte
  rw [← same.cpu, ← same.pc]
  split
  · exact same.setProcessor rfl
  · exact same.withRegisters _

theorem setPC (address : UInt16) :
    Related related (left.setPC address) (right.setPC address) := same.withRegisters _

theorem setA (value : UInt8) :
    Related related (left.setA value) (right.setA value) := same.withRegisters _

theorem setFlags (flags : Flags) :
    Related related (left.setFlags flags) (right.setFlags flags) := same.withRegisters _

theorem setPair (target : Pair) (value : UInt16) :
    Related related (left.setPair target value) (right.setPair target value) :=
  same.withRegisters _

theorem setStackPair (target : StackPair) (value : UInt16) :
    Related related (left.setStackPair target value) (right.setStackPair target value) :=
  same.withRegisters _

theorem settleEnable (wasPending : Bool) :
    Related related (left.settleEnable wasPending) (right.settleEnable wasPending) := by
  unfold Machine.settleEnable
  rw [same.cpu]
  split
  · exact same.setProcessor rfl
  · exact same

end Machine.Related

namespace Bus.Simulation

variable {related : Bus → Bus → Prop} (simulation : Simulation related)
include simulation

/-! ## Devices -/

/-- Operations of the devices look at nothing else, and so leave the buses as alike as they were. -/
theorem onDevices {operation : Bus → Bus} (alone : OnDevices operation) {left right : Bus}
    (same : related left right) : related (operation left) (operation right) := by
  obtain ⟨change, changed⟩ := alone
  rw [changed left, changed right, simulation.color same, simulation.devices same]
  exact simulation.setDevices same _

theorem interrupts {left right : Bus} (same : related left right) :
    left.interrupts = right.interrupts := congrArg Devices.interrupts (simulation.devices same)

theorem switched {left right : Bus} (same : related left right) :
    left.switchSpeed.1 = right.switchSpeed.1 := by
  rw [switched_eq, switched_eq, simulation.color same, simulation.devices same]

theorem readWord {left right : Bus} (same : related left right) (address : UInt16) :
    left.readWord address = right.readWord address := by
  rw [Bus.readWord, Bus.readWord, simulation.read same, simulation.read same]

/-- The stores of a list, one at a time. An upload and a push are such lists. -/
theorem stores {left right : Bus} (same : related left right) (bytes : List (UInt16 × UInt8)) :
    related (left.stores bytes) (right.stores bytes) := by
  induction bytes generalizing left right with
  | nil => exact same
  | cons byte rest ih => exact ih (simulation.write same byte.1 byte.2)

/-! ## Accesses -/

section Machines

variable {left right : Machine} (same : left.Related related right)
include same

theorem machine_read (address : UInt16) : left.read address = right.read address :=
  simulation.read same.bus address

theorem machine_write (address : UInt16) (value : UInt8) :
    (left.write address value).Related related (right.write address value) :=
  ⟨same.cpu, simulation.write same.bus address value⟩

theorem nextByte : left.nextByte.1 = right.nextByte.1 ∧
    left.nextByte.2.Related related right.nextByte.2 := by
  refine ⟨?_, same.passByte⟩
  rw [Machine.nextByte, Machine.nextByte, same.pc]
  exact simulation.machine_read same _

theorem nextWord : left.nextWord.1 = right.nextWord.1 ∧
    left.nextWord.2.Related related right.nextWord.2 := by
  obtain ⟨low, first⟩ := simulation.nextByte same
  obtain ⟨high, second⟩ := simulation.nextByte first
  unfold Machine.nextWord
  dsimp only
  rw [low, high]
  exact ⟨rfl, second⟩

/-- The two stores of a push go to the same addresses, as the stack pointers agree. -/
theorem push (value : UInt16) : (left.push value).Related related (right.push value) := by
  unfold Machine.push
  dsimp only
  rw [same.registers]
  exact (simulation.machine_write (simulation.machine_write same _ _) _ _).withRegisters _

theorem pop : left.pop.1 = right.pop.1 ∧ left.pop.2.Related related right.pop.2 := by
  unfold Machine.pop
  dsimp only
  rw [same.registers]
  exact ⟨simulation.readWord same.bus _, same.withRegisters _⟩

theorem operand (source : Operand) : left.operand source = right.operand source := by
  unfold Machine.operand
  rw [same.registers]
  cases source with
  | atHL => exact simulation.machine_read same _
  | _ => rfl

theorem setOperand (target : Operand) (value : UInt8) :
    (left.setOperand target value).Related related (right.setOperand target value) := by
  unfold Machine.setOperand
  rw [same.registers]
  cases target with
  | atHL => exact simulation.machine_write same _ value
  | _ => exact same.withRegisters _

theorem setResult (target : Operand) (result : UInt8 × Flags) :
    (left.setResult target result).Related related (right.setResult target result) :=
  (simulation.setOperand same target result.1).setFlags _

/-! ## Instructions -/

/-- Flags and target agree, so both sides jump or neither does. -/
theorem jump (condition : Condition) :
    (left.jump condition).Related related (right.jump condition) := by
  obtain ⟨target, next⟩ := simulation.nextWord same
  simp only [Machine.jump, same.flags, target]
  split
  · exact next.setPC _
  · exact next

theorem jumpRelative (condition : Condition) :
    (left.jumpRelative condition).Related related (right.jumpRelative condition) := by
  obtain ⟨distance, next⟩ := simulation.nextByte same
  simp only [Machine.jumpRelative, same.flags, distance, next.pc]
  split
  · exact next.setPC _
  · exact next

theorem enter (target : UInt16) : (left.enter target).Related related (right.enter target) := by
  unfold Machine.enter
  rw [same.pc]
  exact (simulation.push same _).setPC target

theorem call (condition : Condition) :
    (left.call condition).Related related (right.call condition) := by
  obtain ⟨target, next⟩ := simulation.nextWord same
  simp only [Machine.call, same.flags, target]
  split
  · exact simulation.enter next _
  · exact next

theorem leave : left.leave.Related related right.leave := by
  obtain ⟨target, popped⟩ := simulation.pop same
  simp only [Machine.leave, target]
  exact popped.setPC _

theorem stackOffset : left.stackOffset.1 = right.stackOffset.1 ∧
    left.stackOffset.2.Related related right.stackOffset.2 := by
  obtain ⟨offset, next⟩ := simulation.nextByte same
  simp only [Machine.stackOffset, offset, next.registers]
  exact ⟨trivial, next.setFlags _⟩

/-- STOP reads a byte and switches the speed, and both sides switch or neither does. -/
theorem stop : left.stop.Related related right.stop := by
  have passed := same.passByte
  have switched := simulation.switched passed.bus
  have bus := simulation.onDevices onDevices_switchSpeed passed.bus
  unfold Machine.stop
  dsimp only
  rcases leftSwitch : left.passByte.bus.switchSpeed with ⟨leftDone, leftBus⟩
  rcases rightSwitch : right.passByte.bus.switchSpeed with ⟨rightDone, rightBus⟩
  simp only [leftSwitch, rightSwitch] at switched bus
  subst switched
  cases leftDone with
  | true => exact ⟨passed.cpu, bus⟩
  | false => exact ⟨by rw [passed.cpu], bus⟩

theorem halt : left.halt.Related related right.halt := by
  unfold Machine.halt
  rw [same.cpu, simulation.interrupts same.bus]
  split <;> exact same.setProcessor rfl

/-- One case for each instruction, from the accesses above. What an instruction computes is the same
because what it read is. -/
theorem execute (instruction : Instruction) :
    (left.execute instruction).Related related (right.execute instruction) := by
  obtain ⟨byte, behindByte⟩ := simulation.nextByte same
  obtain ⟨word, behindWord⟩ := simulation.nextWord same
  cases instruction with
  | nop => exact same
  | stop => exact simulation.stop same
  | halt => exact simulation.halt same
  | disableInterrupts | enableInterrupts => exact same.setProcessor (by rw [same.cpu])
  | load target source =>
    simp only [Machine.execute, simulation.operand same]
    exact simulation.setOperand same target _
  | loadByte target =>
    simp only [Machine.execute, byte]
    exact simulation.setOperand behindByte target _
  | loadWord target =>
    simp only [Machine.execute, word]
    exact behindWord.setPair target _
  | loadA source =>
    simp only [Machine.execute, same.pointer, simulation.machine_read same]
    exact (same.setA _).stepPointer source
  | storeA target =>
    simp only [Machine.execute, same.pointer, same.registers]
    exact (simulation.machine_write same _ _).stepPointer target
  | loadAFrom =>
    simp only [Machine.execute, word, simulation.machine_read behindWord]
    exact behindWord.setA _
  | storeATo =>
    simp only [Machine.execute, word, behindWord.registers]
    exact simulation.machine_write behindWord _ _
  | loadAHigh =>
    simp only [Machine.execute, byte, simulation.machine_read behindByte]
    exact behindByte.setA _
  | storeAHigh =>
    simp only [Machine.execute, byte, behindByte.registers]
    exact simulation.machine_write behindByte _ _
  | loadAHighC =>
    simp only [Machine.execute, same.registers, simulation.machine_read same]
    exact same.setA _
  | storeAHighC =>
    simp only [Machine.execute, same.registers]
    exact simulation.machine_write same _ _
  | storeSP =>
    refine ⟨behindWord.cpu, ?_⟩
    simp only [Machine.execute, word, behindWord.cpu]
    exact simulation.write (simulation.write behindWord.bus _ _) _ _
  | loadSPHL =>
    simp only [Machine.execute, same.registers]
    exact same.setPair .sp _
  | loadHLSP =>
    obtain ⟨result, next⟩ := simulation.stackOffset same
    simp only [Machine.execute, result]
    exact next.setPair .hl _
  | addSP =>
    obtain ⟨result, next⟩ := simulation.stackOffset same
    simp only [Machine.execute, result]
    exact next.setPair .sp _
  | push source =>
    simp only [Machine.execute, same.stackPair]
    exact simulation.push same _
  | pop target =>
    obtain ⟨value, popped⟩ := simulation.pop same
    simp only [Machine.execute, value]
    exact popped.setStackPair target _
  | arithmetic operation source =>
    simp only [Machine.execute, same.registers, same.flags, simulation.operand same]
    exact simulation.setResult same .a _
  | arithmeticByte operation =>
    simp only [Machine.execute, byte, behindByte.registers, behindByte.flags]
    exact simulation.setResult behindByte .a _
  | increment target | decrement target =>
    simp only [Machine.execute, same.flags, simulation.operand same]
    exact simulation.setResult same target _
  | incrementPair target | decrementPair target =>
    simp only [Machine.execute, same.pair]
    exact same.setPair target _
  | addHL source =>
    simp only [Machine.execute, same.registers, same.pair, same.flags]
    exact (same.setPair .hl _).setFlags _
  | rotateA rotation =>
    simp only [Machine.execute, Machine.rotateA, same.registers, same.flags]
    exact (same.setA _).setFlags _
  | decimalAdjust =>
    simp only [Machine.execute, same.registers, same.flags]
    exact simulation.setResult same .a _
  | complement =>
    simp only [Machine.execute, same.registers, same.flags]
    exact (same.setA _).setFlags _
  | setCarry | complementCarry =>
    simp only [Machine.execute, same.flags]
    exact same.setFlags _
  | jump condition => exact simulation.jump same condition
  | jumpHL =>
    simp only [Machine.execute, same.registers]
    exact same.setPC _
  | jumpRelative condition => exact simulation.jumpRelative same condition
  | call condition => exact simulation.call same condition
  | ret condition =>
    simp only [Machine.execute, same.flags]
    split
    · exact simulation.leave same
    · exact same
  | returnEnable =>
    have left := simulation.leave same
    exact left.setProcessor (by rw [left.cpu])
  | restart vector => exact simulation.enter same vector
  | shift operation target =>
    simp only [Machine.execute, Machine.shift, same.flags, simulation.operand same]
    exact simulation.setResult same target _
  | testBit bit source =>
    simp only [Machine.execute, Machine.testBit, same.flags, simulation.operand same]
    exact same.setFlags _
  | resetBit bit target =>
    simp only [Machine.execute, Machine.resetBit, simulation.operand same]
    exact simulation.setOperand same target _
  | setBit bit target =>
    simp only [Machine.execute, Machine.setBit, simulation.operand same]
    exact simulation.setOperand same target _

/-! ## Steps and services -/

/-- Both sides fetch the same byte, and so the same instruction or the same fault. -/
theorem fetch : left.fetch.1 = right.fetch.1 ∧
    left.fetch.2.Related related right.fetch.2 := by
  obtain ⟨opcode, next⟩ := simulation.nextByte same
  obtain ⟨second, behind⟩ := simulation.nextByte next
  unfold Machine.fetch
  dsimp only
  rw [opcode, same.pc]
  cases Opcode.ofByte right.nextByte.1 <;> dsimp only
  case plain instruction => exact ⟨rfl, next⟩
  case extended =>
    rw [second]
    exact ⟨rfl, behind⟩
  case unassigned => exact ⟨rfl, next.setPC _⟩

theorem step : left.step.1 = right.step.1 ∧ left.step.2.Related related right.step.2 := by
  obtain ⟨fetched, next⟩ := simulation.fetch same
  unfold Machine.step
  rw [same.cpu]
  rcases leftFetch : left.fetch with ⟨leftResult, leftNext⟩
  rcases rightFetch : right.fetch with ⟨rightResult, rightNext⟩
  simp only [leftFetch, rightFetch] at fetched next
  subst fetched
  cases leftResult <;> dsimp only
  case ok instruction =>
    exact ⟨congrArg Except.ok (congrArg instruction.clocks next.flags),
      (simulation.execute next instruction).settleEnable _⟩
  case error fault => exact ⟨rfl, next⟩

/-- Both sides serve the same source or none, as the requests are those of the devices. -/
theorem service :
    left.service.1 = right.service.1 ∧ left.service.2.Related related right.service.2 := by
  unfold Machine.service
  rw [simulation.interrupts same.bus, same.cpu]
  split
  · exact ⟨rfl, same⟩
  · rename_i source waiting
    have acknowledged := simulation.onDevices (onDevices_acknowledge source) same.bus
    rw [simulation.interrupts same.bus] at acknowledged
    split
    · exact ⟨rfl, simulation.enter (.of_bus _ acknowledged) source.vector⟩
    · exact ⟨rfl, same.setProcessor rfl⟩

end Machines

end Bus.Simulation

end Handheld
