import Handheld.Machine.Step

/-!
# The latches of the processor

Beside its registers the processor holds four latches: whether requests are served, whether they
will be after the next instruction, whether it halts, and whether the next fetch is repeated. Only
five instructions move them. `latches_execute` and `latches_fetch` say how; invariants of the
latches are derived from these two and never from the instructions again.
-/
namespace Handheld

/-- The four latches, without the registers beside them. Invariants of the processor that are about
serving, halting and repeating look at these alone. -/
structure Latches where
  masterEnable : Bool
  enablePending : Bool
  halted : Bool
  repeatFetch : Bool
  deriving DecidableEq, Repr

/-- What an invariant of the latches looks at. -/
def Processor.latches (cpu : Processor) : Latches where
  masterEnable := cpu.masterEnable
  enablePending := cpu.enablePending
  halted := cpu.halted
  repeatFetch := cpu.repeatFetch

/-- An enable that was pending before the instruction takes effect, unless it was withdrawn. -/
def Latches.settle (latches : Latches) (wasPending : Bool) : Latches :=
  if wasPending && latches.enablePending then
    { latches with masterEnable := true, enablePending := false }
  else latches

/-- Whether an instruction asks for requests to be served. -/
def Instruction.asksEnable : Instruction → Bool
  | enableInterrupts | returnEnable => true
  | _ => false

namespace Machine

def latches (machine : Machine) : Latches := machine.cpu.latches

/-- The four lemmas here read one latch off a known set of them. -/
theorem masterEnable_of_latches {machine : Machine} {latches : Latches}
    (known : machine.latches = latches) : machine.cpu.masterEnable = latches.masterEnable := by
  rw [← known]
  rfl

theorem enablePending_of_latches {machine : Machine} {latches : Latches}
    (known : machine.latches = latches) : machine.cpu.enablePending = latches.enablePending := by
  rw [← known]
  rfl

theorem halted_of_latches {machine : Machine} {latches : Latches}
    (known : machine.latches = latches) : machine.cpu.halted = latches.halted := by
  rw [← known]
  rfl

theorem repeatFetch_of_latches {machine : Machine} {latches : Latches}
    (known : machine.latches = latches) : machine.cpu.repeatFetch = latches.repeatFetch := by
  rw [← known]
  rfl

/-! The accesses of which instructions are made leave the latches, a fetch apart. -/

/-- A transfer of control moves no latch. The lemmas of this section let `simp` take an instruction
apart into its accesses. -/
@[simp] theorem latches_setPC (machine : Machine) (address : UInt16) :
    (machine.setPC address).latches = machine.latches := rfl

@[simp] theorem latches_setA (machine : Machine) (value : UInt8) :
    (machine.setA value).latches = machine.latches := rfl

@[simp] theorem latches_setFlags (machine : Machine) (flags : Flags) :
    (machine.setFlags flags).latches = machine.latches := rfl

@[simp] theorem latches_setPair (machine : Machine) (target : Pair) (value : UInt16) :
    (machine.setPair target value).latches = machine.latches := rfl

@[simp] theorem latches_setStackPair (machine : Machine) (target : StackPair) (value : UInt16) :
    (machine.setStackPair target value).latches = machine.latches := rfl

@[simp] theorem latches_write (machine : Machine) (address : UInt16) (value : UInt8) :
    (machine.write address value).latches = machine.latches := rfl

@[simp] theorem latches_push (machine : Machine) (value : UInt16) :
    (machine.push value).latches = machine.latches := rfl

@[simp] theorem latches_enter (machine : Machine) (target : UInt16) :
    (machine.enter target).latches = machine.latches := rfl

@[simp] theorem latches_pop (machine : Machine) : machine.pop.2.latches = machine.latches := rfl

/-- Neither a register nor a cell of memory holds a latch. -/
@[simp] theorem latches_setOperand (machine : Machine) (target : Operand) (value : UInt8) :
    (machine.setOperand target value).latches = machine.latches := by
  cases target <;> rfl

@[simp] theorem latches_setResult (machine : Machine) (target : Operand)
    (result : UInt8 × Flags) : (machine.setResult target result).latches = machine.latches :=
  machine.latches_setOperand target result.1

@[simp] theorem latches_stepPointer (machine : Machine) (used : Pointer) :
    (machine.stepPointer used).latches = machine.latches := by
  cases used <;> rfl

/-- Passing a byte ends the repetition of a fetch, whether there was one or not. -/
@[simp] theorem latches_passByte (machine : Machine) :
    machine.passByte.latches = { machine.latches with repeatFetch := false } := by
  unfold passByte
  split
  · rfl
  · rename_i advances
    simp only [Bool.not_eq_true] at advances
    simp [latches, Processor.latches, setPC, withRegisters, advances]

@[simp] theorem latches_nextByte (machine : Machine) :
    machine.nextByte.2.latches = { machine.latches with repeatFetch := false } :=
  machine.latches_passByte

@[simp] theorem latches_nextWord (machine : Machine) :
    machine.nextWord.2.latches = { machine.latches with repeatFetch := false } := by
  simp [nextWord]

@[simp] theorem latches_stackOffset (machine : Machine) :
    machine.stackOffset.2.latches = { machine.latches with repeatFetch := false } := by
  simp [stackOffset]

/-! The five instructions. -/

/-- Whether HALT would find a waiting request that nobody is going to serve. -/
def haltSkips (machine : Machine) : Bool :=
  !machine.cpu.masterEnable && !machine.cpu.enablePending &&
    machine.bus.interrupts.pending != 0

/-- Whether STOP would find a prepared switch of the speed. -/
def stopSwitches (machine : Machine) : Bool := machine.bus.color && machine.bus.speedArmed

/-- The latches that an instruction leaves, once its opcode was fetched. -/
def latchesAfter (machine : Machine) (instruction : Instruction) : Latches :=
  let before := machine.latches
  match instruction with
  | .disableInterrupts => { before with masterEnable := false, enablePending := false }
  | .enableInterrupts | .returnEnable => { before with enablePending := true }
  | .halt =>
    if machine.haltSkips then { before with repeatFetch := true }
    else { before with halted := true }
  | .stop => if machine.stopSwitches then before else { before with halted := true }
  | _ => before

/-- Only DI closes the master enable. EI and RETI ask for it and leave it to a later step to open
it. -/
theorem masterEnable_latchesAfter (machine : Machine) (instruction : Instruction) :
    (machine.latchesAfter instruction).masterEnable =
      (instruction != .disableInterrupts && machine.cpu.masterEnable) := by
  rw [masterEnable_of_latches rfl]
  cases instruction with
  | disableInterrupts => rfl
  | halt | stop =>
    simp only [latchesAfter]
    split <;> rfl
  | _ => rfl

/-- EI and RETI ask for the master enable; DI withdraws what was asked before. -/
theorem enablePending_latchesAfter (machine : Machine) (instruction : Instruction) :
    (machine.latchesAfter instruction).enablePending =
      (instruction.asksEnable ||
        (instruction != .disableInterrupts && machine.cpu.enablePending)) := by
  rw [enablePending_of_latches rfl]
  cases instruction with
  | disableInterrupts => rfl
  | halt | stop =>
    simp only [latchesAfter]
    split <;> rfl
  | _ => rfl

theorem latches_halt (machine : Machine) :
    machine.halt.latches = machine.latchesAfter .halt := by
  unfold halt
  change Machine.latches (if machine.haltSkips then _ else _) = _
  simp only [latchesAfter]
  split <;> rfl

/-- STOP halts unless it switches the speed. The byte behind it has been passed by then. -/
theorem latches_stop {machine : Machine} (passed : machine.cpu.repeatFetch = false) :
    machine.stop.latches = machine.latchesAfter .stop := by
  have kept : machine.passByte.latches = machine.latches := by
    rw [latches_passByte]
    simp [latches, Processor.latches, passed]
  have bus : machine.passByte.bus = machine.bus := by
    unfold passByte
    split <;> rfl
  simp only [stop, bus, Bus.switchSpeed, latchesAfter, stopSwitches, ← kept]
  cases machine.bus.color && machine.bus.speedArmed <;> rfl

/-- What the five instructions do, and that the others do nothing. The hypothesis holds after every
fetch. -/
theorem latches_execute {machine : Machine} (passed : machine.cpu.repeatFetch = false)
    (instruction : Instruction) :
    (machine.execute instruction).latches = machine.latchesAfter instruction := by
  have still : { machine.latches with repeatFetch := false } = machine.latches := by
    simp [latches, Processor.latches, passed]
  cases instruction with
  | halt => exact machine.latches_halt
  | stop => exact latches_stop passed
  | disableInterrupts | enableInterrupts | returnEnable => rfl
  | jump condition =>
    simp only [execute, jump, latchesAfter]
    split <;> simp [still]
  | jumpRelative condition =>
    simp only [execute, jumpRelative, latchesAfter]
    split <;> simp [still]
  | call condition =>
    simp only [execute, call, latchesAfter]
    split <;> simp [still]
  | ret condition =>
    simp only [execute, latchesAfter]
    split <;> rfl
  | storeSP => exact machine.latches_nextWord.trans still
  | _ => simp [execute, latchesAfter, still, rotateA, shift, testBit, resetBit, setBit]

/-! A whole step, and the service of a request. -/

/-- A fetch ends the repetition that may have been due. This is the only latch it moves. -/
theorem latches_fetch (machine : Machine) :
    machine.fetch.2.latches = { machine.latches with repeatFetch := false } := by
  dsimp only [fetch, nextByte]
  cases Opcode.ofByte (machine.read machine.pc) <;> simp

theorem latches_settleEnable (machine : Machine) (wasPending : Bool) :
    (machine.settleEnable wasPending).latches = machine.latches.settle wasPending := by
  unfold settleEnable Latches.settle
  change _ = if wasPending && machine.cpu.enablePending then _ else _
  split <;> rfl

/-- A step from the latches before it to those after it. What was pending before the step is
what it settles, so an instruction that asks for the master enable is not the one that it takes
effect in. -/
theorem latches_step_of_fetch {machine fetched : Machine} {instruction : Instruction}
    (fetch : machine.fetch = (.ok instruction, fetched)) :
    fetched.latches = { machine.latches with repeatFetch := false } ∧
      machine.step.2.latches =
        (fetched.latchesAfter instruction).settle machine.cpu.enablePending := by
  have fetchedLatches := machine.latches_fetch
  rw [fetch] at fetchedLatches
  have passed : fetched.cpu.repeatFetch = false := congrArg Latches.repeatFetch fetchedLatches
  refine ⟨fetchedLatches, ?_⟩
  unfold step
  rw [fetch]
  dsimp only
  rw [latches_settleEnable, latches_execute passed]

/-- A byte that names no instruction settles nothing: the step ends at the fetch. -/
theorem latches_step_of_fault {machine stopped : Machine} {fault : UnassignedOpcode}
    (fetch : machine.fetch = (.error fault, stopped)) :
    machine.step.2.latches = { machine.latches with repeatFetch := false } := by
  have fetchedLatches := machine.latches_fetch
  unfold step
  rwa [fetch] at fetchedLatches ⊢

/-- A waiting request ends a halt in any case. A routine is entered only while requests are
served. -/
theorem latches_service (machine : Machine) :
    machine.service.2.latches =
      if machine.bus.interrupts.next?.isSome then
        { machine.latches with halted := false, masterEnable := false }
      else machine.latches := by
  unfold service
  split
  · rename_i idle
    rw [idle]
    rfl
  · rename_i source waiting
    rw [waiting]
    split
    · rfl
    · rename_i disabled
      simp only [Bool.not_eq_true] at disabled
      simp [latches, Processor.latches, disabled]

end Machine

end Handheld
