import Handheld.Machine.Step

/-!
# What an instruction stores

An instruction reaches the bus only by storing bytes, in an order it fixes, except that STOP may
switch the speed. The list of its stores is computed here from the machine as it stands after the
opcode was fetched; `bus_execute` says that these stores are all that happens to the bus. Facts
about the bus are then proved once for a store and carried to instructions through the list.
-/
namespace Handheld

/-- Stores bytes at addresses, in the order of the list. -/
def Bus.stores (bus : Bus) (bytes : List (UInt16 × UInt8)) : Bus :=
  bytes.foldl (fun bus (address, value) => bus.write address value) bus

/-- A property that every store keeps is kept by any list of stores. -/
theorem Bus.stores_induction {property : Bus → Prop} (bytes : List (UInt16 × UInt8))
    (keeps : ∀ bus, ∀ byte ∈ bytes, property bus → property (bus.write byte.1 byte.2))
    (bus : Bus) (holds : property bus) : property (bus.stores bytes) := by
  induction bytes generalizing bus with
  | nil => exact holds
  | cons byte rest ih =>
    have first : property (bus.write byte.1 byte.2) := keeps bus byte (by simp) holds
    exact ih (fun bus other member => keeps bus other (by simp [member])) _ first

namespace Machine

/-! The bus under the accesses of which instructions are made. -/

/-- A transfer of control stores nothing. The lemmas of this section let `simp` drop what an
instruction does to registers from a statement about the bus. -/
@[simp] theorem bus_setPC (machine : Machine) (address : UInt16) :
    (machine.setPC address).bus = machine.bus := rfl

@[simp] theorem bus_setA (machine : Machine) (value : UInt8) :
    (machine.setA value).bus = machine.bus := rfl

@[simp] theorem bus_setFlags (machine : Machine) (flags : Flags) :
    (machine.setFlags flags).bus = machine.bus := rfl

@[simp] theorem bus_setPair (machine : Machine) (target : Pair) (value : UInt16) :
    (machine.setPair target value).bus = machine.bus := rfl

@[simp] theorem bus_setStackPair (machine : Machine) (target : StackPair) (value : UInt16) :
    (machine.setStackPair target value).bus = machine.bus := rfl

@[simp] theorem bus_pop (machine : Machine) : machine.pop.2.bus = machine.bus := rfl

@[simp] theorem bus_leave (machine : Machine) : machine.leave.bus = machine.bus := rfl

@[simp] theorem bus_stepPointer (machine : Machine) (used : Pointer) :
    (machine.stepPointer used).bus = machine.bus := by
  cases used <;> rfl

@[simp] theorem bus_passByte (machine : Machine) : machine.passByte.bus = machine.bus := by
  unfold passByte
  split <;> rfl

@[simp] theorem bus_nextByte (machine : Machine) : machine.nextByte.2.bus = machine.bus :=
  machine.bus_passByte

@[simp] theorem bus_nextWord (machine : Machine) : machine.nextWord.2.bus = machine.bus := by
  simp [nextWord]

@[simp] theorem bus_stackOffset (machine : Machine) : machine.stackOffset.2.bus = machine.bus := by
  simp [stackOffset]

/-! Fetching operand bytes moves the program counter and no other register. -/

/-- The repetition of a fetch only decides whether the counter moves. -/
theorem registers_passByte (machine : Machine) :
    machine.passByte.registers = { machine.registers with pc := machine.passByte.pc } := by
  unfold passByte
  split <;> rfl

/-- So the place of a store, which registers give, can be told before the operand bytes are
fetched. -/
theorem registers_nextWord (machine : Machine) :
    machine.nextWord.2.registers = { machine.registers with pc := machine.nextWord.2.pc } := by
  simp [nextWord, nextByte, registers_passByte]

/-! The stores. -/

/-- What a push of a word stores: the high byte first, then the low byte below it. -/
def pushStores (machine : Machine) (value : UInt16) : List (UInt16 × UInt8) :=
  let sp := machine.registers.sp
  [(sp - 1, highByte value), (sp - 2, lowByte value)]

/-- Of the operands only the one in memory is stored over the bus. -/
def operandStores (machine : Machine) (target : Operand) (value : UInt8) : List (UInt16 × UInt8) :=
  if target = .atHL then [(machine.registers.hl, value)] else []

/-- What an instruction stores once its opcode has been fetched. -/
def stores (machine : Machine) (instruction : Instruction) : List (UInt16 × UInt8) :=
  match instruction with
  | .load target source => machine.operandStores target (machine.operand source)
  | .loadByte target => machine.operandStores target machine.nextByte.1
  | .storeA target => [(machine.pointer target, machine.registers.a)]
  | .storeATo => [(machine.nextWord.1, machine.registers.a)]
  | .storeAHigh => [(highPage machine.nextByte.1, machine.registers.a)]
  | .storeAHighC => [(highPage machine.registers.c, machine.registers.a)]
  | .storeSP =>
    let address := machine.nextWord.1
    let sp := machine.registers.sp
    [(address, lowByte sp), (address + 1, highByte sp)]
  | .push source => machine.pushStores (machine.stackPair source)
  | .increment target =>
    machine.operandStores target (Alu.increment (machine.operand target) machine.flags).1
  | .decrement target =>
    machine.operandStores target (Alu.decrement (machine.operand target) machine.flags).1
  | .call condition =>
    if condition.holds machine.flags then machine.pushStores machine.nextWord.2.pc else []
  | .restart _ => machine.pushStores machine.pc
  | .shift operation target =>
    machine.operandStores target
      (operation.apply (machine.operand target) machine.flags.carry).1
  | .resetBit bit target =>
    machine.operandStores target (machine.operand target &&& ~~~(1 <<< UInt8.ofNat bit))
  | .setBit bit target =>
    machine.operandStores target (machine.operand target ||| (1 <<< UInt8.ofNat bit))
  | _ => []

theorem bus_setOperand (machine : Machine) (target : Operand) (value : UInt8) :
    (machine.setOperand target value).bus =
      machine.bus.stores (machine.operandStores target value) := by
  cases target <;> rfl

theorem bus_setResult (machine : Machine) (target : Operand) (result : UInt8 × Flags) :
    (machine.setResult target result).bus =
      machine.bus.stores (machine.operandStores target result.1) :=
  machine.bus_setOperand target result.1

theorem bus_push (machine : Machine) (value : UInt16) :
    (machine.push value).bus = machine.bus.stores (machine.pushStores value) := rfl

/-- Entering a routine stores the return address, which is where the program counter stands. -/
theorem bus_enter (machine : Machine) (target : UInt16) :
    (machine.enter target).bus = machine.bus.stores (machine.pushStores machine.pc) := rfl

/-- Operand bytes lie behind the program counter, so fetching one leaves the place of a store. -/
theorem operandStores_passByte (machine : Machine) (target : Operand) (value : UInt8) :
    machine.passByte.operandStores target value = machine.operandStores target value := by
  unfold operandStores
  rw [registers_passByte]
  rfl

/-- The target of a call is fetched before the push, and leaves the stack pointer. -/
theorem pushStores_nextWord (machine : Machine) (value : UInt16) :
    machine.nextWord.2.pushStores value = machine.pushStores value := by
  unfold pushStores
  rw [registers_nextWord]

/-- STOP passes a byte and switches the speed if a switch was prepared; it stores nothing. -/
theorem bus_stop (machine : Machine) : machine.stop.bus = machine.bus.switchSpeed.2 := by
  simp only [stop, bus_passByte]
  split <;> rename_i switched <;> rw [switched]

theorem bus_halt (machine : Machine) : machine.halt.bus = machine.bus := by
  unfold halt
  split <;> rfl

/-- A call whose condition fails fetches its target and stores nothing. -/
theorem bus_call (machine : Machine) (condition : Condition) :
    (machine.call condition).bus = machine.bus.stores (machine.stores (.call condition)) := by
  simp only [call, stores]
  split
  · rw [bus_enter, bus_nextWord, pushStores_nextWord]
  · exact machine.bus_nextWord

/-- All that happens to the bus in an instruction, one case for each constructor. Every later fact
about memory under an instruction comes from this equation. -/
theorem bus_execute (machine : Machine) (instruction : Instruction) :
    (machine.execute instruction).bus =
      if instruction = .stop then machine.bus.switchSpeed.2
      else machine.bus.stores (machine.stores instruction) := by
  cases instruction with
  | stop => exact machine.bus_stop
  | halt => exact machine.bus_halt
  | call condition => exact machine.bus_call condition
  | load target source => exact machine.bus_setOperand _ _
  | loadByte target =>
    have stored := machine.passByte.bus_setOperand target machine.nextByte.1
    rwa [bus_passByte, operandStores_passByte] at stored
  | storeA target => simp [execute, stores, Bus.stores, write]
  | storeATo => simp [execute, stores, Bus.stores, write, registers_nextWord]
  | storeAHigh => simp [execute, stores, Bus.stores, write, nextByte, registers_passByte]
  | storeSP =>
    have same := congrArg Registers.sp machine.registers_nextWord
    simp only [registers] at same
    simp [execute, stores, Bus.stores, Bus.writeWord, same, registers]
  | storeAHighC => rfl
  | push source => exact machine.bus_push _
  | restart vector => exact machine.bus_enter _
  | increment target | decrement target => exact machine.bus_setResult target _
  | shift operation target => exact machine.bus_setResult target _
  | resetBit bit target | setBit bit target => exact machine.bus_setOperand target _
  | ret condition =>
    simp only [execute]
    split <;> rfl
  | jump condition =>
    simp only [execute, jump]
    split <;> exact machine.bus_nextWord
  | jumpRelative condition =>
    simp only [execute, jumpRelative]
    split <;> exact machine.bus_nextByte
  | _ => simp [execute, stores, Bus.stores, setResult, setOperand, rotateA, testBit,
      enableInterrupts, disableInterrupts]

/-! A whole step, and the service of a request. -/

/-- Fetching an opcode leaves the bus alone. -/
theorem bus_fetch (machine : Machine) : machine.fetch.2.bus = machine.bus := by
  dsimp only [fetch, nextByte]
  cases Opcode.ofByte (machine.read machine.pc) <;> simp

/-- Nor does it move any register but the program counter. -/
theorem registers_fetch (machine : Machine) :
    machine.fetch.2.registers = { machine.registers with pc := machine.fetch.2.pc } := by
  dsimp only [fetch, nextByte]
  cases Opcode.ofByte (machine.read machine.pc) with
  | plain instruction => exact machine.registers_passByte
  | extended => simp [registers_passByte]
  | unassigned =>
    change { machine.passByte.registers with pc := machine.pc } = _
    rw [registers_passByte]
    rfl

theorem bus_settleEnable (machine : Machine) (wasPending : Bool) :
    (machine.settleEnable wasPending).bus = machine.bus := by
  unfold settleEnable
  split <;> rfl

/-- What one step stores. A byte that names no instruction stores nothing. -/
def stepStores (machine : Machine) : List (UInt16 × UInt8) :=
  match machine.fetch with
  | (.ok instruction, fetched) => fetched.stores instruction
  | (.error _, _) => []

/-- A step either runs the instruction it fetched or stops at a byte that names none. -/
theorem step_cases (machine : Machine) :
    (∃ instruction fetched, machine.fetch = (.ok instruction, fetched) ∧
      machine.step = (.ok (instruction.clocks fetched.flags),
        (fetched.execute instruction).settleEnable machine.cpu.enablePending)) ∨
    (∃ fault stopped, machine.fetch = (.error fault, stopped) ∧
      machine.step = (.error fault, stopped)) := by
  unfold step
  dsimp only
  split
  · rename_i instruction fetched ran
    exact .inl ⟨instruction, fetched, ran, rfl⟩
  · rename_i fault stopped failed
    exact .inr ⟨fault, stopped, failed, rfl⟩

/-- Where the fetch gives an instruction, the stores are those of the machine that has passed the
opcode. -/
theorem stepStores_of_fetch {machine fetched : Machine} {instruction : Instruction}
    (fetch : machine.fetch = (.ok instruction, fetched)) :
    machine.stepStores = fetched.stores instruction := by
  unfold stepStores
  rw [fetch]

theorem stepStores_of_fault {machine stopped : Machine} {fault : UnassignedOpcode}
    (fetch : machine.fetch = (.error fault, stopped)) : machine.stepStores = [] := by
  unfold stepStores
  rw [fetch]

/-- The bus after a step. Only a step that runs STOP does more to it than store bytes. -/
theorem bus_step (machine : Machine) :
    (machine.stepStores = [] ∧ machine.step.2.bus = machine.bus.switchSpeed.2) ∨
      machine.step.2.bus = machine.bus.stores machine.stepStores := by
  have kept := machine.bus_fetch
  rcases machine.step_cases with ⟨instruction, fetched, fetch, step⟩ | ⟨fault, stopped, fetch, step⟩
  · rw [fetch] at kept
    have ran := fetched.bus_execute instruction
    rw [kept] at ran
    rw [step, bus_settleEnable, ran, stepStores_of_fetch fetch]
    by_cases stops : instruction = .stop
    · exact .inl ⟨by rw [stops]; rfl, if_pos stops⟩
    · exact .inr (if_neg stops)
  · rw [fetch] at kept
    rw [step, stepStores_of_fault fetch]
    exact .inr kept

/-- What the service of a request stores: the program counter, if a routine is entered. -/
def serviceStores (machine : Machine) : List (UInt16 × UInt8) :=
  if machine.cpu.masterEnable && machine.bus.interrupts.next?.isSome then
    machine.pushStores machine.pc
  else []

/-- The bus after a service: a routine is entered only after its request was dropped. -/
theorem bus_service (machine : Machine) :
    machine.service.2.bus =
      match machine.bus.interrupts.next? with
      | some source =>
        if machine.cpu.masterEnable then
          { machine.bus with
            interrupts := machine.bus.interrupts.acknowledge source }.stores machine.serviceStores
        else machine.bus
      | none => machine.bus := by
  unfold service
  split
  · rename_i idle
    rw [idle]
  · rename_i source waiting
    rw [waiting]
    dsimp only
    split
    · rename_i enabled
      rw [bus_enter, serviceStores, waiting, enabled]
      rfl
    · rfl

/-- A service leaves the bus alone, or it enters the routine of the next source. -/
theorem service_cases (machine : Machine) :
    (machine.service.1 = none ∧ machine.service.2.bus = machine.bus ∧
      machine.serviceStores = []) ∨
    (∃ source, machine.bus.interrupts.next? = some source ∧ machine.cpu.masterEnable = true ∧
      machine.service.1 = some serviceClocks ∧ machine.service.2.pc = source.vector ∧
      machine.service.2.bus =
        { machine.bus with
          interrupts := machine.bus.interrupts.acknowledge source }.stores
            machine.serviceStores) := by
  have stored := machine.bus_service
  unfold service serviceStores at *
  cases waiting : machine.bus.interrupts.next? with
  | none => exact .inl ⟨rfl, rfl, by simp⟩
  | some source =>
    rw [waiting] at stored
    dsimp only at stored ⊢
    cases enabled : machine.cpu.masterEnable with
    | false => exact .inl ⟨rfl, rfl, by simp⟩
    | true =>
      rw [enabled] at stored
      exact .inr ⟨source, rfl, rfl, rfl, rfl, stored⟩

end Machine

end Handheld
