import Handheld.Proofs.Machine.Stores
import Handheld.Proofs.Strict.Alu
import Handheld.Proofs.Strict.Write

/-!
# Instructions without a step out of range

Each access that an instruction makes to the bus is repeated here as one that may be refused. On a
sound bus none is, whatever the instruction and whatever the registers hold. `Machine.step?_eq` and
`Machine.service?_eq` say so for what the machine does in turn, and `Bus.Sound.step` and
`Bus.Sound.service` that the next turn finds the bus sound again.
-/
namespace Handheld

namespace Machine

def read? (machine : Machine) (address : UInt16) : Option UInt8 := machine.bus.read? address

def write? (machine : Machine) (address : UInt16) (value : UInt8) : Option Machine := do
  let bus ← machine.bus.write? address value
  some { machine with bus }

/-- The byte behind the program counter. The counter itself wraps at the end of memory. -/
def nextByte? (machine : Machine) : Option (UInt8 × Machine) := do
  let value ← machine.read? machine.pc
  some (value, machine.passByte)

def nextWord? (machine : Machine) : Option (UInt16 × Machine) := do
  let (low, machine) ← machine.nextByte?
  let (high, machine) ← machine.nextByte?
  some (word high low, machine)

/-- A push writes the high byte first, at two addresses that wrap with the stack pointer. -/
def push? (machine : Machine) (value : UInt16) : Option Machine := do
  let sp := machine.registers.sp
  let machine ← machine.write? (sp - 1) (highByte value)
  let machine ← machine.write? (sp - 2) (lowByte value)
  some (machine.withRegisters fun registers => { registers with sp := sp - 2 })

def pop? (machine : Machine) : Option (UInt16 × Machine) := do
  let sp := machine.registers.sp
  let value ← machine.bus.readWord? sp
  some (value, machine.withRegisters fun registers => { registers with sp := sp + 2 })

/-- Only the operand that `HL` points to looks at memory. -/
def operand? (machine : Machine) (source : Operand) : Option UInt8 :=
  if source = .atHL then machine.read? machine.registers.hl else some (machine.operand source)

/-- Only the operand that `HL` points to changes memory. -/
def setOperand? (machine : Machine) (target : Operand) (value : UInt8) : Option Machine :=
  if target = .atHL then machine.write? machine.registers.hl value
  else some (machine.setOperand target value)

def setResult? (machine : Machine) (target : Operand) (result : UInt8 × Flags) :
    Option Machine := do
  let machine ← machine.setOperand? target result.1
  some (machine.setFlags result.2)

/-- A condition is looked at before the target is fetched, and the target is fetched either way. -/
def jump? (machine : Machine) (condition : Condition) : Option Machine := do
  let taken := condition.holds machine.flags
  let (target, machine) ← machine.nextWord?
  some (if taken then machine.setPC target else machine)

/-- The distance is added as a signed byte to a counter that wraps. -/
def jumpRelative? (machine : Machine) (condition : Condition) : Option Machine := do
  let taken := condition.holds machine.flags
  let (distance, machine) ← machine.nextByte?
  some (if taken then machine.setPC (machine.pc + signExtend distance) else machine)

/-- What CALL, RST and a dispatch have in common: the return address goes on the stack. -/
def enter? (machine : Machine) (target : UInt16) : Option Machine := do
  let machine ← machine.push? machine.pc
  some (machine.setPC target)

def call? (machine : Machine) (condition : Condition) : Option Machine := do
  let taken := condition.holds machine.flags
  let (target, machine) ← machine.nextWord?
  if taken then machine.enter? target else some machine

/-- What RET and RETI have in common. -/
def leave? (machine : Machine) : Option Machine := do
  let (target, machine) ← machine.pop?
  some (machine.setPC target)

/-- A shift or rotation of an operand, which is read and stored back. -/
def shift? (machine : Machine) (operation : Shift) (target : Operand) : Option Machine := do
  let value ← machine.operand? target
  let (result, carry) := operation.apply value machine.flags.carry
  machine.setResult? target (result, { zero := result = 0, carry })

/-- The stack pointer moved by a signed byte, as ADD SP,e and LD HL,SP+e compute it. -/
def stackOffset? (machine : Machine) : Option (UInt16 × Machine) := do
  let (offset, machine) ← machine.nextByte?
  let (result, flags) := Alu.addSigned machine.registers.sp offset
  some (result, machine.setFlags flags)

/-- The padding byte behind STOP is fetched too. -/
def stop? (machine : Machine) : Option Machine := do
  let _ ← machine.read? machine.pc
  some machine.stop

/-- An instruction with each of its accesses strict. The instructions of the last case look at no
memory and take no sum of a fixed width; they work on registers, bit by bit or past the ends of a
word. -/
def execute? (machine : Machine) (instruction : Instruction) : Option Machine :=
  match instruction with
  | .stop => machine.stop?
  | .load target source => do
    let value ← machine.operand? source
    machine.setOperand? target value
  | .loadByte target => do
    let (value, machine) ← machine.nextByte?
    machine.setOperand? target value
  | .loadWord target => do
    let (value, machine) ← machine.nextWord?
    some (machine.setPair target value)
  | .loadA source => do
    let value ← machine.read? (machine.pointer source)
    some ((machine.setA value).stepPointer source)
  | .storeA target => do
    let machine ← machine.write? (machine.pointer target) machine.registers.a
    some (machine.stepPointer target)
  | .loadAFrom => do
    let (address, machine) ← machine.nextWord?
    let value ← machine.read? address
    some (machine.setA value)
  | .storeATo => do
    let (address, machine) ← machine.nextWord?
    machine.write? address machine.registers.a
  | .loadAHigh => do
    let (number, machine) ← machine.nextByte?
    let value ← machine.read? (highPage number)
    some (machine.setA value)
  | .storeAHigh => do
    let (number, machine) ← machine.nextByte?
    machine.write? (highPage number) machine.registers.a
  | .loadAHighC => do
    let value ← machine.read? (highPage machine.registers.c)
    some (machine.setA value)
  | .storeAHighC => machine.write? (highPage machine.registers.c) machine.registers.a
  | .storeSP => do
    let (address, machine) ← machine.nextWord?
    let bus ← machine.bus.writeWord? address machine.cpu.registers.sp
    some { machine with bus }
  | .loadHLSP => do
    let (result, machine) ← machine.stackOffset?
    some (machine.setPair .hl result)
  | .addSP => do
    let (result, machine) ← machine.stackOffset?
    some (machine.setPair .sp result)
  | .push source => machine.push? (machine.stackPair source)
  | .pop target => do
    let (value, machine) ← machine.pop?
    some (machine.setStackPair target value)
  | .arithmetic operation source => do
    let value ← machine.operand? source
    let result ← operation.compute? machine.registers.a value machine.flags
    machine.setResult? .a result
  | .arithmeticByte operation => do
    let (value, machine) ← machine.nextByte?
    let result ← operation.compute? machine.registers.a value machine.flags
    machine.setResult? .a result
  | .increment target => do
    let value ← machine.operand? target
    machine.setResult? target (Alu.increment value machine.flags)
  | .decrement target => do
    let value ← machine.operand? target
    machine.setResult? target (Alu.decrement value machine.flags)
  | .addHL source => do
    let (result, flags) ←
      Alu.addWords? machine.registers.hl (machine.pair source) machine.flags
    some ((machine.setPair .hl result).setFlags flags)
  | .jump condition => machine.jump? condition
  | .jumpRelative condition => machine.jumpRelative? condition
  | .call condition => machine.call? condition
  | .ret condition => if condition.holds machine.flags then machine.leave? else some machine
  | .returnEnable => do
    let machine ← machine.leave?
    some machine.enableInterrupts
  | .restart vector => machine.enter? vector
  | .shift operation target => machine.shift? operation target
  | .testBit bit source => do
    let value ← machine.operand? source
    let mask : UInt8 := 1 <<< UInt8.ofNat bit
    some (machine.setFlags
      { machine.flags with zero := value &&& mask = 0, subtract := false, halfCarry := true })
  | .resetBit bit target => do
    let value ← machine.operand? target
    let mask : UInt8 := 1 <<< UInt8.ofNat bit
    machine.setOperand? target (value &&& ~~~mask)
  | .setBit bit target => do
    let value ← machine.operand? target
    let mask : UInt8 := 1 <<< UInt8.ofNat bit
    machine.setOperand? target (value ||| mask)
  | .nop | .halt | .disableInterrupts | .enableInterrupts | .loadSPHL | .incrementPair _
  | .decrementPair _ | .rotateA _ | .decimalAdjust | .complement | .setCarry | .complementCarry
  | .jumpHL => some (machine.execute instruction)

/-- The opcode and, behind the prefix, the second byte. An unassigned byte puts the counter back to
where the fetch began. -/
def fetch? (machine : Machine) : Option (Except UnassignedOpcode Instruction × Machine) := do
  let start := machine.pc
  let (opcode, machine) ← machine.nextByte?
  match Opcode.ofByte opcode with
  | .plain instruction => some (.ok instruction, machine)
  | .extended =>
    let (second, machine) ← machine.nextByte?
    some (.ok (.ofSecondByte second), machine)
  | .unassigned => some (.error ⟨opcode, start⟩, machine.setPC start)

/-- One instruction with its clocks, which are a checked sum too. -/
def step? (machine : Machine) : Option (Except UnassignedOpcode Nat × Machine) := do
  let wasPending := machine.cpu.enablePending
  match ← machine.fetch? with
  | (.ok instruction, machine) =>
    let clocks ← instruction.clocks? machine.flags
    let machine ← machine.execute? instruction
    some (.ok clocks, machine.settleEnable wasPending)
  | (.error fault, machine) => some (.error fault, machine)

/-- The turn of an interrupt, with the number of its vector as a checked sum. -/
def service? (machine : Machine) : Option (Option Nat × Machine) :=
  match machine.bus.interrupts.next? with
  | none => some (none, machine)
  | some source =>
    if machine.cpu.masterEnable then do
      let machine : Machine :=
        { cpu := { machine.cpu with halted := false, masterEnable := false }
          bus := { machine.bus with interrupts := machine.bus.interrupts.acknowledge source } }
      let vector ← source.vector?
      let machine ← machine.enter? vector
      some (some serviceClocks, machine)
    else
      some (none, { machine with cpu := { machine.cpu with halted := false } })

/-! ## The strict accesses succeed -/

variable {machine : Machine}

theorem read?_eq (sound : machine.bus.Sound) (address : UInt16) :
    machine.read? address = some (machine.read address) := Bus.read?_eq sound address

theorem write?_eq (sound : machine.bus.Sound) (address : UInt16) (value : UInt8) :
    machine.write? address value = some (machine.write address value) := by
  simp only [write?, Bus.write?_eq sound, Option.bind_eq_bind, Option.bind_some]
  rfl

theorem sound_write (sound : machine.bus.Sound) (address : UInt16) (value : UInt8) :
    (machine.write address value).bus.Sound := sound.write address value

theorem nextByte?_eq (sound : machine.bus.Sound) :
    machine.nextByte? = some machine.nextByte := by
  simp only [nextByte?, read?_eq sound, Option.bind_eq_bind, Option.bind_some]
  rfl

theorem nextWord?_eq (sound : machine.bus.Sound) :
    machine.nextWord? = some machine.nextWord := by
  have second : machine.nextByte.2.nextByte? = some machine.nextByte.2.nextByte :=
    nextByte?_eq (by rwa [bus_nextByte])
  simp only [nextWord?, nextByte?_eq sound, second, Option.bind_eq_bind, Option.bind_some]
  rfl

/-- The bus between the two stores is sound again, so that the second one succeeds as well. -/
theorem push?_eq (sound : machine.bus.Sound) (value : UInt16) :
    machine.push? value = some (machine.push value) := by
  have second := sound_write sound (machine.registers.sp - 1) (highByte value)
  simp only [push?, write?_eq sound, write?_eq second, Option.bind_eq_bind, Option.bind_some]
  rfl

theorem pop?_eq (sound : machine.bus.Sound) : machine.pop? = some machine.pop := by
  simp only [pop?, Bus.readWord?_eq sound, Option.bind_eq_bind, Option.bind_some]
  rfl

theorem operand?_eq (sound : machine.bus.Sound) (source : Operand) :
    machine.operand? source = some (machine.operand source) := by
  unfold operand?
  split
  · rename_i memory
    rw [memory]
    exact read?_eq sound _
  · rfl

theorem setOperand?_eq (sound : machine.bus.Sound) (target : Operand) (value : UInt8) :
    machine.setOperand? target value = some (machine.setOperand target value) := by
  unfold setOperand?
  split
  · rename_i memory
    rw [memory]
    exact write?_eq sound _ _
  · rfl

theorem setResult?_eq (sound : machine.bus.Sound) (target : Operand) (result : UInt8 × Flags) :
    machine.setResult? target result = some (machine.setResult target result) := by
  simp only [setResult?, setOperand?_eq sound, Option.bind_eq_bind, Option.bind_some]
  rfl

theorem jump?_eq (sound : machine.bus.Sound) (condition : Condition) :
    machine.jump? condition = some (machine.jump condition) := by
  simp only [jump?, nextWord?_eq sound, Option.bind_eq_bind, Option.bind_some]
  rfl

theorem jumpRelative?_eq (sound : machine.bus.Sound) (condition : Condition) :
    machine.jumpRelative? condition = some (machine.jumpRelative condition) := by
  simp only [jumpRelative?, nextByte?_eq sound, Option.bind_eq_bind, Option.bind_some]
  rfl

theorem enter?_eq (sound : machine.bus.Sound) (target : UInt16) :
    machine.enter? target = some (machine.enter target) := by
  simp only [enter?, push?_eq sound, Option.bind_eq_bind, Option.bind_some]
  rfl

theorem call?_eq (sound : machine.bus.Sound) (condition : Condition) :
    machine.call? condition = some (machine.call condition) := by
  have entered (target : UInt16) : machine.nextWord.2.enter? target =
      some (machine.nextWord.2.enter target) := enter?_eq (by rwa [bus_nextWord]) target
  simp only [call?, nextWord?_eq sound, entered, Option.bind_eq_bind, Option.bind_some]
  unfold call
  dsimp only
  split <;> rfl

theorem leave?_eq (sound : machine.bus.Sound) : machine.leave? = some machine.leave := by
  simp only [leave?, pop?_eq sound, Option.bind_eq_bind, Option.bind_some]
  rfl

theorem shift?_eq (sound : machine.bus.Sound) (operation : Shift) (target : Operand) :
    machine.shift? operation target = some (machine.shift operation target) := by
  simp only [shift?, operand?_eq sound, setResult?_eq sound, Option.bind_eq_bind,
    Option.bind_some]
  rfl

theorem stackOffset?_eq (sound : machine.bus.Sound) :
    machine.stackOffset? = some machine.stackOffset := by
  simp only [stackOffset?, nextByte?_eq sound, Option.bind_eq_bind, Option.bind_some]
  rfl

/-- No instruction needs more of its machine than a sound bus: the registers may hold anything. -/
theorem execute?_eq (sound : machine.bus.Sound) (instruction : Instruction) :
    machine.execute? instruction = some (machine.execute instruction) := by
  have byte : machine.nextByte.2.bus.Sound := by rwa [bus_nextByte]
  have word : machine.nextWord.2.bus.Sound := by rwa [bus_nextWord]
  cases instruction with
  | stop =>
    simp only [execute?, stop?, read?_eq sound, Option.bind_eq_bind, Option.bind_some]
    rfl
  | load target source =>
    simp only [execute?, operand?_eq sound, setOperand?_eq sound, Option.bind_eq_bind,
      Option.bind_some]
    rfl
  | loadByte target =>
    simp only [execute?, nextByte?_eq sound, setOperand?_eq byte, Option.bind_eq_bind,
      Option.bind_some]
    rfl
  | loadA source | loadAHighC =>
    simp only [execute?, read?_eq sound, Option.bind_eq_bind, Option.bind_some]
    rfl
  | storeA target =>
    simp only [execute?, write?_eq sound, Option.bind_eq_bind, Option.bind_some]
    rfl
  | loadAFrom =>
    simp only [execute?, nextWord?_eq sound, read?_eq word, Option.bind_eq_bind,
      Option.bind_some]
    rfl
  | loadWord target =>
    simp only [execute?, nextWord?_eq sound, Option.bind_eq_bind, Option.bind_some]
    rfl
  | storeATo =>
    simp only [execute?, nextWord?_eq sound, write?_eq word, Option.bind_eq_bind,
      Option.bind_some]
    rfl
  | loadAHigh =>
    simp only [execute?, nextByte?_eq sound, read?_eq byte, Option.bind_eq_bind,
      Option.bind_some]
    rfl
  | storeAHigh =>
    simp only [execute?, nextByte?_eq sound, write?_eq byte, Option.bind_eq_bind,
      Option.bind_some]
    rfl
  | storeAHighC => exact write?_eq sound _ _
  | storeSP =>
    simp only [execute?, nextWord?_eq sound, Bus.writeWord?_eq word, Option.bind_eq_bind,
      Option.bind_some]
    rfl
  | loadHLSP | addSP =>
    simp only [execute?, stackOffset?_eq sound, Option.bind_eq_bind, Option.bind_some]
    rfl
  | push source => exact push?_eq sound _
  | pop target =>
    simp only [execute?, pop?_eq sound, Option.bind_eq_bind, Option.bind_some]
    rfl
  | arithmetic operation source =>
    simp only [execute?, operand?_eq sound, Arithmetic.compute?_eq, setResult?_eq sound,
      Option.bind_eq_bind, Option.bind_some]
    rfl
  | arithmeticByte operation =>
    simp only [execute?, nextByte?_eq sound, Arithmetic.compute?_eq, setResult?_eq byte,
      Option.bind_eq_bind, Option.bind_some]
    rfl
  | increment target | decrement target =>
    simp only [execute?, operand?_eq sound, setResult?_eq sound, Option.bind_eq_bind,
      Option.bind_some]
    rfl
  | addHL source =>
    simp only [execute?, Alu.addWords?_eq, Option.bind_eq_bind, Option.bind_some]
    rfl
  | jump condition => exact jump?_eq sound condition
  | jumpRelative condition => exact jumpRelative?_eq sound condition
  | call condition => exact call?_eq sound condition
  | ret condition =>
    simp only [execute?, leave?_eq sound, execute]
    split <;> rfl
  | returnEnable =>
    simp only [execute?, leave?_eq sound, Option.bind_eq_bind, Option.bind_some]
    rfl
  | restart vector => exact enter?_eq sound vector
  | shift operation target => exact shift?_eq sound operation target
  | testBit bit source =>
    simp only [execute?, operand?_eq sound, Option.bind_eq_bind, Option.bind_some]
    rfl
  | resetBit bit target | setBit bit target =>
    simp only [execute?, operand?_eq sound, setOperand?_eq sound, Option.bind_eq_bind,
      Option.bind_some]
    rfl
  | _ => rfl

/-- Neither byte of an opcode can be out of reach, as each address of the bus reads. -/
theorem fetch?_eq (sound : machine.bus.Sound) : machine.fetch? = some machine.fetch := by
  have second : machine.nextByte.2.nextByte? = some machine.nextByte.2.nextByte :=
    nextByte?_eq (by rwa [bus_nextByte])
  simp only [fetch?, nextByte?_eq sound, second, Option.bind_eq_bind, Option.bind_some]
  dsimp only [fetch]
  cases Opcode.ofByte machine.nextByte.1 <;> rfl

/-- The step of an instruction never looks past a cell or a width, whether it completes or fails. -/
theorem step?_eq (sound : machine.bus.Sound) : machine.step? = some machine.step := by
  have fetched := fetch?_eq sound
  have kept := machine.bus_fetch
  rcases machine.step_cases with ⟨instruction, after, ran, step⟩ | ⟨fault, stopped, failed, step⟩
  · rw [ran] at kept fetched
    have executed : after.execute? instruction = some (after.execute instruction) :=
      execute?_eq (by rwa [kept]) instruction
    simp only [step?, fetched, instruction.clocks?_eq, executed, Option.bind_eq_bind,
      Option.bind_some, step]
  · rw [failed] at fetched
    simp only [step?, fetched, Option.bind_eq_bind, Option.bind_some, step]

/-- A dispatch pushes a word at most, and each source has its vector within a byte. -/
theorem service?_eq (sound : machine.bus.Sound) : machine.service? = some machine.service := by
  unfold service? service
  cases waiting : machine.bus.interrupts.next? with
  | none => rfl
  | some source =>
    dsimp only
    split
    · have dropped : Bus.Sound { machine.bus with
          interrupts := machine.bus.interrupts.acknowledge source } := sound.of_same rfl
      rw [source.vector?_eq, Option.bind_eq_bind, Option.bind_some, enter?_eq dropped]
      rfl
    · rfl

end Machine

namespace Bus.Sound

/-- A store keeps the bus sound, so any number of them do. -/
theorem stores {bus : Bus} (sound : bus.Sound) (bytes : List (UInt16 × UInt8)) :
    (bus.stores bytes).Sound :=
  stores_induction bytes (fun _ byte _ sound => sound.write byte.1 byte.2) bus sound

/-- An instruction stores a few bytes, as its trace says, and switches the speed or the
interrupts. -/
theorem step {machine : Machine} (sound : machine.bus.Sound) : machine.step.2.bus.Sound := by
  rcases machine.bus_step with ⟨_, switched⟩ | stored
  · rw [switched]
    exact sound.switchSpeed
  · rw [stored]
    exact sound.stores _

/-- A dispatch stores the two bytes of the return address and takes one request away. -/
theorem service {machine : Machine} (sound : machine.bus.Sound) :
    machine.service.2.bus.Sound := by
  rw [machine.bus_service]
  split
  · rename_i source _
    have dropped : Bus.Sound { machine.bus with
        interrupts := machine.bus.interrupts.acknowledge source } := sound.of_same rfl
    split
    · exact dropped.stores _
    · exact sound
  · exact sound

end Bus.Sound

end Handheld
