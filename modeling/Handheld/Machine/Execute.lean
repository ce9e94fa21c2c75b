import Handheld.Machine

/-!
# Executing instructions

What each instruction does to the machine once its opcode has been fetched. Operand bytes are
fetched here, from the program counter on.
-/
namespace Handheld.Machine

/-- The address of a byte of the last page. -/
def highPage (number : UInt8) : UInt16 := word 0xff number

/-- Stores what the arithmetic unit made of a byte operand. -/
def setResult (machine : Machine) (target : Operand) (result : UInt8 × Flags) : Machine :=
  (machine.setOperand target result.1).setFlags result.2

def jump (machine : Machine) (condition : Condition) : Machine :=
  let taken := condition.holds machine.flags
  let (target, machine) := machine.nextWord
  if taken then machine.setPC target else machine

/-- The distance counts from the address after the instruction. -/
def jumpRelative (machine : Machine) (condition : Condition) : Machine :=
  let taken := condition.holds machine.flags
  let (distance, machine) := machine.nextByte
  if taken then machine.setPC (machine.pc + signExtend distance) else machine

/-- Goes to a subroutine, leaving the address of the next instruction on the stack. -/
def enter (machine : Machine) (target : UInt16) : Machine :=
  (machine.push machine.pc).setPC target

def call (machine : Machine) (condition : Condition) : Machine :=
  let taken := condition.holds machine.flags
  let (target, machine) := machine.nextWord
  if taken then machine.enter target else machine

/-- Goes back to the address on the stack. -/
def leave (machine : Machine) : Machine :=
  let (target, machine) := machine.pop
  machine.setPC target

def rotateA (machine : Machine) (rotation : Shift) : Machine :=
  let (result, carry) := rotation.apply machine.registers.a machine.flags.carry
  (machine.setA result).setFlags { carry }

def shift (machine : Machine) (operation : Shift) (target : Operand) : Machine :=
  let (result, carry) := operation.apply (machine.operand target) machine.flags.carry
  machine.setResult target (result, { zero := result = 0, carry })

/-- Only the zero flag tells about the bit; the carry stays. -/
def testBit (machine : Machine) (bit : Fin 8) (source : Operand) : Machine :=
  let mask : UInt8 := 1 <<< UInt8.ofNat bit
  let zero := machine.operand source &&& mask = 0
  machine.setFlags { machine.flags with zero, subtract := false, halfCarry := true }

def resetBit (machine : Machine) (bit : Fin 8) (target : Operand) : Machine :=
  let mask : UInt8 := 1 <<< UInt8.ofNat bit
  machine.setOperand target (machine.operand target &&& ~~~mask)

def setBit (machine : Machine) (bit : Fin 8) (target : Operand) : Machine :=
  let mask : UInt8 := 1 <<< UInt8.ofNat bit
  machine.setOperand target (machine.operand target ||| mask)

/-- Skips the padding byte. A prepared speed switch is carried out; otherwise the processor halts.
-/
def stop (machine : Machine) : Machine :=
  let machine := machine.passByte
  match machine.bus.switchSpeed with
  | (true, bus) => { machine with bus }
  | (false, bus) => { machine with bus, cpu := { machine.cpu with halted := true } }

/-- With requests waiting that nobody will serve, the processor does not halt but fetches the next
byte twice. A pending enable means that they will be served. -/
def halt (machine : Machine) : Machine :=
  if !machine.cpu.masterEnable && !machine.cpu.enablePending &&
      machine.bus.interrupts.pending != 0 then
    { machine with cpu := { machine.cpu with repeatFetch := true } }
  else
    { machine with cpu := { machine.cpu with halted := true } }

def disableInterrupts (machine : Machine) : Machine :=
  { machine with cpu := { machine.cpu with masterEnable := false, enablePending := false } }

/-- Takes effect only after one more instruction. -/
def enableInterrupts (machine : Machine) : Machine :=
  { machine with cpu := { machine.cpu with enablePending := true } }

/-- SP moved by the signed byte that follows, with the flags of that sum. -/
@[inline] def stackOffset (machine : Machine) : UInt16 × Machine :=
  let (offset, machine) := machine.nextByte
  let (result, flags) := Alu.addSigned machine.registers.sp offset
  (result, machine.setFlags flags)

def execute (machine : Machine) (instruction : Instruction) : Machine :=
  match instruction with
  | .nop => machine
  | .stop => machine.stop
  | .halt => machine.halt
  | .disableInterrupts => machine.disableInterrupts
  | .enableInterrupts => machine.enableInterrupts
  | .load target source => machine.setOperand target (machine.operand source)
  | .loadByte target =>
    let (value, machine) := machine.nextByte
    machine.setOperand target value
  | .loadWord target =>
    let (value, machine) := machine.nextWord
    machine.setPair target value
  | .loadA source =>
    (machine.setA (machine.read (machine.pointer source))).stepPointer source
  | .storeA target =>
    (machine.write (machine.pointer target) machine.registers.a).stepPointer target
  | .loadAFrom =>
    let (address, machine) := machine.nextWord
    machine.setA (machine.read address)
  | .storeATo =>
    let (address, machine) := machine.nextWord
    machine.write address machine.registers.a
  | .loadAHigh =>
    let (number, machine) := machine.nextByte
    machine.setA (machine.read (highPage number))
  | .storeAHigh =>
    let (number, machine) := machine.nextByte
    machine.write (highPage number) machine.registers.a
  | .loadAHighC => machine.setA (machine.read (highPage machine.registers.c))
  | .storeAHighC => machine.write (highPage machine.registers.c) machine.registers.a
  | .storeSP =>
    let (address, machine) := machine.nextWord
    { machine with bus := machine.bus.writeWord address machine.cpu.registers.sp }
  | .loadSPHL => machine.setPair .sp machine.registers.hl
  | .loadHLSP =>
    let (result, machine) := machine.stackOffset
    machine.setPair .hl result
  | .addSP =>
    let (result, machine) := machine.stackOffset
    machine.setPair .sp result
  | .push source => machine.push (machine.stackPair source)
  | .pop target =>
    let (value, machine) := machine.pop
    machine.setStackPair target value
  | .arithmetic operation source =>
    machine.setResult .a
      (operation.apply machine.registers.a (machine.operand source) machine.flags)
  | .arithmeticByte operation =>
    let (value, machine) := machine.nextByte
    machine.setResult .a (operation.apply machine.registers.a value machine.flags)
  | .increment target =>
    machine.setResult target (Alu.increment (machine.operand target) machine.flags)
  | .decrement target =>
    machine.setResult target (Alu.decrement (machine.operand target) machine.flags)
  | .incrementPair target => machine.setPair target (machine.pair target + 1)
  | .decrementPair target => machine.setPair target (machine.pair target - 1)
  | .addHL source =>
    let (result, flags) :=
      Alu.addWords machine.registers.hl (machine.pair source) machine.flags
    (machine.setPair .hl result).setFlags flags
  | .rotateA rotation => machine.rotateA rotation
  | .decimalAdjust =>
    machine.setResult .a (Alu.decimalAdjust machine.registers.a machine.flags)
  | .complement =>
    (machine.setA (~~~machine.registers.a)).setFlags
      { machine.flags with subtract := true, halfCarry := true }
  | .setCarry =>
    machine.setFlags { machine.flags with subtract := false, halfCarry := false, carry := true }
  | .complementCarry =>
    machine.setFlags
      { machine.flags with
        subtract := false, halfCarry := false, carry := !machine.flags.carry }
  | .jump condition => machine.jump condition
  | .jumpHL => machine.setPC machine.registers.hl
  | .jumpRelative condition => machine.jumpRelative condition
  | .call condition => machine.call condition
  | .ret condition => if condition.holds machine.flags then machine.leave else machine
  | .returnEnable => machine.leave.enableInterrupts
  | .restart vector => machine.enter vector
  | .shift operation target => machine.shift operation target
  | .testBit bit source => machine.testBit bit source
  | .resetBit bit target => machine.resetBit bit target
  | .setBit bit target => machine.setBit bit target

end Handheld.Machine
