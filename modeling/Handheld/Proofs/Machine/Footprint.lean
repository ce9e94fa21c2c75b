import Handheld.Proofs.Machine.Timing

/-!
# What a step may change on the bus and in the flags

Tables keyed by opcode bytes say which instructions store bytes, where, how many and in what order,
and which ones set flags. `step_footprint` says that a step does to the bus just what the tables
say, and that it leaves the flags alone unless the tables have its opcode among those that set them.
-/
namespace Handheld

/-- What an instruction does to the bus. Nothing is said of reads, which change nothing. -/
inductive BusUse where
  | nothing
  /-- A byte where a pair of registers points. -/
  | byteAt (pointer : Pair)
  /-- A byte at the address that follows the opcode. -/
  | byteAtWord
  /-- A byte of the last page, at the offset that follows or at the one in C. -/
  | byteAtHigh
  | byteAtHighC
  /-- SP at the address that follows. -/
  | stackPointer
  | push (source : StackPair)
  /-- A push of the address of the next instruction. -/
  | restart
  | call (condition : Condition)
  /-- A switch of the speed, if it was prepared. -/
  | speed
  deriving DecidableEq, Repr

/-- What such a use leaves of the bus, on a machine that has fetched the opcode. Words go to memory
from the low byte up and to the stack from the high byte down. -/
def BusUse.Leaves (use : BusUse) (machine : Machine) (after : Bus) : Prop :=
  let bus := machine.bus
  let sp := machine.registers.sp
  let pushed (value : UInt16) : Bus :=
    (bus.write (sp - 1) (highByte value)).write (sp - 2) (lowByte value)
  match use with
  | nothing => after = bus
  | byteAt pointer => ∃ value, after = bus.write (machine.pair pointer) value
  | byteAtWord => ∃ value, after = bus.write machine.nextWord.1 value
  | byteAtHigh => ∃ value, after = bus.write (Machine.highPage machine.nextByte.1) value
  | byteAtHighC => ∃ value, after = bus.write (Machine.highPage machine.registers.c) value
  | stackPointer =>
    let address := machine.nextWord.1
    after = (bus.write address (lowByte sp)).write (address + 1) (highByte sp)
  | push source => after = pushed (machine.stackPair source)
  | restart => after = pushed machine.pc
  | call condition =>
    after = if condition.holds machine.flags then pushed machine.nextWord.2.pc else bus
  | speed =>
    after =
      if bus.color && bus.speedArmed then
        { bus with
          speedArmed := false, doubleSpeed := !bus.doubleSpeed, timer := bus.timer.resetDivider }
      else bus

namespace Opcode

/-- The opcodes of the first page that do anything to the bus. -/
def busUses : List (UInt8 × BusUse) :=
  [(0x02, .byteAt .bc), (0x12, .byteAt .de), (0x22, .byteAt .hl), (0x32, .byteAt .hl),
   (0x34, .byteAt .hl), (0x35, .byteAt .hl), (0x36, .byteAt .hl),
   (0x70, .byteAt .hl), (0x71, .byteAt .hl), (0x72, .byteAt .hl), (0x73, .byteAt .hl),
   (0x74, .byteAt .hl), (0x75, .byteAt .hl), (0x77, .byteAt .hl),
   (0xea, .byteAtWord), (0xe0, .byteAtHigh), (0xe2, .byteAtHighC), (0x08, .stackPointer),
   (0xc5, .push .bc), (0xd5, .push .de), (0xe5, .push .hl), (0xf5, .push .af),
   (0xc7, .restart), (0xcf, .restart), (0xd7, .restart), (0xdf, .restart),
   (0xe7, .restart), (0xef, .restart), (0xf7, .restart), (0xff, .restart),
   (0xcd, .call .always), (0xc4, .call .nonzero), (0xcc, .call .zero),
   (0xd4, .call .noCarry), (0xdc, .call .carry),
   (0x10, .speed)]

/-- The use that an opcode makes of the bus. On the second page everything that works on memory
stores there, but for the tests of bits. -/
def busUse (opcode second : UInt8) : BusUse :=
  if opcode = 0xcb then
    if column second = 6 ∧ ¬ (0x40 ≤ second ∧ second < 0x80) then .byteAt .hl else .nothing
  else
    (busUses.lookup opcode).getD .nothing

/-- Whether an opcode may leave other flags than it found: arithmetic, counting bytes, the columns
of rotations and of DAA, CPL, SCF and CCF, sums of pairs, POP AF, and on the second page shifts and
tests of bits. -/
def setsFlags (opcode second : UInt8) : Bool :=
  if opcode = 0xcb then second < 0x80
  else if opcode < 0x40 then
    column opcode ∈ [4, 5, 7] || opcode ∈ [0x09, 0x19, 0x29, 0x39]
  else if opcode < 0x80 then false
  else if opcode < 0xc0 then true
  else column opcode = 6 || opcode ∈ [0xe8, 0xf1, 0xf8]

end Opcode

/-! ## The same of instructions -/

namespace Instruction

/-- The use an instruction makes of the bus, by its constructor. -/
def busUse (instruction : Instruction) : BusUse :=
  match instruction with
  | load .atHL _ | loadByte .atHL | increment .atHL | decrement .atHL | shift _ .atHL |
    resetBit _ .atHL | setBit _ .atHL => .byteAt .hl
  | storeA .bc => .byteAt .bc
  | storeA .de => .byteAt .de
  | storeA _ => .byteAt .hl
  | storeATo => .byteAtWord
  | storeAHigh => .byteAtHigh
  | storeAHighC => .byteAtHighC
  | storeSP => .stackPointer
  | push source => .push source
  | restart _ => .restart
  | call condition => .call condition
  | stop => .speed
  | _ => .nothing

/-- Whether an instruction may leave other flags than it found. -/
def setsFlags (instruction : Instruction) : Bool :=
  match instruction with
  | arithmetic .. | arithmeticByte _ | increment _ | decrement _ | addHL _ | addSP | loadHLSP |
    rotateA _ | shift .. | testBit .. | decimalAdjust | complement | setCarry | complementCarry |
    pop .af => true
  | _ => false

end Instruction

namespace Opcode

/-- The tables of the first page agree with the constructors, for all 256 bytes. -/
theorem uses_of_plain {byte : UInt8} {instruction : Instruction}
    (named : ofByte byte = .plain instruction) (second : UInt8) :
    busUse byte second = instruction.busUse ∧ setsFlags byte second = instruction.setsFlags := by
  have first := ne_prefix_of_plain named
  have entry : (busUses.lookup byte).getD .nothing = instruction.busUse ∧
      (byte ≠ 0xcb → setsFlags byte 0 = instruction.setsFlags) := by
    refine forall_plain ?_ byte instruction named
    decide +kernel
  rw [busUse, if_neg first]
  refine ⟨entry.1, ?_⟩
  rw [← entry.2 first, setsFlags, setsFlags, if_neg first, if_neg first]

theorem uses_of_extended (second : UInt8) :
    busUse 0xcb second = (Instruction.ofSecondByte second).busUse ∧
      setsFlags 0xcb second = (Instruction.ofSecondByte second).setsFlags := by
  revert second
  refine forall_byte ?_
  decide +kernel

end Opcode

namespace Machine

/-! ## The bus -/

/-- STOP apart, the list of an instruction's stores is what its use says, byte by byte and in this
order. -/
theorem leaves_stores (machine : Machine) {instruction : Instruction}
    (other : instruction ≠ .stop) :
    instruction.busUse.Leaves machine
      (machine.bus.stores (machine.stores instruction)) := by
  cases instruction with
  | stop => exact absurd rfl other
  | load target _ | loadByte target | increment target | decrement target
  | shift _ target | resetBit _ target | setBit _ target =>
    cases target with
    | atHL => exact ⟨_, rfl⟩
    | _ => rfl
  | storeA target => cases target <;> exact ⟨_, rfl⟩
  | storeATo | storeAHigh | storeAHighC => exact ⟨_, rfl⟩
  | call condition => exact apply_ite machine.bus.stores _ _ _
  | _ => rfl

theorem leaves_switchSpeed (machine : Machine) :
    BusUse.speed.Leaves machine machine.bus.switchSpeed.2 := by
  simp only [BusUse.Leaves, Bus.switchSpeed]
  split <;> rfl

theorem leaves_execute (machine : Machine) (instruction : Instruction) :
    instruction.busUse.Leaves machine (machine.execute instruction).bus := by
  rw [bus_execute]
  split
  · rename_i stop
    subst stop
    exact machine.leaves_switchSpeed
  · rename_i other
    exact machine.leaves_stores other

/-! ## The flags -/

/-- The lemmas of this section let `simp` follow the flags through an instruction that does not set
them. -/
@[simp] theorem flags_setA (machine : Machine) (value : UInt8) :
    (machine.setA value).flags = machine.flags := rfl

@[simp] theorem flags_setPC (machine : Machine) (address : UInt16) :
    (machine.setPC address).flags = machine.flags := rfl

@[simp] theorem flags_write (machine : Machine) (address : UInt16) (value : UInt8) :
    (machine.write address value).flags = machine.flags := rfl

@[simp] theorem flags_push (machine : Machine) (value : UInt16) :
    (machine.push value).flags = machine.flags := rfl

@[simp] theorem flags_enter (machine : Machine) (target : UInt16) :
    (machine.enter target).flags = machine.flags := rfl

@[simp] theorem flags_leave (machine : Machine) : machine.leave.flags = machine.flags := rfl

@[simp] theorem flags_setPair (machine : Machine) (target : Pair) (value : UInt16) :
    (machine.setPair target value).flags = machine.flags := by
  cases target <;> rfl

@[simp] theorem flags_stepPointer (machine : Machine) (used : Pointer) :
    (machine.stepPointer used).flags = machine.flags := by
  cases used <;> rfl

@[simp] theorem flags_nextByte (machine : Machine) :
    machine.nextByte.2.flags = machine.flags :=
  machine.flags_passByte

@[simp] theorem flags_nextWord (machine : Machine) :
    machine.nextWord.2.flags = machine.flags := by
  simp [nextWord]

@[simp] theorem flags_halt (machine : Machine) : machine.halt.flags = machine.flags := by
  unfold halt
  split <;> rfl

@[simp] theorem flags_stop (machine : Machine) : machine.stop.flags = machine.flags := by
  have kept := machine.flags_passByte
  unfold stop
  dsimp only
  split <;> exact kept

/-- POP into AF is the one load that sets flags. -/
theorem flags_setStackPair {target : StackPair} (other : target ≠ .af) (machine : Machine)
    (value : UInt16) : (machine.setStackPair target value).flags = machine.flags := by
  cases target with
  | af => exact absurd rfl other
  | _ => rfl

theorem flags_execute (machine : Machine) {instruction : Instruction}
    (leaves : instruction.setsFlags = false) :
    (machine.execute instruction).flags = machine.flags := by
  cases instruction with
  | pop target =>
    have other : target ≠ .af := by
      rintro rfl
      cases leaves
    exact flags_setStackPair other _ _
  | arithmetic _ _ | arithmeticByte _ | increment _ | decrement _ | addHL _ | addSP | loadHLSP
  | rotateA _ | shift _ _ | testBit _ _ | decimalAdjust | complement | setCarry
  | complementCarry => cases leaves
  | jump _ | jumpRelative _ | call _ | ret _ =>
    simp only [execute, jump, jumpRelative, call]
    split <;> simp
  | disableInterrupts | enableInterrupts | returnEnable => rfl
  | storeSP => exact machine.flags_nextWord
  | _ => simp [execute, resetBit, setBit, flags_setOperand]

/-! ## The step -/

/-- The tables and the fetched instruction agree. -/
theorem uses_of_fetch {machine fetched : Machine} {instruction : Instruction}
    (fetch : machine.fetch = (.ok instruction, fetched)) :
    let opcode := machine.read machine.pc
    let second := machine.passByte.read machine.passByte.pc
    Opcode.busUse opcode second = instruction.busUse ∧
      Opcode.setsFlags opcode second = instruction.setsFlags := by
  intro opcode second
  cases named : Opcode.ofByte (machine.read machine.pc) with
  | plain _ =>
    rw [fetch_of_plain named] at fetch
    cases fetch
    exact Opcode.uses_of_plain named second
  | extended =>
    rw [fetch_of_extended named] at fetch
    cases fetch
    have first : opcode = 0xcb := (Opcode.ofByte_eq_extended_iff _).mp named
    rw [first]
    exact Opcode.uses_of_extended second
  | unassigned =>
    rw [fetch_of_unassigned named] at fetch
    cases fetch

/-- Fetching the opcode moves nothing but the program counter. A step that runs an instruction then
does to the bus what the tables say of the opcode, and leaves the flags alone unless the tables say
that the opcode sets them. The bus is told as a whole, by the stores in their order, so that devices
behind an address are covered with it. -/
theorem step_footprint (machine : Machine) (clocks : Nat) (ran : machine.step.1 = .ok clocks) :
    let opcode := machine.read machine.pc
    let second := machine.passByte.read machine.passByte.pc
    let fetched := machine.fetch.2
    fetched.bus = machine.bus ∧
      fetched.registers = { machine.registers with pc := fetched.pc } ∧
      (Opcode.busUse opcode second).Leaves fetched machine.step.2.bus ∧
      (Opcode.setsFlags opcode second = false → machine.step.2.flags = machine.flags) := by
  intro opcode second fetched
  refine ⟨machine.bus_fetch, machine.registers_fetch, ?_⟩
  rcases machine.step_cases with ⟨instruction, after, fetch, _⟩ | ⟨fault, stopped, _, step⟩
  · obtain ⟨uses, sets⟩ := uses_of_fetch fetch
    have fetched : fetched = after := congrArg Prod.snd fetch
    rw [uses, sets, fetched, step_of_fetch fetch]
    constructor
    · rw [bus_completes]
      exact after.leaves_execute instruction
    · intro leaves
      rw [flags_completes, flags_execute _ leaves, flags_of_fetch fetch]
  · rw [step] at ran
    cases ran

/-- LD (0xc000),SP, then POP BC: a word stored low byte first, and a word read. -/
theorem step_footprint_storing :
    let stores := loaded #[0x08, 0x00, 0xc0]
    let pops := loaded #[0xc1]
    stores.step.2.bus = (stores.bus.write 0xc000 0xfe).write 0xc001 0xff ∧
      stores.step.2.flags = stores.flags ∧ pops.step.2.bus = pops.bus := by
  intro stores pops
  have named : Opcode.ofByte (stores.read stores.pc) = .plain .storeSP ∧
      Opcode.ofByte (pops.read pops.pc) = .plain (.pop .bc) := by
    decide +kernel
  have uses : Opcode.busUse (stores.read stores.pc)
        (stores.passByte.read stores.passByte.pc) = .stackPointer ∧
      Opcode.setsFlags (stores.read stores.pc)
        (stores.passByte.read stores.passByte.pc) = false ∧
      Opcode.busUse (pops.read pops.pc) (pops.passByte.read pops.passByte.pc) = .nothing := by
    decide +kernel
  have operands : stores.passByte.nextWord.1 = 0xc000 ∧ stores.passByte.registers.sp = 0xfffe := by
    decide +kernel
  obtain ⟨stored, popped⟩ := named
  obtain ⟨stacked, kept, idle⟩ := uses
  have storing := step_footprint stores _ (congrArg Prod.fst (step_of_plain stored))
  have popping := step_footprint pops _ (congrArg Prod.fst (step_of_plain popped))
  dsimp only at storing popping
  rw [stacked, kept, fetch_of_plain stored] at storing
  rw [idle, fetch_of_plain popped] at popping
  obtain ⟨_, _, bus, flags⟩ := storing
  dsimp only [BusUse.Leaves] at bus
  rw [operands.1, operands.2, bus_passByte] at bus
  exact ⟨bus, flags rfl, popping.2.2.1.trans pops.bus_passByte⟩

end Machine

end Handheld
