import Handheld.Proofs.Cartridge.Program
import Handheld.Proofs.Machine.Fetch
import Handheld.Proofs.Machine.Stores

/-!
# Opcodes by their fields

The first opcode page is a table, written out row by row. Three quarters of it can be read off the
byte itself: the middle three bits and the last three each name an operand or an operation, as on
the second page. `ofByte_of_fields` says that the table agrees with this reading, and
`step_follows_fields` what a step then does.
-/
namespace Handheld

/-- The operation of a three-bit code. -/
def Arithmetic.ofCode (code : UInt8) : Arithmetic :=
  match code with
  | 0 => add
  | 1 => adc
  | 2 => sub
  | 3 => sbc
  | 4 => and
  | 5 => xor
  | 6 => or
  | _ => cp

namespace Opcode

/-- The middle field of an opcode. -/
def row (byte : UInt8) : UInt8 := (byte >>> 3) &&& 7

/-- The last field of an opcode. -/
def column (byte : UInt8) : UInt8 := byte &&& 7

/-- The instruction that the fields of a byte name. The quarter of the page chooses what they mean:
in the first and the last one only some columns are laid out by rows, and one byte of the second
names HALT in place of a load from memory to memory. -/
def ofFields (byte : UInt8) : Option Instruction :=
  let target := Operand.ofCode (row byte)
  let source := Operand.ofCode (column byte)
  if byte < 0x40 then
    match column byte with
    | 4 => some (.increment target)
    | 5 => some (.decrement target)
    | 6 => some (.loadByte target)
    | 7 => if byte < 0x20 then some (.rotateA (.ofCode (row byte))) else none
    | _ => none
  else if byte < 0x80 then
    if byte = 0x76 then none else some (.load target source)
  else if byte < 0xc0 then
    some (.arithmetic (.ofCode (row byte)) source)
  else if column byte = 6 then
    some (.arithmeticByte (.ofCode (row byte)))
  else
    none

/-- The table has the instruction that the fields name, wherever they name one. -/
theorem ofByte_of_fields (byte : UInt8) :
    ∀ instruction ∈ ofFields byte, ofByte byte = .plain instruction := by
  refine forall_ofByte
    (motive := fun byte opcode => ∀ instruction ∈ ofFields byte, opcode = .plain instruction)
    ?_ byte
  decide +kernel

/-- A rotation of A has the same byte on both pages. -/
theorem ofSecondByte_rotation (byte : UInt8) (rotates : byte < 0x20) (column : column byte = 7) :
    Instruction.ofSecondByte byte = .shift (.ofCode (row byte)) .a := by
  revert byte
  refine forall_byte ?_
  decide +kernel

end Opcode

/-- Code 6 is the operand in memory, which has a cost of its own. -/
theorem Operand.cost_ofCode (code : UInt8) (register memory : Nat) :
    (ofCode code).cost register memory = if code = 6 then memory else register := by
  have names : ∀ code, ofCode code = atHL ↔ code = 6 := forall_byte (by decide +kernel)
  unfold cost
  simp only [names]

theorem Operand.clocks_ofCode (code : UInt8) (register memory : Nat) :
    4 * (ofCode code).cost register memory = if code = 6 then 4 * memory else 4 * register := by
  rw [cost_ofCode]
  split <;> rfl

namespace Machine

/-- The rotations of A on the first page are those of the second, with the zero flag clear. -/
theorem rotateA_eq_shift (machine : Machine) (rotation : Shift) :
    machine.rotateA rotation =
      (machine.shift rotation .a).setFlags
        { (machine.shift rotation .a).flags with zero := false } := rfl

/-- What a shift of A leaves in A and the flags depends on A and the carry alone. -/
theorem shift_a_congr {first second : Machine} (rotation : Shift)
    (a : first.registers.a = second.registers.a) (carry : first.flags.carry = second.flags.carry) :
    (first.shift rotation .a).registers.a = (second.shift rotation .a).registers.a ∧
      (first.shift rotation .a).flags = (second.shift rotation .a).flags := by
  have result : rotation.apply (first.operand .a) first.flags.carry =
      rotation.apply (second.operand .a) second.flags.carry := by
    rw [carry]
    exact congrArg (rotation.apply · _) a
  unfold shift
  rw [result]
  exact ⟨rfl, rfl⟩

theorem registers_completes (machine : Machine) (clocks : Nat) (after : Machine) :
    (machine.completes clocks after).2.registers = after.registers := by
  unfold completes settleEnable
  split <;> rfl

theorem flags_completes (machine : Machine) (clocks : Nat) (after : Machine) :
    (machine.completes clocks after).2.flags = after.flags := by
  unfold completes settleEnable
  split <;> rfl

theorem bus_completes (machine : Machine) (clocks : Nat) (after : Machine) :
    (machine.completes clocks after).2.bus = after.bus := by
  unfold completes
  exact after.bus_settleEnable _

theorem a_passByte (machine : Machine) : machine.passByte.registers.a = machine.registers.a := by
  rw [registers_passByte]

theorem flags_passByte (machine : Machine) : machine.passByte.flags = machine.flags := by
  have kept := congrArg Registers.flags machine.registers_passByte
  exact kept

theorem flags_of_fetch {machine fetched : Machine}
    {outcome : Except UnassignedOpcode Instruction} (fetch : machine.fetch = (outcome, fetched)) :
    fetched.flags = machine.flags := by
  have kept := congrArg Registers.flags machine.registers_fetch
  rwa [fetch] at kept

theorem flags_setOperand (machine : Machine) (target : Operand) (value : UInt8) :
    (machine.setOperand target value).flags = machine.flags := by
  cases target <;> rfl

section

variable {machine : Machine} {opcode : UInt8} (fetched : machine.read machine.pc = opcode)
include fetched

/-- Where the fields name an instruction, the step is that of the instruction. The lemmas that
follow compute it for each of the layouts. -/
theorem step_of_fields {instruction : Instruction}
    (named : Opcode.ofFields opcode = some instruction) :
    machine.step =
      machine.completes (instruction.clocks machine.passByte.flags)
        (machine.passByte.execute instruction) := by
  have agrees := Opcode.ofByte_of_fields opcode instruction named
  rw [← fetched] at agrees
  exact step_of_plain agrees

theorem step_of_load (first : 0x40 ≤ opcode) (last : opcode < 0x80) (other : opcode ≠ 0x76) :
    machine.step =
      machine.completes (if Opcode.row opcode = 6 ∨ Opcode.column opcode = 6 then 8 else 4)
        (machine.passByte.setOperand (.ofCode (Opcode.row opcode))
          (machine.passByte.operand (.ofCode (Opcode.column opcode)))) := by
  have named : Opcode.ofFields opcode =
      some (.load (.ofCode (Opcode.row opcode)) (.ofCode (Opcode.column opcode))) := by
    rw [Opcode.ofFields, if_neg (UInt8.not_lt.mpr first), if_pos last, if_neg other]
  have clocks : (Instruction.load (.ofCode (Opcode.row opcode))
      (.ofCode (Opcode.column opcode))).clocks machine.passByte.flags =
        if Opcode.row opcode = 6 ∨ Opcode.column opcode = 6 then 8 else 4 := by
    simp only [Instruction.clocks, Instruction.cycles, Operand.cost_ofCode]
    by_cases stores : Opcode.row opcode = 6 <;> by_cases reads : Opcode.column opcode = 6 <;>
      simp [stores, reads]
  rw [step_of_fields fetched named, clocks]
  rfl

theorem step_of_arithmetic (first : 0x80 ≤ opcode) (last : opcode < 0xc0) :
    machine.step =
      machine.completes (if Opcode.column opcode = 6 then 8 else 4)
        (machine.passByte.setResult .a
          ((Arithmetic.ofCode (Opcode.row opcode)).apply machine.passByte.registers.a
            (machine.passByte.operand (.ofCode (Opcode.column opcode)))
            machine.passByte.flags)) := by
  have above : ¬ opcode < 0x40 := UInt8.not_lt.mpr (UInt8.le_trans (by decide) first)
  have named : Opcode.ofFields opcode = some (.arithmetic (.ofCode (Opcode.row opcode))
      (.ofCode (Opcode.column opcode))) := by
    rw [Opcode.ofFields, if_neg above, if_neg (UInt8.not_lt.mpr first), if_pos last]
  rw [step_of_fields fetched named, Instruction.clocks, Instruction.cycles, Operand.clocks_ofCode]
  rfl

theorem step_of_arithmeticByte (first : 0xc0 ≤ opcode) (column : Opcode.column opcode = 6) :
    let after := machine.passByte.passByte
    machine.step =
      machine.completes 8
        (after.setResult .a
          ((Arithmetic.ofCode (Opcode.row opcode)).apply after.registers.a
            (machine.passByte.read machine.passByte.pc) after.flags)) := by
  have above {bound : UInt8} (low : bound ≤ 0xc0) : ¬ opcode < bound :=
    UInt8.not_lt.mpr (UInt8.le_trans low first)
  have named :
      Opcode.ofFields opcode = some (.arithmeticByte (.ofCode (Opcode.row opcode))) := by
    rw [Opcode.ofFields, if_neg (above (by decide)), if_neg (above (by decide)),
      if_neg (above (by decide)), if_pos column]
  rw [step_of_fields fetched named]
  rfl

section

variable (last : opcode < 0x40)
include last

theorem step_of_increment (column : Opcode.column opcode = 4) :
    machine.step =
      machine.completes (if Opcode.row opcode = 6 then 12 else 4)
        (machine.passByte.setResult (.ofCode (Opcode.row opcode))
          (Alu.increment (machine.passByte.operand (.ofCode (Opcode.row opcode)))
            machine.passByte.flags)) := by
  have named : Opcode.ofFields opcode = some (.increment (.ofCode (Opcode.row opcode))) := by
    rw [Opcode.ofFields, if_pos last, column]
    rfl
  rw [step_of_fields fetched named, Instruction.clocks, Instruction.cycles, Operand.clocks_ofCode]
  rfl

theorem step_of_decrement (column : Opcode.column opcode = 5) :
    machine.step =
      machine.completes (if Opcode.row opcode = 6 then 12 else 4)
        (machine.passByte.setResult (.ofCode (Opcode.row opcode))
          (Alu.decrement (machine.passByte.operand (.ofCode (Opcode.row opcode)))
            machine.passByte.flags)) := by
  have named : Opcode.ofFields opcode = some (.decrement (.ofCode (Opcode.row opcode))) := by
    rw [Opcode.ofFields, if_pos last, column]
    rfl
  rw [step_of_fields fetched named, Instruction.clocks, Instruction.cycles, Operand.clocks_ofCode]
  rfl

theorem step_of_loadByte (column : Opcode.column opcode = 6) :
    machine.step =
      machine.completes (if Opcode.row opcode = 6 then 12 else 8)
        (machine.passByte.passByte.setOperand (.ofCode (Opcode.row opcode))
          (machine.passByte.read machine.passByte.pc)) := by
  have named : Opcode.ofFields opcode = some (.loadByte (.ofCode (Opcode.row opcode))) := by
    rw [Opcode.ofFields, if_pos last, column]
    rfl
  rw [step_of_fields fetched named, Instruction.clocks, Instruction.cycles, Operand.clocks_ofCode]
  rfl

end

/-- The column of rotations, of which the first page has those of A. -/
theorem step_of_rotateA (last : opcode < 0x20) (column : Opcode.column opcode = 7) :
    machine.step =
      machine.completes 4 (machine.passByte.rotateA (.ofCode (Opcode.row opcode))) := by
  have named : Opcode.ofFields opcode = some (.rotateA (.ofCode (Opcode.row opcode))) := by
    rw [Opcode.ofFields, if_pos (UInt8.lt_trans last (by decide)), column]
    exact if_pos last
  rw [step_of_fields fetched named]
  rfl

end

/-- The same rotation on the second page. -/
theorem step_of_rotation {machine : Machine} {opcode : UInt8}
    (extended : machine.read machine.pc = 0xcb)
    (second : machine.passByte.read machine.passByte.pc = opcode) (last : opcode < 0x20)
    (column : Opcode.column opcode = 7) :
    machine.step =
      machine.completes 8
        (machine.passByte.passByte.shift (.ofCode (Opcode.row opcode)) .a) := by
  have leads : Opcode.ofByte (machine.read machine.pc) = .extended := by
    rw [extended]
    decide +kernel
  rw [step_of_extended leads, second, Opcode.ofSecondByte_rotation opcode last column]
  rfl

/-- The effect of a step, read off the opcode at the program counter. The parts are, in their order:
loads between operands, with the flags as they were; operations between A and an operand, or the
byte that follows; counting up and down, and loads of the byte that follows; and rotations of A,
beside a machine that has the same byte on the second page. Beside what is said here a step passes
the opcode and its operand byte and lets a pending enable take effect. Code 6 names the byte that HL
points to, in either field. -/
theorem step_follows_fields (machine : Machine) :
    let opcode := machine.read machine.pc
    let row := (opcode >>> 3) &&& 7
    let column := opcode &&& 7
    let target := Operand.ofCode row
    let source := Operand.ofCode column
    let passed := machine.passByte
    let next := passed.read passed.pc
    let twice := passed.passByte
    (0x40 ≤ opcode → opcode < 0x80 → opcode ≠ 0x76 →
      machine.step =
          machine.completes (if row = 6 ∨ column = 6 then 8 else 4)
            (passed.setOperand target (passed.operand source)) ∧
        machine.step.2.flags = machine.flags) ∧
    (0x80 ≤ opcode → opcode < 0xc0 →
      machine.step =
        machine.completes (if column = 6 then 8 else 4)
          (passed.setResult .a
            ((Arithmetic.ofCode row).apply passed.registers.a (passed.operand source)
              passed.flags))) ∧
    (0xc0 ≤ opcode → column = 6 →
      machine.step =
        machine.completes 8
          (twice.setResult .a
            ((Arithmetic.ofCode row).apply twice.registers.a next twice.flags))) ∧
    (opcode < 0x40 → column = 4 →
      machine.step =
        machine.completes (if row = 6 then 12 else 4)
          (passed.setResult target (Alu.increment (passed.operand target) passed.flags))) ∧
    (opcode < 0x40 → column = 5 →
      machine.step =
        machine.completes (if row = 6 then 12 else 4)
          (passed.setResult target (Alu.decrement (passed.operand target) passed.flags))) ∧
    (opcode < 0x40 → column = 6 →
      machine.step =
        machine.completes (if row = 6 then 12 else 8) (twice.setOperand target next)) ∧
    (opcode < 0x20 → column = 7 → ∀ other : Machine,
      other.read other.pc = 0xcb → other.passByte.read other.passByte.pc = opcode →
      let short := passed.shift (.ofCode row) .a
      machine.step =
          machine.completes 4 (short.setFlags { short.flags with zero := false }) ∧
        other.step = other.completes 8 (other.passByte.passByte.shift (.ofCode row) .a) ∧
        (other.registers.a = machine.registers.a → other.flags.carry = machine.flags.carry →
          machine.step.2.registers.a = other.step.2.registers.a ∧
            machine.step.2.flags = { other.step.2.flags with zero := false })) := by
  intro opcode row column target source passed next twice
  refine ⟨?load, step_of_arithmetic rfl, step_of_arithmeticByte rfl, step_of_increment rfl,
    step_of_decrement rfl, step_of_loadByte rfl, ?rotate⟩
  case load =>
    intro first last other
    have stepped := step_of_load rfl first last other
    refine ⟨stepped, ?_⟩
    rw [stepped, flags_completes, flags_setOperand]
    exact machine.flags_passByte
  case rotate =>
    intro last column other extended second short
    have stepped : machine.step =
        machine.completes 4 (short.setFlags { short.flags with zero := false }) := by
      rw [step_of_rotateA rfl last column, rotateA_eq_shift]
      rfl
    have beside : other.step =
        other.completes 8 (other.passByte.passByte.shift (.ofCode row) .a) :=
      step_of_rotation extended second last column
    refine ⟨stepped, beside, ?_⟩
    intro sameA sameCarry
    have a : passed.registers.a = other.passByte.passByte.registers.a := by
      rw [a_passByte, a_passByte, a_passByte, sameA]
    have carry : passed.flags.carry = other.passByte.passByte.flags.carry := by
      rw [flags_passByte, flags_passByte, flags_passByte, sameCarry]
    obtain ⟨results, flags⟩ := shift_a_congr (.ofCode row) a carry
    rw [stepped, beside, registers_completes, registers_completes, flags_completes,
      flags_completes, ← flags]
    exact ⟨results, rfl⟩

/-- A machine at one of the instructions LD (HL),H; ADC A,(HL); SBC A,n; INC (HL); DEC L;
LD (HL),n; RLA; RL A. -/
def layouts (place : UInt16) : Machine where
  cpu := { registers := { Registers.powerOn false with pc := 0x100 + place } }
  bus :=
    { cartridge :=
        .ofProgram #[] #[0x74, 0x8e, 0xde, 0x07, 0x34, 0x2d, 0x36, 0x5a, 0x17, 0xcb, 0x17]
      color := false }

/-- Each of these instructions at its own place, with the clocks and the operands that its fields
give. -/
theorem step_follows_fields_layouts :
    (layouts 0).step =
        (layouts 0).completes 8
          ((layouts 0).passByte.setOperand .atHL ((layouts 0).passByte.operand .h)) ∧
      (layouts 1).step =
        (layouts 1).completes 8
          ((layouts 1).passByte.setResult .a
            (Arithmetic.adc.apply (layouts 1).passByte.registers.a
              ((layouts 1).passByte.operand .atHL) (layouts 1).passByte.flags)) ∧
      (layouts 2).step =
        (layouts 2).completes 8
          ((layouts 2).passByte.passByte.setResult .a
            (Arithmetic.sbc.apply (layouts 2).passByte.passByte.registers.a 0x07
              (layouts 2).passByte.passByte.flags)) ∧
      (layouts 4).step =
        (layouts 4).completes 12
          ((layouts 4).passByte.setResult .atHL
            (Alu.increment ((layouts 4).passByte.operand .atHL) (layouts 4).passByte.flags)) ∧
      (layouts 5).step =
        (layouts 5).completes 4
          ((layouts 5).passByte.setResult .l
            (Alu.decrement ((layouts 5).passByte.operand .l) (layouts 5).passByte.flags)) ∧
      (layouts 6).step =
        (layouts 6).completes 12 ((layouts 6).passByte.passByte.setOperand .atHL 0x5a) ∧
      (layouts 8).step.2.registers.a = (layouts 9).step.2.registers.a ∧
      (layouts 8).step.2.flags = { (layouts 9).step.2.flags with zero := false } := by
  have fetched : (layouts 0).read (layouts 0).pc = 0x74 ∧ (layouts 1).read (layouts 1).pc = 0x8e ∧
      (layouts 2).read (layouts 2).pc = 0xde ∧ (layouts 4).read (layouts 4).pc = 0x34 ∧
      (layouts 5).read (layouts 5).pc = 0x2d ∧ (layouts 6).read (layouts 6).pc = 0x36 ∧
      (layouts 8).read (layouts 8).pc = 0x17 ∧ (layouts 9).read (layouts 9).pc = 0xcb := by
    decide +kernel
  have operands : (layouts 2).passByte.read (layouts 2).passByte.pc = 0x07 ∧
      (layouts 6).passByte.read (layouts 6).passByte.pc = 0x5a ∧
      (layouts 9).passByte.read (layouts 9).passByte.pc = 0x17 := by
    decide +kernel
  obtain ⟨moves, adds, subtracts, counts, countsDown, loads, rotates, leads⟩ := fetched
  obtain ⟨subtracted, loaded, second⟩ := operands
  obtain ⟨load, _⟩ := step_follows_fields (layouts 0)
  obtain ⟨_, arithmetic, _⟩ := step_follows_fields (layouts 1)
  obtain ⟨_, _, arithmeticByte, _⟩ := step_follows_fields (layouts 2)
  obtain ⟨_, _, _, increment, _⟩ := step_follows_fields (layouts 4)
  obtain ⟨_, _, _, _, decrement, _⟩ := step_follows_fields (layouts 5)
  obtain ⟨_, _, _, _, _, loadByte, _⟩ := step_follows_fields (layouts 6)
  obtain ⟨_, _, _, _, _, _, rotation⟩ := step_follows_fields (layouts 8)
  rw [moves] at load
  rw [adds] at arithmetic
  rw [subtracts, subtracted] at arithmeticByte
  rw [counts] at increment
  rw [countsDown] at decrement
  rw [loads, loaded] at loadByte
  rw [rotates] at rotation
  have beside := (rotation (by decide) (by decide) (layouts 9) leads second).2.2 rfl rfl
  exact ⟨(load (by decide) (by decide) (by decide)).1, arithmetic (by decide) (by decide),
    arithmeticByte (by decide) (by decide), increment (by decide) (by decide),
    decrement (by decide) (by decide), loadByte (by decide) (by decide), beside⟩

/-- A machine at the first byte of a program. -/
def loaded (program : Bytes) : Machine where
  cpu := { registers := .powerOn false }
  bus :=
    { cartridge := .ofProgram #[] program
      color := false }

/-- The program is in memory only, so that any two of these machines have the same processor. -/
theorem cpu_loaded (program other : Bytes) : (loaded program).cpu = (loaded other).cpu := rfl

end Machine

end Handheld
