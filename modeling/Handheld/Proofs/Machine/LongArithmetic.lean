import Handheld.Proofs.Cartridge.Program
import Handheld.Proofs.Machine.Fields
import Handheld.Proofs.Machine.InTurn

/-!
# Arithmetic on numbers of several bytes

A program adds, subtracts or shifts a long number one byte at a time: the first byte by an
instruction that takes no carry in, each other one by its counterpart that does, with anything in
between that leaves the carry flag alone. `long_arithmetic_exact` says that the bytes which come
out, together with the last carry, are the sum, the difference, the double or the half of the
numbers.
-/
namespace Handheld

/-- The carry that an operation takes in. -/
def Arithmetic.carryIn (operation : Arithmetic) (flags : Flags) : Bool :=
  match operation with
  | adc | sbc => flags.carry
  | _ => false

/-- ADD and ADC are one sum with different carries in. -/
theorem Arithmetic.apply_sum {operation : Arithmetic} (sum : operation = add ∨ operation = adc)
    (a operand : UInt8) (flags : Flags) :
    operation.apply a operand flags = Alu.add a operand (operation.carryIn flags) := by
  obtain rfl | rfl := sum <;> rfl

theorem Arithmetic.apply_difference {operation : Arithmetic}
    (difference : operation = sub ∨ operation = sbc) (a operand : UInt8) (flags : Flags) :
    operation.apply a operand flags = Alu.sub a operand (operation.carryIn flags) := by
  obtain rfl | rfl := difference <;> rfl

/-- The carry that a shift takes in. -/
def Shift.carryIn (operation : Shift) (flags : Flags) : Bool :=
  match operation with
  | rl | rr => flags.carry
  | _ => false

/-- SLA is RL with no carry in. -/
theorem Shift.apply_left {operation : Shift} (left : operation = sla ∨ operation = rl)
    (value : UInt8) (flags : Flags) :
    operation.apply value flags.carry = rl.apply value (operation.carryIn flags) := by
  obtain rfl | rfl := left
  · exact sla_eq_rl value flags.carry
  · rfl

theorem Shift.apply_right {operation : Shift} (right : operation = srl ∨ operation = rr)
    (value : UInt8) (flags : Flags) :
    operation.apply value flags.carry = rr.apply value (operation.carryIn flags) := by
  obtain rfl | rfl := right
  · exact srl_eq_rr value flags.carry
  · rfl

namespace Machine

/-! ## Steps that work on a byte -/

/-- The operation and the operand, if the machine stands at one between A and a byte. -/
def combination? (machine : Machine) : Option (Arithmetic × UInt8) :=
  match machine.fetch with
  | (.ok (.arithmetic operation source), fetched) => some (operation, fetched.operand source)
  | (.ok (.arithmeticByte operation), fetched) => some (operation, fetched.nextByte.1)
  | _ => none

/-- The shift and the byte that it moves, if the machine stands at one. -/
def movement? (machine : Machine) : Option (Shift × UInt8) :=
  match machine.fetch with
  | (.ok (.shift operation target), fetched) => some (operation, fetched.operand target)
  | _ => none

/-- A step leaves a byte in an operand. In memory that means that it was stored there, and nothing
else happened to the bus. -/
def Leaves (machine : Machine) (target : Operand) (result : UInt8) : Prop :=
  if target = .atHL then machine.stepped.bus = machine.bus.write machine.registers.hl result
  else machine.stepped.operand target = result

/-- A step leaves a byte where the byte stood that it shifted. -/
def LeavesShifted (machine : Machine) (result : UInt8) : Prop :=
  ∃ operation target, machine.fetch.1 = .ok (.shift operation target) ∧
    machine.Leaves target result

section

variable {machine fetched : Machine}

/-- A fetch leaves A, so that the operand of the step is the one the machine started with. -/
theorem a_of_fetch {outcome : Except UnassignedOpcode Instruction}
    (fetch : machine.fetch = (outcome, fetched)) :
    fetched.registers.a = machine.registers.a := by
  have kept := congrArg Registers.a machine.registers_fetch
  rwa [fetch] at kept

theorem step_of_combination {operation : Arithmetic} {operand : UInt8}
    (stands : machine.combination? = some (operation, operand)) :
    machine.stepped.registers.a =
        (operation.apply machine.registers.a operand machine.flags).1 ∧
      machine.stepped.flags = (operation.apply machine.registers.a operand machine.flags).2 := by
  unfold combination? at stands
  split at stands
  · rename_i source fetched fetch
    cases stands
    rw [stepped, step_of_fetch fetch, registers_completes, flags_completes, ← a_of_fetch fetch,
      ← flags_of_fetch fetch]
    exact ⟨rfl, rfl⟩
  · rename_i fetched fetch
    cases stands
    rw [stepped, step_of_fetch fetch, registers_completes, flags_completes, ← a_of_fetch fetch,
      ← flags_of_fetch fetch, ← fetched.a_passByte, ← fetched.flags_passByte]
    exact ⟨rfl, rfl⟩
  · cases stands

theorem operand_setOperand {target : Operand} (register : target ≠ .atHL) (value : UInt8) :
    (machine.setOperand target value).operand target = value := by
  cases target with
  | atHL => exact absurd rfl register
  | _ => rfl

/-- Registers are the same operands on any bus. -/
theorem operand_congr {other : Machine} {target : Operand} (register : target ≠ .atHL)
    (same : machine.registers = other.registers) :
    machine.operand target = other.operand target := by
  cases target with
  | atHL => exact absurd rfl register
  | _ => simp only [operand, same]

theorem operand_of_fetch {outcome : Except UnassignedOpcode Instruction}
    (fetch : machine.fetch = (outcome, fetched)) (source : Operand) :
    fetched.operand source = machine.operand source := by
  have bus := machine.bus_fetch
  have registers := machine.registers_fetch
  rw [fetch] at bus registers
  dsimp only at bus registers
  cases source <;> simp only [operand, read, registers, bus, Registers.hl]

theorem hl_of_fetch {outcome : Except UnassignedOpcode Instruction}
    (fetch : machine.fetch = (outcome, fetched)) :
    fetched.registers.hl = machine.registers.hl := by
  have registers := machine.registers_fetch
  rw [fetch] at registers
  rw [registers]
  rfl

/-- A shift stores its result where its operand was, over the bus if that was in memory. -/
theorem leaves_of_shift {operation : Shift} {target : Operand}
    (fetch : machine.fetch = (.ok (.shift operation target), fetched)) :
    machine.Leaves target
      (operation.apply (machine.operand target) machine.flags.carry).1 := by
  have bus := machine.bus_fetch
  rw [fetch] at bus
  unfold Leaves
  rw [stepped, step_of_fetch fetch, bus_completes, ← operand_of_fetch fetch,
    ← flags_of_fetch fetch]
  split
  · rename_i memory
    subst memory
    rw [← bus, ← hl_of_fetch fetch]
    rfl
  · rename_i register
    rw [operand_congr register (registers_completes _ _ _)]
    exact operand_setOperand register _

/-- What a step at a shift leaves, with the carry out of the byte and the half carry clear. -/
theorem step_of_movement {operation : Shift} {value : UInt8}
    (stands : machine.movement? = some (operation, value)) :
    let result := operation.apply value machine.flags.carry
    machine.LeavesShifted result.1 ∧
      machine.stepped.flags = { zero := result.1 = 0, carry := result.2 } := by
  unfold movement? at stands
  split at stands
  · rename_i target fetched fetch
    cases stands
    rw [operand_of_fetch fetch]
    refine ⟨⟨operation, target, by rw [fetch], leaves_of_shift fetch⟩, ?_⟩
    rw [stepped, step_of_fetch fetch, flags_completes, ← operand_of_fetch fetch,
      ← flags_of_fetch fetch]
    rfl
  · cases stands

end

/-! ## The four kinds of arithmetic -/

section

variable {machine : Machine} {operation : Arithmetic} {operand : UInt8}

/-- One byte of a sum, as a column: the digits and the carry in are the digit and the carry out. The
half carry comes from the lower halves. -/
theorem column_of_sum (stands : machine.combination? = some (operation, operand))
    (sum : operation = .add ∨ operation = .adc) :
    machine.registers.a.toNat + operand.toNat + (operation.carryIn machine.flags).toNat =
        machine.stepped.registers.a.toNat + 256 * machine.stepped.flags.carry.toNat ∧
      (machine.stepped.flags.halfCarry = true ↔
        16 ≤ machine.registers.a.toNat % 16 + operand.toNat % 16 +
          (operation.carryIn machine.flags).toNat) := by
  obtain ⟨a, flags⟩ := step_of_combination stands
  rw [Arithmetic.apply_sum sum] at a flags
  rw [a, flags]
  exact ⟨Alu.add_column _ _ _, decide_eq_true_iff⟩

theorem column_of_difference (stands : machine.combination? = some (operation, operand))
    (difference : operation = .sub ∨ operation = .sbc) :
    machine.stepped.registers.a.toNat + operand.toNat +
        (operation.carryIn machine.flags).toNat =
        machine.registers.a.toNat + 256 * machine.stepped.flags.carry.toNat ∧
      (machine.stepped.flags.halfCarry = true ↔
        machine.registers.a.toNat % 16 < operand.toNat % 16 +
          (operation.carryIn machine.flags).toNat) := by
  obtain ⟨a, flags⟩ := step_of_combination stands
  rw [Arithmetic.apply_difference difference] at a flags
  rw [a, flags]
  exact ⟨Alu.sub_column _ _ _, decide_eq_true_iff⟩

end

section

variable {machine : Machine} {operation : Shift} {value : UInt8}

/-- The byte that a shift makes of the byte it moves. -/
def shiftedByte (machine : Machine) : UInt8 :=
  machine.movement?.elim 0 fun (operation, value) =>
    (operation.apply value machine.flags.carry).1

theorem leaves_shiftedByte (stands : machine.movement? = some (operation, value)) :
    machine.LeavesShifted machine.shiftedByte ∧ machine.stepped.flags.halfCarry = false := by
  obtain ⟨leaves, flags⟩ := step_of_movement stands
  rw [shiftedByte, stands, flags]
  exact ⟨leaves, rfl⟩

theorem column_of_left (stands : machine.movement? = some (operation, value))
    (left : operation = .sla ∨ operation = .rl) :
    value.toNat + value.toNat + (operation.carryIn machine.flags).toNat =
      machine.shiftedByte.toNat + 256 * machine.stepped.flags.carry.toNat := by
  obtain ⟨-, flags⟩ := step_of_movement stands
  rw [shiftedByte, stands, flags]
  dsimp only [Option.elim]
  rw [Shift.apply_left left]
  exact Shift.left_column _ _

/-- A shift to the right undoes one: what it moves out is the carry, and what it moves in comes from
above. -/
theorem column_of_right (stands : machine.movement? = some (operation, value))
    (right : operation = .srl ∨ operation = .rr) :
    machine.shiftedByte.toNat + machine.shiftedByte.toNat +
        machine.stepped.flags.carry.toNat =
      value.toNat + 256 * (operation.carryIn machine.flags).toNat := by
  obtain ⟨-, flags⟩ := step_of_movement stands
  rw [shiftedByte, stands, flags]
  dsimp only [Option.elim]
  rw [Shift.apply_right right]
  exact Shift.right_column _ _

end

section

variable {lead : Machine} {rest : List Machine}

theorem bytesValue_map (value : Machine → UInt8) (machines : List Machine) :
    bytesValue (machines.map value) =
      Nat.ofDigits 256 (machines.map fun machine => (value machine).toNat) := by
  rw [bytesValue, List.map_map]
  rfl

theorem value_of_sum {y : List UInt8}
    (turns : InTurn combination? stepped .add .adc (lead :: rest) y) :
    bytesValue ((lead :: rest).map (·.registers.a)) + bytesValue y =
      bytesValue ((lead :: rest).map (·.stepped.registers.a)) +
        256 ^ (lead :: rest).length * (InTurn.final stepped lead rest).flags.carry.toNat := by
  rw [bytesValue_map, bytesValue_map]
  refine turns.sum_of_columns Arithmetic.carryIn (fun _ => rfl) (fun _ => rfl) ?_
  intro machine _ operation operand _ stands sum
  exact (column_of_sum stands sum).1

/-- The results and what was subtracted are the number subtracted from, up to the last borrow. -/
theorem value_of_difference {y : List UInt8}
    (turns : InTurn combination? stepped .sub .sbc (lead :: rest) y) :
    bytesValue ((lead :: rest).map (·.stepped.registers.a)) + bytesValue y =
      bytesValue ((lead :: rest).map (·.registers.a)) +
        256 ^ (lead :: rest).length * (InTurn.final stepped lead rest).flags.carry.toNat := by
  rw [bytesValue_map, bytesValue_map]
  refine turns.sum_of_columns Arithmetic.carryIn (fun _ => rfl) (fun _ => rfl) ?_
  intro machine _ operation operand _ stands difference
  exact (column_of_difference stands difference).1

/-- A number is added to itself when each byte is shifted to the left. -/
theorem value_of_left {bytes : List UInt8}
    (turns : InTurn movement? stepped .sla .rl (lead :: rest) bytes) :
    bytesValue bytes + bytesValue bytes =
      bytesValue ((lead :: rest).map shiftedByte) +
        256 ^ (lead :: rest).length * (InTurn.final stepped lead rest).flags.carry.toNat := by
  rw [bytesValue_map, bytesValue]
  nth_rewrite 1 [← turns.map_digitOf]
  refine turns.sum_of_columns Shift.carryIn (fun _ => rfl) (fun _ => rfl) ?_
  intro machine _ operation value _ stands left
  rw [stands]
  exact column_of_left stands left

/-- Half a number, with its lowest bit as the last carry. The machines begin at the highest byte
here, hence the reversals. -/
theorem value_of_right {bytes : List UInt8}
    (turns : InTurn movement? stepped .srl .rr (lead :: rest) bytes) :
    bytesValue ((lead :: rest).map shiftedByte).reverse +
        bytesValue ((lead :: rest).map shiftedByte).reverse +
        (InTurn.final stepped lead rest).flags.carry.toNat =
      bytesValue bytes.reverse := by
  rw [← List.map_reverse, bytesValue_map, List.map_reverse, bytesValue, List.map_reverse]
  refine turns.double_of_columns Shift.carryIn (fun _ => rfl) (fun _ => rfl) ?_
  intro machine _ operation value _ stands right
  exact column_of_right stands right

/-- What the machines shift they leave where it stood. -/
theorem leaves_in_turn {first next : Shift} {bytes : List UInt8}
    (turns : InTurn movement? stepped first next (lead :: rest) bytes) :
    List.Forall₂ LeavesShifted (lead :: rest) ((lead :: rest).map shiftedByte) ∧
      ∀ machine ∈ lead :: rest, machine.stepped.flags.halfCarry = false := by
  have shifts : ∀ machine ∈ lead :: rest, machine.LeavesShifted machine.shiftedByte ∧
      machine.stepped.flags.halfCarry = false := by
    intro machine member
    obtain ⟨operation, value, -, stands, -⟩ := turns.task_of_mem machine member
    exact leaves_shiftedByte stands
  refine ⟨?_, fun machine member => (shifts machine member).2⟩
  rw [List.forall₂_map_right_iff, List.forall₂_same]
  exact fun machine member => (shifts machine member).1

end

/-- Arithmetic on numbers of several bytes, least significant byte first. `machines` are the
machines that stand at the instructions for the bytes, in the order in which they run. The four
parts are ADD and then ADC, SUB and then SBC, SLA and then RL, and SRL and then RR; the last of them
goes from the most significant byte down. The half carry is in each byte the carry, or the borrow,
across the middle of the byte. -/
theorem long_arithmetic_exact (machines : List Machine) (nonempty : machines ≠ []) :
    let x := machines.map (·.registers.a)
    let results := machines.map (·.stepped.registers.a)
    let last := machines.getLast nonempty
    let carry := last.stepped.flags.carry
    let modulus := 256 ^ machines.length
    (∀ y, InTurn combination? stepped .add .adc machines y →
      bytesValue results + carry.toNat * modulus = bytesValue x + bytesValue y ∧
        ∀ machine ∈ machines, ∃ operation operand,
          machine.combination? = some (operation, operand) ∧
            (machine.stepped.flags.halfCarry = true ↔
              16 ≤ machine.registers.a.toNat % 16 + operand.toNat % 16 +
                (operation.carryIn machine.flags).toNat)) ∧
    (∀ y, InTurn combination? stepped .sub .sbc machines y →
      (bytesValue results : Int) =
          bytesValue x - bytesValue y + carry.toNat * modulus ∧
        (carry = true ↔ bytesValue x < bytesValue y) ∧
        ∀ machine ∈ machines, ∃ operation operand,
          machine.combination? = some (operation, operand) ∧
            (machine.stepped.flags.halfCarry = true ↔
              machine.registers.a.toNat % 16 < operand.toNat % 16 +
                (operation.carryIn machine.flags).toNat)) ∧
    (∀ bytes, InTurn movement? stepped .sla .rl machines bytes →
      ∃ results, List.Forall₂ LeavesShifted machines results ∧
        bytesValue results + carry.toNat * modulus = 2 * bytesValue bytes ∧
        ∀ machine ∈ machines, machine.stepped.flags.halfCarry = false) ∧
    (∀ bytes, InTurn movement? stepped .srl .rr machines bytes.reverse →
      ∃ results, List.Forall₂ LeavesShifted machines results.reverse ∧
        bytesValue results = bytesValue bytes / 2 ∧ carry.toNat = bytesValue bytes % 2 ∧
        ∀ machine ∈ machines, machine.stepped.flags.halfCarry = false) := by
  intro x results last carry modulus
  obtain ⟨lead, rest, rfl⟩ := List.exists_cons_of_ne_nil nonempty
  refine ⟨?sum, ?difference, ?left, ?right⟩
  case sum =>
    intro y turns
    have value : bytesValue x + bytesValue y = bytesValue results + modulus * carry.toNat :=
      value_of_sum turns
    refine ⟨by rw [value, Nat.mul_comm], ?_⟩
    intro machine member
    obtain ⟨operation, operand, -, stands, sum⟩ := turns.task_of_mem machine member
    exact ⟨operation, operand, stands, (column_of_sum stands sum).2⟩
  case difference =>
    intro y turns
    have value : bytesValue results + bytesValue y = bytesValue x + modulus * carry.toNat :=
      value_of_difference turns
    have bound : bytesValue results < modulus := by
      have bound := bytesValue_lt results
      rwa [List.length_map] at bound
    obtain ⟨exact, borrow⟩ := difference_of_sum value bound
    refine ⟨exact, borrow, ?_⟩
    intro machine member
    obtain ⟨operation, operand, -, stands, difference⟩ := turns.task_of_mem machine member
    exact ⟨operation, operand, stands, (column_of_difference stands difference).2⟩
  case left =>
    intro bytes turns
    have value : bytesValue bytes + bytesValue bytes =
        bytesValue ((lead :: rest).map shiftedByte) + modulus * carry.toNat :=
      value_of_left turns
    obtain ⟨leaves, halves⟩ := leaves_in_turn turns
    refine ⟨(lead :: rest).map shiftedByte, leaves, ?_, halves⟩
    rw [Nat.two_mul, value, Nat.mul_comm]
  case right =>
    intro bytes turns
    have value : bytesValue ((lead :: rest).map shiftedByte).reverse +
        bytesValue ((lead :: rest).map shiftedByte).reverse + carry.toNat =
          bytesValue bytes.reverse.reverse := value_of_right turns
    obtain ⟨leaves, halves⟩ := leaves_in_turn turns
    have bit := carry.toNat_le
    rw [List.reverse_reverse] at value
    refine ⟨((lead :: rest).map shiftedByte).reverse, ?_, ?_, ?_, halves⟩
    · rwa [List.reverse_reverse]
    · omega
    · omega

/-- A machine at a place of a program, with bytes in A and B and a carry. -/
def worker (program : Bytes) (place : UInt16) (a b : UInt8) (carry : Bool) : Machine where
  cpu := { registers :=
    { Registers.powerOn false with a, b, flags := { carry }, pc := 0x100 + place } }
  bus :=
    { cartridge := .ofProgram #[] program
      color := false }

/-- ADD A,B; ADC A,B; SUB B; SBC A,B; SLA B; RL B; SRL B; RR B. -/
def byteWork : Bytes := #[0x80, 0x88, 0x90, 0x98, 0xcb, 0x20, 0xcb, 0x10, 0xcb, 0x38, 0xcb, 0x18]

/-- Two bytes each: 0xffff + 0xff01, 0x0000 - 0xff01, twice 0x8080 and half of 0x0101, with a carry
out of both bytes. -/
theorem long_arithmetic_exact_carrying :
    let adders := [worker byteWork 0 0xff 0x01 false, worker byteWork 1 0xff 0xff true]
    let subtracters := [worker byteWork 2 0x00 0x01 false, worker byteWork 3 0x00 0xff true]
    let doublers := [worker byteWork 4 0x00 0x80 false, worker byteWork 6 0x00 0x80 true]
    let halvers := [worker byteWork 8 0x00 0x01 false, worker byteWork 10 0x00 0x01 true]
    InTurn combination? stepped .add .adc adders [0x01, 0xff] ∧
      bytesValue (adders.map (·.stepped.registers.a)) + true.toNat * 256 ^ 2 =
        bytesValue [0xff, 0xff] + bytesValue [0x01, 0xff] ∧
      InTurn combination? stepped .sub .sbc subtracters [0x01, 0xff] ∧
      (bytesValue (subtracters.map (·.stepped.registers.a)) : Int) =
        bytesValue [0x00, 0x00] - bytesValue [0x01, 0xff] + true.toNat * (256 ^ 2 : Nat) ∧
      InTurn movement? stepped .sla .rl doublers [0x80, 0x80] ∧
      (∃ results, List.Forall₂ LeavesShifted doublers results ∧
        bytesValue results + true.toNat * 256 ^ 2 = 2 * bytesValue [0x80, 0x80]) ∧
      InTurn movement? stepped .srl .rr halvers [0x01, 0x01] ∧
      ∃ results, List.Forall₂ LeavesShifted halvers results.reverse ∧
        bytesValue results = bytesValue [0x01, 0x01] / 2 ∧
        true.toNat = bytesValue [0x01, 0x01] % 2 := by
  intro adders subtracters doublers halvers
  have adding : InTurn combination? stepped .add .adc adders [0x01, 0xff] :=
    ⟨by decide +kernel, by decide +kernel⟩
  have subtracting : InTurn combination? stepped .sub .sbc subtracters [0x01, 0xff] :=
    ⟨by decide +kernel, by decide +kernel⟩
  have doubling : InTurn movement? stepped .sla .rl doublers [0x80, 0x80] :=
    ⟨by decide +kernel, by decide +kernel⟩
  have halving : InTurn movement? stepped .srl .rr halvers [0x01, 0x01] :=
    ⟨by decide +kernel, by decide +kernel⟩
  have carries : (worker byteWork 1 0xff 0xff true).stepped.flags.carry = true ∧
      (worker byteWork 3 0x00 0xff true).stepped.flags.carry = true ∧
      (worker byteWork 6 0x00 0x80 true).stepped.flags.carry = true ∧
      (worker byteWork 10 0x00 0x01 true).stepped.flags.carry = true := by
    decide +kernel
  obtain ⟨summed, subtracted, doubled, halved⟩ := carries
  have sum := ((long_arithmetic_exact adders (by simp [adders])).1 _ adding).1
  have difference :=
    ((long_arithmetic_exact subtracters (by simp [subtracters])).2.1 _ subtracting).1
  obtain ⟨results, left, double, -⟩ :=
    (long_arithmetic_exact doublers (by simp [doublers])).2.2.1 _ doubling
  obtain ⟨halves, right, half, rest, -⟩ :=
    (long_arithmetic_exact halvers (by simp [halvers])).2.2.2 [0x01, 0x01] halving
  dsimp only [adders, subtracters, doublers, halvers, List.getLast_cons_cons,
    List.getLast_singleton] at sum difference double rest
  rw [summed] at sum
  rw [subtracted] at difference
  rw [doubled] at double
  rw [halved] at rest
  exact ⟨adding, sum, subtracting, difference, doubling, ⟨results, left, double⟩, halving, halves,
    right, half, rest⟩

end Machine

end Handheld
