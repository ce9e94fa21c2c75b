import Handheld.Proofs.Cpu.Decimal
import Handheld.Proofs.Machine.LongArithmetic

/-!
# Decimal arithmetic on numbers of several bytes

Decimal numbers are added and subtracted as binary ones are, with DAA behind each byte. The carry
from one byte to the next is then the one that DAA leaves. `long_decimal_exact` says that the bytes
which come out are decimal and, together with the last carry, are the sum or the difference.
-/
namespace Handheld.Machine

/-- The operation and the operand, if the machine stands at one between A and a byte, with DAA right
behind it. -/
def adjusted? (machine : Machine) : Option (Arithmetic × UInt8) :=
  match machine.stepped.fetch.1 with
  | .ok .decimalAdjust => machine.combination?
  | _ => none

/-- The machine after the operation on its byte and DAA. -/
def corrected (machine : Machine) : Machine := machine.stepped.stepped

section

variable {machine : Machine} {operation : Arithmetic} {operand : UInt8}

theorem step_of_decimalAdjust (stands : machine.fetch.1 = .ok .decimalAdjust) :
    machine.stepped.registers.a = (Alu.decimalAdjust machine.registers.a machine.flags).1 ∧
      machine.stepped.flags = (Alu.decimalAdjust machine.registers.a machine.flags).2 := by
  rcases fetch : machine.fetch with ⟨outcome, fetched⟩
  rw [fetch] at stands
  cases stands
  rw [stepped, step_of_fetch fetch, registers_completes, flags_completes, ← a_of_fetch fetch,
    ← flags_of_fetch fetch]
  exact ⟨rfl, rfl⟩

/-- What DAA makes of the flags, whatever it corrects. -/
theorem flags_of_decimalAdjust (stands : machine.fetch.1 = .ok .decimalAdjust) :
    machine.stepped.flags.halfCarry = false ∧
      (machine.stepped.flags.zero = true ↔ machine.stepped.registers.a = 0) ∧
      machine.stepped.flags.subtract = machine.flags.subtract := by
  obtain ⟨a, flags⟩ := step_of_decimalAdjust stands
  rw [a, flags]
  exact ⟨rfl, decide_eq_true_iff, rfl⟩

theorem corrected_of_adjusted (stands : machine.adjusted? = some (operation, operand)) :
    machine.combination? = some (operation, operand) ∧
      let result := operation.apply machine.registers.a operand machine.flags
      machine.corrected.registers.a = (Alu.decimalAdjust result.1 result.2).1 ∧
        machine.corrected.flags = (Alu.decimalAdjust result.1 result.2).2 := by
  unfold adjusted? at stands
  split at stands
  · rename_i adjusts
    obtain ⟨a, flags⟩ := step_of_combination stands
    have correction := step_of_decimalAdjust adjusts
    rw [a, flags] at correction
    exact ⟨stands, correction⟩
  · cases stands

variable (stands : machine.adjusted? = some (operation, operand))
  (first : IsDecimal machine.registers.a) (second : IsDecimal operand)
include stands first second

/-- Two decimal digits of a sum, as a column: DAA makes the byte decimal and its carry the decimal
one. -/
theorem column_of_decimal_sum (sum : operation = .add ∨ operation = .adc) :
    IsDecimal machine.corrected.registers.a ∧
      decimal machine.registers.a + decimal operand +
          (operation.carryIn machine.flags).toNat =
        decimal machine.corrected.registers.a + 100 * machine.corrected.flags.carry.toNat := by
  obtain ⟨-, a, flags⟩ := corrected_of_adjusted stands
  rw [Arithmetic.apply_sum sum] at a flags
  rw [a, flags]
  exact Alu.decimal_add_column first second _

theorem column_of_decimal_difference (difference : operation = .sub ∨ operation = .sbc) :
    IsDecimal machine.corrected.registers.a ∧
      decimal machine.corrected.registers.a + decimal operand +
          (operation.carryIn machine.flags).toNat =
        decimal machine.registers.a + 100 * machine.corrected.flags.carry.toNat := by
  obtain ⟨-, a, flags⟩ := corrected_of_adjusted stands
  rw [Arithmetic.apply_difference difference] at a flags
  rw [a, flags]
  exact Alu.decimal_sub_column first second _

end

theorem decimalValue_map (value : Machine → UInt8) (machines : List Machine) :
    decimalValue (machines.map value) =
      Nat.ofDigits 100 (machines.map fun machine => decimal (value machine)) := by
  rw [decimalValue, List.map_map]
  rfl

section

variable {lead : Machine} {rest : List Machine} {y : List UInt8}
  (held : ∀ machine ∈ lead :: rest, IsDecimal machine.registers.a)
  (operands : ∀ byte ∈ y, IsDecimal byte)
include held operands

theorem value_of_decimal_sum (turns : InTurn adjusted? corrected .add .adc (lead :: rest) y) :
    (∀ machine ∈ lead :: rest, IsDecimal machine.corrected.registers.a) ∧
      decimalValue ((lead :: rest).map (·.registers.a)) + decimalValue y =
        decimalValue ((lead :: rest).map (·.corrected.registers.a)) +
          100 ^ (lead :: rest).length *
            (InTurn.final corrected lead rest).flags.carry.toNat := by
  constructor
  · intro machine member
    obtain ⟨operation, operand, belongs, stands, sum⟩ := turns.task_of_mem machine member
    exact (column_of_decimal_sum stands (held machine member) (operands operand belongs) sum).1
  · rw [decimalValue_map, decimalValue_map]
    refine turns.sum_of_columns Arithmetic.carryIn (fun _ => rfl) (fun _ => rfl) ?_
    intro machine member operation operand belongs stands sum
    exact (column_of_decimal_sum stands (held machine member) (operands operand belongs) sum).2

theorem value_of_decimal_difference
    (turns : InTurn adjusted? corrected .sub .sbc (lead :: rest) y) :
    (∀ machine ∈ lead :: rest, IsDecimal machine.corrected.registers.a) ∧
      decimalValue ((lead :: rest).map (·.corrected.registers.a)) + decimalValue y =
        decimalValue ((lead :: rest).map (·.registers.a)) +
          100 ^ (lead :: rest).length *
            (InTurn.final corrected lead rest).flags.carry.toNat := by
  constructor
  · intro machine member
    obtain ⟨operation, operand, belongs, stands, difference⟩ := turns.task_of_mem machine member
    exact (column_of_decimal_difference stands (held machine member) (operands operand belongs)
      difference).1
  · rw [decimalValue_map, decimalValue_map]
    refine turns.sum_of_columns Arithmetic.carryIn (fun _ => rfl) (fun _ => rfl) ?_
    intro machine member operation operand belongs stands difference
    exact (column_of_decimal_difference stands (held machine member) (operands operand belongs)
      difference).2

end

/-- Decimal arithmetic on numbers of several bytes, least significant byte first. `machines` are the
machines that stand at the instructions for the bytes, in the order in which they run, each with DAA
behind it. The first part is about ADD and then ADC, the second about SUB and then SBC, and the last
about the flags that DAA leaves, which do not depend on what was added or subtracted. -/
theorem long_decimal_exact (machines : List Machine) (nonempty : machines ≠ []) :
    let x := machines.map (·.registers.a)
    let results := machines.map (·.corrected.registers.a)
    let carry := (machines.getLast nonempty).corrected.flags.carry
    let modulus := 100 ^ machines.length
    (∀ y, (∀ byte ∈ x, IsDecimal byte) → (∀ byte ∈ y, IsDecimal byte) →
      (InTurn adjusted? corrected .add .adc machines y →
        (∀ byte ∈ results, IsDecimal byte) ∧
          decimalValue results + carry.toNat * modulus = decimalValue x + decimalValue y) ∧
      (InTurn adjusted? corrected .sub .sbc machines y →
        (∀ byte ∈ results, IsDecimal byte) ∧
          (decimalValue results : Int) =
            decimalValue x - decimalValue y + carry.toNat * modulus ∧
          (carry = true ↔ decimalValue x < decimalValue y))) ∧
    ∀ machine : Machine, machine.fetch.1 = .ok .decimalAdjust →
      machine.stepped.flags.halfCarry = false ∧
        (machine.stepped.flags.zero = true ↔ machine.stepped.registers.a = 0) ∧
        machine.stepped.flags.subtract = machine.flags.subtract := by
  intro x results carry modulus
  obtain ⟨lead, rest, rfl⟩ := List.exists_cons_of_ne_nil nonempty
  refine ⟨?numbers, fun machine stands => flags_of_decimalAdjust stands⟩
  intro y decimals operands
  have held : ∀ machine ∈ lead :: rest, IsDecimal machine.registers.a := by
    intro machine member
    exact decimals _ (List.mem_map_of_mem member)
  constructor
  · intro turns
    obtain ⟨corrects, value⟩ := value_of_decimal_sum held operands turns
    refine ⟨List.forall_mem_map.mpr corrects, ?_⟩
    change decimalValue x + decimalValue y = decimalValue results + modulus * carry.toNat at value
    rw [value, Nat.mul_comm]
  · intro turns
    obtain ⟨corrects, value⟩ := value_of_decimal_difference held operands turns
    have results : ∀ byte ∈ results, IsDecimal byte := List.forall_mem_map.mpr corrects
    have bound := decimalValue_lt results
    rw [List.length_map] at bound
    exact ⟨results, difference_of_sum value bound⟩

/-- ADD A,B; DAA; ADC A,B; DAA; SUB B; DAA; SBC A,B; DAA. -/
def decimalWork : Bytes := #[0x80, 0x27, 0x88, 0x27, 0x90, 0x27, 0x98, 0x27]

/-- Two bytes each: 4599 + 5401 and 0 - 1, with a carry out of both bytes, and the flags behind the
last DAA. -/
theorem long_decimal_exact_carrying :
    let adders := [worker decimalWork 0 0x99 0x01 false, worker decimalWork 2 0x45 0x54 true]
    let subtracters := [worker decimalWork 4 0x00 0x01 false, worker decimalWork 6 0x00 0x00 true]
    InTurn adjusted? corrected .add .adc adders [0x01, 0x54] ∧
      decimalValue (adders.map (·.corrected.registers.a)) + true.toNat * 100 ^ 2 =
        decimalValue [0x99, 0x45] + decimalValue [0x01, 0x54] ∧
      InTurn adjusted? corrected .sub .sbc subtracters [0x01, 0x00] ∧
      (decimalValue (subtracters.map (·.corrected.registers.a)) : Int) =
        decimalValue [0x00, 0x00] - decimalValue [0x01, 0x00] + true.toNat * (100 ^ 2 : Nat) ∧
      (worker decimalWork 7 0x9a 0x00 false).fetch.1 = .ok .decimalAdjust ∧
      (worker decimalWork 7 0x9a 0x00 false).stepped.flags.halfCarry = false := by
  intro adders subtracters
  have adding : InTurn adjusted? corrected .add .adc adders [0x01, 0x54] :=
    ⟨by decide +kernel, by decide +kernel⟩
  have subtracting : InTurn adjusted? corrected .sub .sbc subtracters [0x01, 0x00] :=
    ⟨by decide +kernel, by decide +kernel⟩
  have carries : (worker decimalWork 2 0x45 0x54 true).corrected.flags.carry = true ∧
      (worker decimalWork 6 0x00 0x00 true).corrected.flags.carry = true := by
    decide +kernel
  have adjusts : (worker decimalWork 7 0x9a 0x00 false).fetch.1 = .ok .decimalAdjust := by
    decide +kernel
  obtain ⟨numbers, flags⟩ := long_decimal_exact adders (by simp [adders])
  have sum := ((numbers [0x01, 0x54] (by decide +kernel) (by decide +kernel)).1 adding).2
  have difference := (((long_decimal_exact subtracters (by simp [subtracters])).1 [0x01, 0x00]
    (by decide +kernel) (by decide +kernel)).2 subtracting).2.1
  obtain ⟨summed, subtracted⟩ := carries
  dsimp only [adders, subtracters, List.getLast_cons_cons, List.getLast_singleton]
    at sum difference
  rw [summed] at sum
  rw [subtracted] at difference
  exact ⟨adding, sum, subtracting, difference, adjusts, (flags _ adjusts).1⟩

end Handheld.Machine
