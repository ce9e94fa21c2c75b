import Handheld.Proofs.Cpu.Columns
import Handheld.Machine.Step

/-!
# Long numbers on machines that work in turn

A program works on a number of several bytes by one instruction, or a few of them, for each byte.
What it does in between does not matter as long as the carry flag gets from one byte to the next.
If the work on each byte is an exact column of a sum, the whole numbers add up.
-/
namespace Handheld

/-- One task for the first byte and another one for the rest. -/
def firstThen {Task : Type} (first next : Task) : List UInt8 → List (Task × UInt8)
  | [] => []
  | byte :: rest => (first, byte) :: rest.map (next, ·)

namespace Machine

/-- The machine after a step. -/
def stepped (machine : Machine) : Machine := machine.step.2

/-- Machines that work on the bytes of a long number in turn: the first one stands at `first`, the
others at `next`, and the carry flag that one machine leaves after its work is that with which the
one after it begins. Nothing else needs to be left alone in between. -/
structure InTurn {Task : Type} (task : Machine → Option (Task × UInt8)) (work : Machine → Machine)
    (first next : Task) (machines : List Machine) (bytes : List UInt8) : Prop where
  tasks : machines.map task = (firstThen first next bytes).map some
  linked : machines.IsChain fun before after => after.flags.carry = (work before).flags.carry

namespace InTurn

variable {Task : Type} {task : Machine → Option (Task × UInt8)} {work : Machine → Machine}
  {first next : Task} {lead : Machine} {rest : List Machine} {bytes : List UInt8}

/-- The byte of a task, as a digit. -/
def digitOf (digit : UInt8 → Nat) : Option (Task × UInt8) → Nat
  | some (_, byte) => digit byte
  | none => 0

theorem map_digitOf {machines : List Machine} (turns : InTurn task work first next machines bytes)
    (digit : UInt8 → Nat) :
    machines.map (fun machine => digitOf digit (task machine)) = bytes.map digit := by
  have digits := congrArg (List.map (digitOf digit)) turns.tasks
  rw [List.map_map, List.map_map] at digits
  refine digits.trans ?_
  cases bytes with
  | nil => rfl
  | cons byte bytes => simp [firstThen, digitOf]

theorem first_task (turns : InTurn task work first next (lead :: rest) bytes) :
    ∃ byte ∈ bytes, task lead = some (first, byte) := by
  have tasks := turns.tasks
  cases bytes with
  | nil => cases tasks
  | cons byte bytes => exact ⟨byte, by simp, (List.cons.inj tasks).1⟩

theorem next_task (turns : InTurn task work first next (lead :: rest) bytes) :
    ∀ machine ∈ rest, ∃ byte ∈ bytes, task machine = some (next, byte) := by
  have tasks := turns.tasks
  cases bytes with
  | nil => cases tasks
  | cons byte bytes =>
    intro machine member
    have rests := (List.cons.inj tasks).2
    have stands : task machine ∈ rest.map task := List.mem_map_of_mem member
    rw [rests] at stands
    simp only [List.map_map, List.mem_map, Function.comp_apply] at stands
    obtain ⟨other, belongs, same⟩ := stands
    exact ⟨other, by simp [belongs], same.symm⟩

theorem task_of_mem (turns : InTurn task work first next (lead :: rest) bytes) :
    ∀ machine ∈ lead :: rest, ∃ operation, ∃ byte ∈ bytes,
      task machine = some (operation, byte) ∧ (operation = first ∨ operation = next) := by
  intro machine member
  obtain rfl | later := List.mem_cons.mp member
  · obtain ⟨byte, belongs, stands⟩ := turns.first_task
    exact ⟨first, byte, belongs, stands, .inl rfl⟩
  · obtain ⟨byte, belongs, stands⟩ := turns.next_task machine later
    exact ⟨next, byte, belongs, stands, .inr rfl⟩

/-- The machine that works last, after its work. -/
abbrev final (work : Machine → Machine) (lead : Machine) (rest : List Machine) : Machine :=
  work ((lead :: rest).getLast (List.cons_ne_nil lead rest))

section

variable (turns : InTurn task work first next (lead :: rest) bytes) {base : Nat}
  {digit : UInt8 → Nat} {left total : Machine → Nat} (carryIn : Task → Flags → Bool)
  (closed : ∀ flags, carryIn first flags = false)
  (passes : ∀ flags, carryIn next flags = flags.carry)
include turns closed passes

/-- Numbers add up if the work on each byte is a column of the sum, the lowest byte first. -/
theorem sum_of_columns
    (column : ∀ machine ∈ lead :: rest, ∀ operation, ∀ byte ∈ bytes,
      task machine = some (operation, byte) → operation = first ∨ operation = next →
        left machine + digit byte + (carryIn operation machine.flags).toNat =
          total machine + base * (work machine).flags.carry.toNat) :
    Nat.ofDigits base ((lead :: rest).map left) + Nat.ofDigits base (bytes.map digit) =
      Nat.ofDigits base ((lead :: rest).map total) +
        base ^ (lead :: rest).length * (final work lead rest).flags.carry.toNat := by
  rw [← turns.map_digitOf]
  refine ofDigits_of_columns (fun machine => machine.flags.carry.toNat)
    (fun machine => (work machine).flags.carry.toNat) 0 ?lowest ?others
    (turns.linked.imp fun _ _ link => congrArg Bool.toNat link)
  case lowest =>
    obtain ⟨byte, member, stands⟩ := turns.first_task
    have whole := column lead (by simp) first byte member stands (.inl rfl)
    rw [closed] at whole
    rwa [stands]
  case others =>
    intro machine later
    obtain ⟨byte, member, stands⟩ := turns.next_task machine later
    have whole := column machine (by simp [later]) next byte member stands (.inr rfl)
    rw [passes] at whole
    rwa [stands]

/-- A number is twice another one, and a bit, if the work on each byte is a column of that sum, the
highest byte first. The bit is the last carry. -/
theorem double_of_columns
    (column : ∀ machine ∈ lead :: rest, ∀ operation, ∀ byte ∈ bytes,
      task machine = some (operation, byte) → operation = first ∨ operation = next →
        left machine + left machine + (work machine).flags.carry.toNat =
          digit byte + base * (carryIn operation machine.flags).toNat) :
    Nat.ofDigits base ((lead :: rest).map left).reverse +
        Nat.ofDigits base ((lead :: rest).map left).reverse +
        (final work lead rest).flags.carry.toNat =
      Nat.ofDigits base (bytes.map digit).reverse := by
  rw [← turns.map_digitOf]
  refine ofDigits_of_columns_down (fun machine => machine.flags.carry.toNat)
    (fun machine => (work machine).flags.carry.toNat) 0 ?highest ?others
    (turns.linked.imp fun _ _ link => congrArg Bool.toNat link)
  case highest =>
    obtain ⟨byte, member, stands⟩ := turns.first_task
    have whole := column lead (by simp) first byte member stands (.inl rfl)
    rw [closed] at whole
    rwa [stands]
  case others =>
    intro machine later
    obtain ⟨byte, member, stands⟩ := turns.next_task machine later
    have whole := column machine (by simp [later]) next byte member stands (.inr rfl)
    rw [passes] at whole
    rwa [stands]

end

end InTurn

end Machine

end Handheld
