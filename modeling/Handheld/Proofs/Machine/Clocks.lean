import Handheld.Machine.Step

/-!
# Clocks of steps and services

An instruction takes one to six machine cycles of four clocks each, and a service five. All clocks
counted by a machine are therefore whole machine cycles.
-/
namespace Handheld

theorem Instruction.cycles_le (instruction : Instruction) (taken : Bool) :
    instruction.cycles taken ≤ 6 := by
  cases instruction <;> simp only [cycles, Operand.cost] <;> (repeat' split) <;> decide

namespace Machine

variable {machine : Machine} {clocks : Nat}

theorem cycles_of_step (ran : machine.step.1 = .ok clocks) :
    ∃ cycles, clocks = 4 * cycles ∧ 1 ≤ cycles ∧ cycles ≤ 6 := by
  unfold step at ran
  dsimp only at ran
  split at ran
  · rename_i instruction after _
    cases Except.ok.inj ran
    exact ⟨_, rfl, instruction.cycles_pos _, instruction.cycles_le _⟩
  · cases ran

theorem clocks_of_service (served : machine.service.1 = some clocks) : clocks = 20 := by
  unfold service at served
  split at served
  · cases served
  · split at served
    · cases served
      rfl
    · cases served

end Machine

end Handheld
