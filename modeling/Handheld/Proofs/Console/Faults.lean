import Handheld.Proofs.Cartridge.Program
import Handheld.Proofs.Console.Heads
import Handheld.Proofs.Machine.Fetch

/-!
# Where a frame breaks off

A frame breaks off at the first instruction that is no instruction: one of its turns, with the
processor not halted, has such a byte at the program counter. The console is then the one at the
head of that turn, so the caller may look at it, or mend the byte and go on. `unassigned_stops` says
so, and that one latch is the exception: a fetch that was to be repeated is not, afterwards.
-/
namespace Handheld.Console

variable {σ : Type} [VideoUnit σ]

theorem work_eq_error_iff (machine stopped : Machine) (fault : UnassignedOpcode) :
    work machine = (.error fault, stopped) ↔
      machine.cpu.halted = false ∧ machine.step = (.error fault, stopped) := by
  unfold work
  cases machine.cpu.halted with
  | true => simp
  | false => simp

/-- A turn fails as its work fails, before any clocks pass. -/
theorem turn_eq_error_iff (console stopped : Console σ) (fault : UnassignedOpcode) :
    console.turn = (.error fault, stopped) ↔
      ∃ machine, work console.machine = (.error fault, machine) ∧
        stopped = { console with machine } := by
  cases ran : work console.machine with
  | mk outcome machine =>
    cases outcome with
    | error failure =>
      rw [(console.turn_of_fault ran).2]
      constructor
      · rintro ⟨⟩
        exact ⟨machine, rfl, rfl⟩
      · rintro ⟨_, ⟨⟩, rfl⟩
        rfl
    | ok worked =>
      constructor
      · intro failed
        unfold turn at failed
        rw [ran] at failed
        dsimp only at failed
        split at failed <;> cases failed
      · rintro ⟨_, ⟨⟩, _⟩

/-- A step fails exactly at one of the eleven bytes, and says which one and where. A fetch that was
to be repeated is forgotten; all else is as it was, so that the machine is the same exactly if no
fetch was to be repeated. A frame fails exactly if one of its turns, not halted, begins at such a
byte, and leaves the console as it was at the head of that turn, with the same exception. What the
turns before it did is kept. -/
theorem unassigned_stops (machine : Machine) (console : Console σ) :
    (∀ fault stopped, machine.step = (.error fault, stopped) ↔
      machine.read machine.pc ∈ Opcode.unassignedBytes ∧
        fault = ⟨machine.read machine.pc, machine.pc⟩ ∧
        stopped = { machine with cpu := { machine.cpu with repeatFetch := false } }) ∧
      (∀ fault, machine.step = (.error fault, machine) ↔
        machine.read machine.pc ∈ Opcode.unassignedBytes ∧
          fault = ⟨machine.read machine.pc, machine.pc⟩ ∧ machine.cpu.repeatFetch = false) ∧
      ∀ fault stopped, console.runFrame = (.error fault, stopped) ↔
        ∃ head ∈ console.frameHeads,
          let before := head.machine
          before.cpu.halted = false ∧
            before.read before.pc ∈ Opcode.unassignedBytes ∧
            fault = ⟨before.read before.pc, before.pc⟩ ∧
            stopped = { head with
              machine := { before with cpu := { before.cpu with repeatFetch := false } } } := by
  refine ⟨fun fault stopped => machine.step_eq_error_iff stopped fault, ?kept, ?frame⟩
  case kept =>
    intro fault
    rw [machine.step_eq_error_iff, ← machine.disarm_eq_self_iff, eq_comm (a := machine)]
  case frame =>
    intro fault stopped
    rw [runFrame_eq_error_iff]
    constructor
    · rintro ⟨head, member, failed⟩
      obtain ⟨after, worked, rfl⟩ := (head.turn_eq_error_iff stopped fault).mp failed
      obtain ⟨running, stepped⟩ := (work_eq_error_iff _ _ _).mp worked
      obtain ⟨unassigned, rfl, rfl⟩ := (head.machine.step_eq_error_iff _ _).mp stepped
      exact ⟨head, member, running, unassigned, rfl, rfl⟩
    · rintro ⟨head, member, running, unassigned, rfl, rfl⟩
      have stepped := (head.machine.step_eq_error_iff _ _).mpr ⟨unassigned, rfl, rfl⟩
      have worked := (work_eq_error_iff _ _ _).mpr ⟨running, stepped⟩
      exact ⟨head, member, (head.turn_eq_error_iff _ _).mpr ⟨_, worked, rfl⟩⟩

/-- HALT with a request that waits and is not served, and then a byte that names no instruction. -/
def haltBeforeFault : Bus where
  cartridge := .ofProgram #[] #[0x76, 0xd3]
  color := false
  interrupts := { enable := 0x01, flags := 0x01 }

/-- The failed step has used up the repetition that HALT asked for: the machine is not the one that
stood at the byte. -/
theorem fault_forgets_repetition :
    let armed := (Machine.mk (.powerOn false) haltBeforeFault).step.2
    armed.step.1 = .error ⟨0xd3, 0x101⟩ ∧ armed.cpu.repeatFetch = true ∧
      armed.step.2 ≠ armed := by
  intro armed
  have before : armed.cpu.repeatFetch = true := by decide +kernel
  have byte : armed.read armed.pc = 0xd3 := by decide +kernel
  have place : armed.pc = 0x101 := by decide +kernel
  have failed : armed.step = (.error ⟨armed.read armed.pc, armed.pc⟩, armed.disarm) :=
    Machine.step_of_unassigned (by rw [byte]; decide +kernel)
  rw [failed, byte, place]
  refine ⟨rfl, before, ?_⟩
  intro same
  have after := armed.disarm_eq_self_iff.mp same
  rw [before] at after
  cases after

end Handheld.Console
