import Handheld.Proofs.Cartridge.Program
import Handheld.Proofs.Machine.Halt
import Handheld.Proofs.Machine.Operands
import Handheld.Proofs.Machine.Stack

/-!
# A service routine that only returns

Entering a service routine pushes the program counter and closes the service of requests; RETI pops
it and has the service opened again one instruction later. A routine of that one instruction is not
seen by the program that it interrupts, but for the clocks, the request that is gone and two bytes
below its stack. Main statement: `empty_routine_invisible`.
-/
namespace Handheld

/-- The source to serve first: it is requested and enabled, and no source before it is both. It is
told by bits here and not by the search that finds it. -/
structure Interrupts.First (interrupts : Interrupts) (source : Interrupt) : Prop where
  requested : interrupts.requested source = true
  enabled : interrupts.enabled source = true
  before : ∀ other : Interrupt, other.number < source.number →
    (interrupts.requested other && interrupts.enabled other) = false

theorem Interrupts.exists_first {interrupts : Interrupts} (waiting : interrupts.pending ≠ 0) :
    ∃ source, interrupts.next? = some source ∧ interrupts.First source := by
  cases next : interrupts.next? with
  | none => exact absurd (interrupts.next?_eq_none_iff.mp next) waiting
  | some source =>
    obtain ⟨⟨requested, enabled⟩, before⟩ := Interrupts.of_next? next
    exact ⟨source, rfl, requested, enabled, before⟩

/-- Service routines lie at the start of the image, far from the stack. -/
theorem Interrupt.vector_not_ram (source : Interrupt) : ¬ IsRam source.vector := by
  cases source <;> decide

namespace Machine

variable {machine : Machine}

/-- A push into RAM leaves what the rest of memory reads, the image included. -/
theorem read_push_of_not_ram (exist : machine.bus.banks.Exist)
    (room : HasRoom machine.registers.sp 2) (value : UInt16) {address : UInt16}
    (outside : ¬ IsRam address) : (machine.push value).read address = machine.read address := by
  have exist' : (machine.bus.write (machine.registers.sp - 1) (highByte value)).banks.Exist :=
    Bus.exist_write exist _ _
  have first : machine.registers.sp - 1 ≠ address := fun same => outside (same ▸ room.first)
  have second : machine.registers.sp - 2 ≠ address := fun same => outside (same ▸ room.second)
  have reads : (machine.push value).read address =
      ((machine.bus.write (machine.registers.sp - 1) (highByte value)).write
        (machine.registers.sp - 2) (lowByte value)).read address := rfl
  rw [reads, Bus.read_write_of_ram exist' room.second, if_neg second,
    Bus.read_write_of_ram exist room.first, if_neg first]
  rfl

/-- The machine that enters the routine of a source, before it pushes the program counter. -/
def answering (machine : Machine) (source : Interrupt) : Machine where
  cpu := { machine.cpu with halted := false, masterEnable := false }
  bus := { machine.bus with interrupts := machine.bus.interrupts.acknowledge source }

/-- The service of the next source, as an entry of the machine that has dropped its request. -/
theorem service_of_next {source : Interrupt} (enabled : machine.cpu.masterEnable = true)
    (next : machine.bus.interrupts.next? = some source) :
    machine.service = (some serviceClocks, (machine.answering source).enter source.vector) := by
  unfold service
  rw [next]
  exact if_pos enabled

/-- To leave a routine at its start, or behind some bytes of it, takes back all that entering it did
but the stores. -/
theorem leave_enter (exist : machine.bus.banks.Exist) (room : HasRoom machine.registers.sp 2)
    (target : UInt16) (bytes : Nat) :
    ((machine.enter target).skip bytes).leave =
      { machine with bus := (machine.push machine.pc).bus } := by
  have bus : ((machine.enter target).skip bytes).bus = (machine.push machine.pc).bus := rfl
  have sp : ((machine.enter target).skip bytes).registers.sp =
    (machine.push machine.pc).registers.sp := rfl
  have popped : ((machine.enter target).skip bytes).pop.1 = machine.pc := by
    rw [pop, bus, sp]
    exact readWord_push exist room machine.pc
  have level : machine.cpu.registers.sp - 2 + 2 = machine.cpu.registers.sp := by grind
  have left : ((machine.enter target).skip bytes).leave =
      ((machine.enter target).skip bytes).pop.2.setPC
        ((machine.enter target).skip bytes).pop.1 := rfl
  rw [left, popped]
  simp only [pop, setPC, withRegisters, enter, skip, push, registers, pc, write, level]

/-- A routine entered at a RETI is left again at once. -/
theorem step_of_empty_routine {target : UInt16} (exist : machine.bus.banks.Exist)
    (room : HasRoom machine.registers.sp 2) (advances : machine.cpu.repeatFetch = false)
    (idle : machine.cpu.enablePending = false) (outside : ¬ IsRam target)
    (empty : machine.read target = 0xd9) :
    (machine.enter target).step = (.ok 16,
      { cpu := { machine.cpu with enablePending := true }
        bus := (machine.push machine.pc).bus }) := by
  have fetched : (machine.enter target).read (machine.enter target).pc = 0xd9 := by
    rw [← empty, ← read_push_of_not_ram exist room machine.pc outside]
    rfl
  have named : Opcode.ofByte ((machine.enter target).read (machine.enter target).pc) =
      .plain .returnEnable := by
    rw [fetched]
    decide +kernel
  have still : (machine.enter target).cpu.repeatFetch = false := advances
  have waits : (machine.enter target).cpu.enablePending = false := idle
  have left : ((machine.enter target).skip 1).execute .returnEnable =
      ((machine.enter target).skip 1).leave.enableInterrupts := rfl
  rw [step_of_plain named, passByte_of_advances still, left, leave_enter exist room, completes,
    waits]
  rfl

/-- An enable that is pending takes effect at the end of every instruction but DI. -/
theorem masterEnable_step_of_pending (disabled : machine.cpu.masterEnable = false)
    (pending : machine.cpu.enablePending = true) :
    machine.step.2.cpu.masterEnable = true ↔
      ∃ instruction, machine.fetch.1 = .ok instruction ∧ instruction ≠ .disableInterrupts := by
  obtain ⟨instruction, fetched, fetch, -⟩ | ⟨fault, stopped, fetch, -⟩ := machine.step_cases
  · obtain ⟨before, after⟩ := latches_step_of_fetch fetch
    have fetchedPending : fetched.cpu.enablePending = true :=
      (congrArg Latches.enablePending before).trans pending
    have fetchedDisabled : fetched.cpu.masterEnable = false :=
      (congrArg Latches.masterEnable before).trans disabled
    have enabled := fetched.masterEnable_latchesAfter instruction
    have asked := fetched.enablePending_latchesAfter instruction
    rw [fetchedDisabled, Bool.and_false] at enabled
    rw [fetchedPending, Bool.and_true] at asked
    rw [masterEnable_of_latches after, pending, fetch, Latches.settle, Bool.true_and, asked]
    by_cases withdrawn : instruction = .disableInterrupts
    · subst withdrawn
      simp [Instruction.asksEnable, enabled]
    · simp [withdrawn]
  · have after := latches_step_of_fault fetch
    rw [masterEnable_of_latches after, fetch]
    simp [latches, Processor.latches, disabled]

/-- A service routine that only returns is not seen by the program that it interrupts. If requests
are served, no enable is pending and no fetch to be repeated, the two bytes below the stack lie in
RAM, and the routine of the first source begins with RETI, then entering it and one step, of 20 and
16 clocks, bring back every register and flag and end a halt. Of memory only that source's request
and the two bytes have changed. Requests are served again once the next instruction is done, unless
that is DI. If requests are not served, a service ends a halt when one waits, and does nothing else.
-/
theorem empty_routine_invisible (machine : Machine) :
    (machine.bus.banks.Exist → machine.cpu.masterEnable = true →
      machine.cpu.enablePending = false → machine.cpu.repeatFetch = false →
      machine.bus.interrupts.pending ≠ 0 →
      IsRam (machine.registers.sp - 1) → IsRam (machine.registers.sp - 2) →
      (∀ source, machine.bus.interrupts.First source → machine.read source.vector = 0xd9) →
      ∃ source, machine.bus.interrupts.First source ∧
        let served := machine.service.2
        let returned := served.step.2
        machine.service.1 = some 20 ∧ served.step.1 = .ok 16 ∧
          served.cpu.masterEnable = false ∧
          returned.cpu = { machine.cpu with
            halted := false, masterEnable := false, enablePending := true } ∧
          ({ machine.bus with
            interrupts := machine.bus.interrupts.acknowledge source } : Bus).SameBut returned.bus
              (Below machine.registers.sp 2) ∧
          returned.bus.interrupts.enable = machine.bus.interrupts.enable ∧
          (∀ other, returned.bus.interrupts.requested other =
            (machine.bus.interrupts.requested other && other != source)) ∧
          returned.service = (none, returned) ∧
          (returned.step.2.cpu.masterEnable = true ↔
            ∃ instruction, returned.fetch.1 = .ok instruction ∧
              instruction ≠ .disableInterrupts)) ∧
      (machine.cpu.masterEnable = false →
        machine.service = (none,
          if machine.bus.interrupts.pending ≠ 0 then
            { machine with cpu := { machine.cpu with halted := false } }
          else machine)) := by
  refine ⟨?served, service_of_disabled⟩
  intro exist enabled idle advances waiting high low empty
  obtain ⟨source, next, first⟩ := Interrupts.exists_first waiting
  have room : HasRoom machine.registers.sp 2 := by
    intro distance some inside
    obtain rfl | rfl : distance = 1 ∨ distance = 2 := by omega
    · exact high
    · exact low
  have service := service_of_next enabled next
  have vector : (machine.answering source).read source.vector = 0xd9 := by
    rw [← empty source first]
    cases source <;> rfl
  have exist' : (machine.answering source).bus.banks.Exist := exist
  have step := step_of_empty_routine exist' room advances idle source.vector_not_ram vector
  have same := sameBut_push exist' room machine.pc
  have interrupts : ((machine.answering source).push machine.pc).bus.interrupts =
      machine.bus.interrupts.acknowledge source := by
    obtain ⟨_, _, frame⟩ := same.frame
    rw [frame]
    rfl
  refine ⟨source, first, ?_⟩
  dsimp only
  rw [service]
  dsimp only
  rw [step]
  refine ⟨rfl, rfl, rfl, rfl, same, (congrArg Interrupts.enable interrupts).trans rfl, ?requests,
    ?service, masterEnable_step_of_pending rfl rfl⟩
  case requests =>
    intro other
    rw [← Interrupts.requested_acknowledge]
    exact congrArg (Interrupts.requested · other) interrupts
  case service =>
    rw [service_of_disabled rfl]
    split <;> rfl

/-- A machine about to serve the timer before the serial line, at an INC B and with both bytes below
its stack in high RAM. Each of the two routines is a RETI. -/
def interrupted : Machine where
  cpu := { registers := .powerOn false, masterEnable := true, halted := true }
  bus :=
    { cartridge :=
        .ofProgram (Array.replicate 0x50 0 ++ #[0xd9] ++ Array.replicate 7 0 ++ #[0xd9]) #[0x04]
      color := false
      interrupts := { enable := 0xff, flags := 0x0c } }

/-- It is back at the INC B with the serial request only, which waits for that instruction. Both
routines lie in the image, which dropping a request leaves alone. -/
theorem empty_routine_invisible_interrupted :
    let returned := interrupted.service.2.step.2
    returned.registers = interrupted.registers ∧ returned.bus.interrupts.flags = 0x08 ∧
      returned.service = (none, returned) ∧ returned.step.2.cpu.masterEnable = true ∧
      returned.service.2.cpu.halted = false := by
  intro returned
  have exist : interrupted.bus.banks.Exist := ⟨by decide +kernel, by decide +kernel⟩
  have empty : interrupted.read 0x50 = 0xd9 := by decide +kernel
  have after : returned.fetch.1 = .ok (.increment .b) := by decide +kernel
  have only : ∀ source, interrupted.bus.interrupts.First source → source = .timer := by
    intro source first
    have requested := first.requested
    have before := first.before .timer
    cases source with
    | timer => rfl
    | vblank | lcdStatus => cases requested
    | serial | joypad => cases before (by decide)
  have known : interrupted.service.2.step.2 = returned := rfl
  clear_value returned
  obtain ⟨served, -⟩ := empty_routine_invisible interrupted
  obtain ⟨source, first, -, -, -, cpu, same, -, -, idle, next⟩ :=
    served exist rfl rfl rfl (by decide) (by decide) (by decide)
      fun source first => only source first ▸ empty
  rw [known] at cpu same idle next
  obtain ⟨-, closed⟩ := empty_routine_invisible returned
  obtain ⟨workRam, highRam, frame⟩ := same.frame
  have flags : returned.bus.interrupts.flags =
      (interrupted.bus.interrupts.acknowledge source).flags := by
    rw [frame]
  rw [only source first] at flags
  have disabled : returned.cpu.masterEnable = false := congrArg Processor.masterEnable cpu
  have woken : returned.service.2.cpu.halted = false := by
    rw [closed disabled]
    split
    · rfl
    · exact congrArg Processor.halted cpu
  exact ⟨(congrArg Processor.registers cpu).trans rfl, flags, idle,
    next.mpr ⟨_, after, nofun⟩, woken⟩

end Machine

end Handheld
