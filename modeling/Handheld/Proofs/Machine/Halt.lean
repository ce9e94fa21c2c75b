import Handheld.Proofs.Bus.Requests
import Handheld.Proofs.Machine.Latches

/-!
# Halts, repeated fetches and requests

HALT either halts the processor or, when a request waits that nobody is going to serve, asks for the
next fetch to be repeated. It looks at the enable latches for that, and a halted processor runs no
instruction that could move them, so the four latches stay in agreement. A service then answers what
waits: behind it no request stands before a processor that serves requests or that halts.
-/
namespace Handheld

/-- The four latches fit together. Steps and services keep it so, and no state that breaks it comes
about from power-on. -/
structure Latches.Coherent (latches : Latches) : Prop where
  /-- HALT does one or the other. -/
  apart : ¬ (latches.halted = true ∧ latches.repeatFetch = true)
  /-- An enable takes effect at the end of the instruction that halts, at the latest. -/
  rests : latches.halted = true → latches.enablePending = false
  /-- A fetch is repeated only where no service could come in between. -/
  repeats : latches.repeatFetch = true →
    latches.masterEnable = false ∧ latches.enablePending = false

namespace Latches

variable {latches : Latches}

/-- The end of a step opens the master enable, and touches neither of the other two latches. -/
@[simp] theorem halted_settle (latches : Latches) (wasPending : Bool) :
    (latches.settle wasPending).halted = latches.halted := by
  unfold settle
  split <;> rfl

@[simp] theorem repeatFetch_settle (latches : Latches) (wasPending : Bool) :
    (latches.settle wasPending).repeatFetch = latches.repeatFetch := by
  unfold settle
  split <;> rfl

/-- An enable that was pending does not stay so. -/
theorem enablePending_settle_self (latches : Latches) :
    (latches.settle latches.enablePending).enablePending = false := by
  unfold settle
  cases pending : latches.enablePending with
  | true => rfl
  | false => exact pending

theorem Coherent.of_running (running : latches.halted = false)
    (passed : latches.repeatFetch = false) : latches.Coherent where
  apart := by simp [running]
  rests := by simp [running]
  repeats := by simp [passed]

theorem Coherent.of_resting (passed : latches.repeatFetch = false)
    (settled : latches.enablePending = false) : latches.Coherent where
  apart := by simp [passed]
  rests := fun _ => settled
  repeats := by simp [passed]

theorem coherent_powerOn (color : Bool) : (Processor.powerOn color).latches.Coherent :=
  .of_running rfl rfl

end Latches

namespace Machine

/-! ## Steps -/

/-- What an instruction leaves, once its opcode was passed by a processor that does not halt. -/
theorem coherent_latchesAfter {machine : Machine} (running : machine.cpu.halted = false)
    (passed : machine.cpu.repeatFetch = false) (instruction : Instruction) :
    ((machine.latchesAfter instruction).settle machine.cpu.enablePending).Coherent := by
  have halting : (Latches.settle { machine.latches with halted := true }
      machine.cpu.enablePending).Coherent :=
    .of_resting ((Latches.repeatFetch_settle _ _).trans passed)
      (Latches.enablePending_settle_self { machine.latches with halted := true })
  have advancing : (machine.latches.settle machine.cpu.enablePending).Coherent :=
    .of_running ((Latches.halted_settle _ _).trans running)
      ((Latches.repeatFetch_settle _ _).trans passed)
  cases instruction with
  | halt =>
    simp only [latchesAfter]
    split
    · rename_i skips
      simp only [haltSkips, Bool.and_eq_true, Bool.not_eq_true'] at skips
      obtain ⟨⟨disabled, idle⟩, _⟩ := skips
      rw [idle]
      refine ⟨?apart, fun _ => idle, fun _ => ⟨disabled, idle⟩⟩
      rintro ⟨halted, -⟩
      cases running.symm.trans halted
    · exact halting
  | stop =>
    simp only [latchesAfter]
    split
    · exact advancing
    · exact halting
  | disableInterrupts | enableInterrupts | returnEnable =>
    exact .of_running ((Latches.halted_settle _ _).trans running)
      ((Latches.repeatFetch_settle _ _).trans passed)
  | _ => exact advancing

/-- Whatever the latches were before, a step fits them together: it begins with a fetch. -/
theorem coherent_step {machine : Machine} (running : machine.cpu.halted = false) :
    machine.step.2.latches.Coherent := by
  cases fetch : machine.fetch with
  | mk outcome fetched =>
    cases outcome with
    | error fault =>
      rw [latches_step_of_fault fetch]
      exact .of_running running rfl
    | ok instruction =>
      obtain ⟨before, after⟩ := latches_step_of_fetch fetch
      have stillRunning : fetched.cpu.halted = false :=
        (congrArg Latches.halted before).trans running
      have passed : fetched.cpu.repeatFetch = false := congrArg Latches.repeatFetch before
      have pending : fetched.cpu.enablePending = machine.cpu.enablePending :=
        congrArg Latches.enablePending before
      rw [after, ← pending]
      exact coherent_latchesAfter stillRunning passed instruction

/-! ## Services -/

/-- While requests are not served, they end a halt and do nothing else. -/
theorem service_of_disabled {machine : Machine} (disabled : machine.cpu.masterEnable = false) :
    machine.service = (none,
      if machine.bus.interrupts.pending ≠ 0 then
        { machine with cpu := { machine.cpu with halted := false } }
      else machine) := by
  unfold service
  cases next : machine.bus.interrupts.next? with
  | none =>
    have idle := machine.bus.interrupts.next?_eq_none_iff.mp next
    rw [if_neg fun waiting => waiting idle]
  | some source =>
    have waiting : machine.bus.interrupts.pending ≠ 0 := by
      intro idle
      rw [machine.bus.interrupts.next?_eq_none_iff.mpr idle] at next
      cases next
    simp only [disabled, if_pos waiting]
    rfl

/-- A service keeps the latches together, whether it enters a routine, wakes the processor or does
nothing. -/
theorem coherent_service {machine : Machine} (coherent : machine.latches.Coherent) :
    machine.service.2.latches.Coherent := by
  rw [latches_service]
  split
  · exact
      { apart := by simp
        rests := by simp
        repeats := fun armed => ⟨rfl, (coherent.repeats armed).2⟩ }
  · exact coherent

/-- No request that is enabled stands before a processor that serves requests, or that halts. A
service leaves this behind; clocks and stores between two services may end it. -/
structure Attended (machine : Machine) : Prop where
  served : ¬ (machine.cpu.masterEnable = true ∧ machine.bus.interrupts.pending ≠ 0)
  woken : ¬ (machine.cpu.halted = true ∧ machine.bus.interrupts.pending ≠ 0)

theorem attended_of_no_request {machine : Machine} (idle : machine.bus.interrupts.pending = 0) :
    machine.Attended :=
  ⟨fun waiting => waiting.2 idle, fun waiting => waiting.2 idle⟩

/-- Requests may wait before a processor that runs and does not serve them. -/
theorem attended_of_latches {machine : Machine} (disabled : machine.latches.masterEnable = false)
    (running : machine.latches.halted = false) : machine.Attended where
  served := by
    rintro ⟨enabled, -⟩
    cases disabled.symm.trans enabled
  woken := by
    rintro ⟨halted, -⟩
    cases running.symm.trans halted

/-- A service that enters no routine either found nothing or woke a processor that serves nothing.
-/
theorem attended_service {machine : Machine} (unserved : machine.service.1 = none) :
    machine.service.2.Attended := by
  obtain ⟨-, bus, -⟩ | ⟨_, -, -, served, -⟩ := machine.service_cases
  · have latches := machine.latches_service
    cases waiting : machine.bus.interrupts.next? with
    | none =>
      refine attended_of_no_request ?_
      rw [bus]
      exact (machine.bus.interrupts.next?_eq_none_iff).mp waiting
    | some source =>
      rw [waiting] at latches
      exact attended_of_latches (congrArg Latches.masterEnable latches)
        (congrArg Latches.halted latches)
  · rw [unserved] at served
    cases served

/-- Entering a routine closes the service and ends the halt. -/
theorem closed_of_service {machine : Machine} {served : Nat}
    (serves : machine.service.1 = some served) :
    machine.service.2.latches.masterEnable = false ∧
      machine.service.2.latches.halted = false := by
  obtain ⟨idle, -⟩ | ⟨source, waiting, -⟩ := machine.service_cases
  · rw [serves] at idle
    cases idle
  · rw [latches_service, waiting]
    exact ⟨rfl, rfl⟩

/-- While the latches are coherent, a routine is entered between two instructions: no fetch was to
be repeated, the next one would have passed the byte at the program counter, and that address is
what is pushed. -/
theorem service_between_instructions {machine : Machine} (coherent : machine.latches.Coherent)
    {served : Nat} (serves : machine.service.1 = some served) :
    machine.cpu.repeatFetch = false ∧
      machine.nextByte = (machine.read machine.pc, machine.setPC (machine.pc + 1)) ∧
      ∃ source, machine.bus.interrupts.next? = some source ∧
        machine.service.2.bus =
          { machine.bus with interrupts := machine.bus.interrupts.acknowledge source }.stores
            (machine.pushStores machine.pc) := by
  obtain ⟨idle, -⟩ | ⟨source, waiting, enabled, -, -, bus⟩ := machine.service_cases
  · rw [serves] at idle
    cases idle
  · have advances : machine.cpu.repeatFetch = false := by
      cases armed : machine.cpu.repeatFetch with
      | false => rfl
      | true => cases (coherent.repeats armed).1.symm.trans enabled
    refine ⟨advances, ?passes, source, waiting, ?pushes⟩
    case passes =>
      simp [nextByte, passByte, advances]
    case pushes =>
      rw [bus, serviceStores, enabled, waiting]
      rfl

end Machine

end Handheld
