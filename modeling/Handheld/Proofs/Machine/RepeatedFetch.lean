import Handheld.Proofs.Machine.Flow
import Handheld.Proofs.Machine.Fields
import Handheld.Proofs.Machine.Halt

/-!
# The repeated fetch behind HALT

HALT with a request that waits and is not served does not halt. It has the next fetch leave the
program counter where it is, once: the byte behind it is taken as an opcode and then again as the
first operand byte, or, where there is none, as the next opcode. Main statement:
`halt_repeats_fetch`. Only an instruction that goes nowhere else ends one address lower for that;
`repeated_fetch_unseen` gives two bytes behind which the program counter does not show it.
-/
namespace Handheld

/-- The instruction that runs when a byte is fetched twice: where it leads to the second page, it
is the second byte too. -/
def Opcode.repeated? (byte : UInt8) : Option Instruction :=
  match ofByte byte with
  | .plain instruction => some instruction
  | .extended => some (.ofSecondByte byte)
  | .unassigned => none

namespace Machine

/-- The machine with its next fetch to repeat. -/
def arm (machine : Machine) : Machine :=
  { machine with cpu := { machine.cpu with repeatFetch := true } }

variable {machine : Machine} {instruction : Instruction}

/-! ## One step with a fetch to repeat -/

theorem passByte_arm (advances : machine.cpu.repeatFetch = false) :
    machine.arm.passByte = machine := by
  have disarmed : machine.arm.passByte = machine.disarm := rfl
  rw [disarmed]
  exact (disarm_eq_self_iff machine).mpr advances

theorem completes_arm (machine : Machine) (clocks : Nat) (after : Machine) :
    machine.arm.completes clocks after = machine.completes clocks after := rfl

/-- The word whose first byte is the one at the program counter itself. -/
theorem readWord_pc (machine : Machine) :
    machine.bus.readWord machine.pc =
      word (machine.read (machine.pc + 1)) (machine.read machine.pc) := rfl

/-- Of its bytes a repeated instruction passes one less, and they lie one address lower. -/
theorem step_arm (advances : machine.cpu.repeatFetch = false)
    (repeated : Opcode.repeated? (machine.read machine.pc) = some instruction) :
    machine.arm.step = machine.completes (instruction.clocks machine.flags)
      ((machine.skip (Opcode.length (machine.read machine.pc) - 1)).effect instruction
        (machine.bus.readWord machine.pc)) := by
  unfold Opcode.repeated? at repeated
  cases named : Opcode.ofByte (machine.read machine.pc) with
  | plain other =>
    rw [named] at repeated
    cases repeated
    have stepped : machine.arm.step = machine.arm.completes
        (instruction.clocks machine.arm.passByte.flags)
        (machine.arm.passByte.execute instruction) :=
      step_of_plain named
    rw [stepped, passByte_arm advances, completes_arm, execute_eq_effect advances,
      ← Opcode.length_of_plain named, Nat.add_sub_cancel_left]
  | extended =>
    rw [named] at repeated
    cases repeated
    have stepped : machine.arm.step = machine.arm.completes
        ((Instruction.ofSecondByte (machine.arm.passByte.read machine.arm.passByte.pc)).clocks
          machine.arm.passByte.passByte.flags)
        (machine.arm.passByte.passByte.execute
          (.ofSecondByte (machine.arm.passByte.read machine.arm.passByte.pc))) :=
      step_of_extended named
    have still : (machine.skip 1).cpu.repeatFetch = false := advances
    have bare := Opcode.operandBytes_ofSecondByte (machine.read machine.pc)
    have length : Opcode.length (machine.read machine.pc) = 2 := by
      rw [(Opcode.ofByte_eq_extended_iff _).mp named]
      decide
    rw [stepped, passByte_arm advances, passByte_of_advances advances, completes_arm,
      execute_eq_effect still, bare, skip_zero, length,
      effect_of_bare bare _ _ (machine.bus.readWord machine.pc)]
    rfl
  | unassigned =>
    rw [named] at repeated
    cases repeated

/-- The repeated byte leads to the instruction that it names by itself, or to the one it names as a
second byte. -/
theorem fetch_arm (advances : machine.cpu.repeatFetch = false)
    (repeated : Opcode.repeated? (machine.read machine.pc) = some instruction) :
    machine.arm.fetch.1 = .ok instruction := by
  unfold Opcode.repeated? at repeated
  cases named : Opcode.ofByte (machine.read machine.pc) with
  | plain other =>
    have named' : Opcode.ofByte (machine.arm.read machine.arm.pc) = .plain other := named
    rw [named] at repeated
    cases repeated
    rw [fetch_of_plain named']
  | extended =>
    have named' : Opcode.ofByte (machine.arm.read machine.arm.pc) = .extended := named
    rw [named] at repeated
    cases repeated
    rw [fetch_of_extended named', passByte_arm advances]
  | unassigned =>
    rw [named] at repeated
    cases repeated

/-- A byte that names no instruction fails where it stands, whether or not its fetch is repeated. -/
theorem step_arm_of_unassigned
    (unassigned : Opcode.ofByte (machine.read machine.pc) = .unassigned) :
    machine.arm.step.1 = .error ⟨machine.read machine.pc, machine.pc⟩ ∧
      machine.arm.step.2.pc = machine.pc ∧
      machine.step.1 = .error ⟨machine.read machine.pc, machine.pc⟩ ∧
      machine.step.2.pc = machine.pc := by
  have named : Opcode.ofByte (machine.arm.read machine.arm.pc) = .unassigned := unassigned
  rw [step_of_unassigned named, step_of_unassigned unassigned]
  exact ⟨rfl, rfl, rfl, rfl⟩

/-- HALT that finds a request waiting that is not served. -/
theorem step_halt (disabled : machine.cpu.masterEnable = false)
    (idle : machine.cpu.enablePending = false) (advances : machine.cpu.repeatFetch = false)
    (waiting : machine.bus.interrupts.pending ≠ 0) (halts : machine.read machine.pc = 0x76) :
    machine.step = (.ok 4, (machine.skip 1).arm) := by
  have named : Opcode.ofByte (machine.read machine.pc) = .plain .halt := by
    rw [halts]
    decide +kernel
  have skips : (machine.skip 1).haltSkips = true := by
    have waits : (machine.bus.interrupts.pending != 0) = true := bne_iff_ne.mpr waiting
    have unfolded : (machine.skip 1).haltSkips =
      (!machine.cpu.masterEnable && !machine.cpu.enablePending &&
        machine.bus.interrupts.pending != 0) := rfl
    rw [unfolded, disabled, idle, waits]
    rfl
  have armed : (machine.skip 1).execute .halt = (machine.skip 1).arm := if_pos skips
  rw [step_of_plain named, passByte_of_advances advances, armed, completes, idle]
  rfl

/-! ## Instructions that go nowhere else -/

theorem pc_completes (machine : Machine) (clocks : Nat) (after : Machine) :
    (machine.completes clocks after).2.pc = after.pc :=
  congrArg Registers.pc (registers_completes machine clocks after)

/-- With or without the repetition an instruction stands at the program counter that goes nowhere
else. -/
theorem exists_stands_of_repeated (advances : machine.cpu.repeatFetch = false)
    (repeated : Opcode.repeated? (machine.read machine.pc) = some instruction)
    (stays : machine.destination? instruction = none) :
    ∃ other bytes, machine.Stands other bytes ∧ machine.destination? other = none := by
  unfold Opcode.repeated? at repeated
  cases named : Opcode.ofByte (machine.read machine.pc) with
  | plain other =>
    rw [named] at repeated
    cases repeated
    exact ⟨_, _, stands_of_plain advances named, stays⟩
  | extended =>
    exact ⟨_, _, stands_of_extended advances named,
      destination?_of_not_branches (Opcode.branches_ofSecondByte _) machine⟩
  | unassigned =>
    rw [named] at repeated
    cases repeated

/-- An instruction that goes nowhere else ends one address lower, as it has passed one byte less. -/
theorem pc_step_arm (advances : machine.cpu.repeatFetch = false)
    (repeated : Opcode.repeated? (machine.read machine.pc) = some instruction)
    (stays : machine.destination? instruction = none) :
    machine.arm.step.2.pc + 1 = machine.step.2.pc := by
  obtain ⟨other, bytes, stands, stays'⟩ := exists_stands_of_repeated advances repeated stays
  obtain ⟨some, -⟩ := stands.length_bounds
  have whole : Opcode.length (machine.read machine.pc) - 1 + 1 =
      Opcode.length (machine.read machine.pc) := Nat.sub_add_cancel some
  have armed : machine.arm.step.2.pc =
      (machine.skip (Opcode.length (machine.read machine.pc) - 1)).pc := by
    rw [step_arm advances repeated, pc_completes, pc_effect_of_no_destination stays]
  have plain : machine.step.2.pc =
      (machine.skip (Opcode.length (machine.read machine.pc) - 1 + 1)).pc := by
    rw [stands.pc, stays', whole]
    rfl
  rw [armed, plain, ← skip_skip]
  rfl

/-- An instruction without operand bytes that stays, stays as well after it has run once. -/
theorem stays_after {after : Machine} {operand : UInt16} {clocks : Nat}
    (bare : instruction.operandBytes = 0) (stays : machine.destination? instruction = none)
    (ran : after = (machine.completes clocks (machine.effect instruction operand)).2) :
    after.destination? instruction = none := by
  cases branches : instruction.branches with
  | false => exact destination?_of_not_branches branches after
  | true =>
    have fails : instruction.condition.holds machine.flags = false := by
      refine Bool.eq_false_iff.mpr fun holds => ?_
      unfold destination? at stays
      rw [if_pos holds] at stays
      cases instruction with
      | jump _ | jumpRelative _ | jumpHL | call _ | ret _ | returnEnable | restart _ => cases stays
      | _ => cases branches
    have same : after.flags = machine.flags := by
      rw [ran, flags_completes, effect_of_fails fails]
    unfold destination?
    rw [same, fails]
    rfl

/-! ## The latches -/

/-- Of the latches that matter here an instruction other than HALT moves none, up to STOP, which has
an operand byte. -/
theorem runs_latchesAfter (machine : Machine) (other : instruction ≠ .halt) :
    (machine.latchesAfter instruction).repeatFetch = machine.cpu.repeatFetch ∧
      (instruction.operandBytes = 0 →
        (machine.latchesAfter instruction).halted = machine.cpu.halted) := by
  cases instruction with
  | halt => exact absurd rfl other
  | stop =>
    refine ⟨?_, nofun⟩
    simp only [latchesAfter]
    split <;> rfl
  | _ => exact ⟨rfl, fun _ => rfl⟩

theorem latches_step_of_ran (ran : machine.fetch.1 = .ok instruction) :
    ∃ fetched : Machine, fetched.latches = { machine.latches with repeatFetch := false } ∧
      machine.step.2.latches =
        (fetched.latchesAfter instruction).settle machine.cpu.enablePending := by
  cases fetch : machine.fetch with
  | mk outcome fetched =>
    rw [fetch] at ran
    cases ran
    exact ⟨fetched, latches_step_of_fetch fetch⟩

/-- A step uses up a repetition, and only HALT asks for another. -/
theorem repeatFetch_step (ran : machine.fetch.1 = .ok instruction) (other : instruction ≠ .halt) :
    machine.step.2.cpu.repeatFetch = false := by
  obtain ⟨fetched, before, after⟩ := latches_step_of_ran ran
  rw [repeatFetch_of_latches after, Latches.repeatFetch_settle,
    (fetched.runs_latchesAfter other).1, repeatFetch_of_latches before]

/-- Nor does anything of one byte but HALT halt the processor. -/
theorem halted_step (ran : machine.fetch.1 = .ok instruction) (other : instruction ≠ .halt)
    (bare : instruction.operandBytes = 0) :
    machine.step.2.cpu.halted = machine.cpu.halted := by
  obtain ⟨fetched, before, after⟩ := latches_step_of_ran ran
  rw [halted_of_latches after, Latches.halted_settle,
    (fetched.runs_latchesAfter other).2 bare, halted_of_latches before]
  rfl

/-- Requests begin to be served only where an enable was pending. -/
theorem masterEnable_step_of_idle (disabled : machine.cpu.masterEnable = false)
    (idle : machine.cpu.enablePending = false) (ran : machine.fetch.1 = .ok instruction) :
    machine.step.2.cpu.masterEnable = false := by
  obtain ⟨fetched, before, after⟩ := latches_step_of_ran ran
  have closed : fetched.cpu.masterEnable = false :=
    (masterEnable_of_latches before).trans disabled
  rw [idle, Latches.settle, Bool.false_and] at after
  rw [masterEnable_of_latches after, if_neg Bool.false_ne_true, masterEnable_latchesAfter, closed,
    Bool.and_false]

/-! ## The byte behind HALT -/

theorem repeated?_of_plain {byte : UInt8} (named : Opcode.ofByte byte = .plain instruction) :
    Opcode.repeated? byte = some instruction := by
  unfold Opcode.repeated?
  rw [named]

theorem wake_of_running (running : machine.cpu.halted = false) :
    { machine with cpu := { machine.cpu with halted := false } } = machine := by
  rw [← running]

/-- An instruction of one byte that goes nowhere and leaves its byte runs twice, and nothing is
served in between. -/
theorem runs_twice (advances : machine.cpu.repeatFetch = false)
    (disabled : machine.cpu.masterEnable = false) (idle : machine.cpu.enablePending = false)
    (running : machine.cpu.halted = false)
    (named : Opcode.ofByte (machine.read machine.pc) = .plain instruction)
    (bare : instruction.operandBytes = 0) (other : instruction ≠ .halt)
    (stays : machine.destination? instruction = none)
    (kept : machine.arm.step.2.read machine.pc = machine.read machine.pc) :
    let first := machine.arm.step.2
    let second := first.step.2
    machine.arm.step =
        machine.completes (instruction.clocks machine.flags) (machine.execute instruction) ∧
      first.pc = machine.pc ∧ first.service = (none, first) ∧
      first.step =
        first.completes (instruction.clocks first.flags) ((first.skip 1).execute instruction) ∧
      second.pc = machine.pc + 1 ∧ second.nextByte = (second.read second.pc, second.skip 1) := by
  intro first second
  have isFirst : machine.arm.step.2 = first := rfl
  have isSecond : first.step.2 = second := rfl
  clear_value second first
  have length : Opcode.length (machine.read machine.pc) = 1 := by
    rw [← Opcode.length_of_plain named, bare]
  have armed : machine.arm.step = machine.completes (instruction.clocks machine.flags)
      (machine.effect instruction (machine.bus.readWord machine.pc)) := by
    rw [step_arm advances (repeated?_of_plain named), length, Nat.sub_self, skip_zero]
  have fetch := fetch_arm advances (repeated?_of_plain named)
  have disabled' : machine.arm.cpu.masterEnable = false := disabled
  have closed := masterEnable_step_of_idle disabled' idle fetch
  have used := repeatFetch_step fetch other
  have runs := (halted_step fetch other bare).trans running
  rw [isFirst] at kept closed used runs
  have ran := congrArg Prod.snd armed
  rw [isFirst] at ran
  have stays' : first.destination? instruction = none := stays_after bare stays ran
  have pc : first.pc = machine.pc := by
    have ends := pc_effect_of_no_destination stays 0 (machine.bus.readWord machine.pc)
    rw [skip_zero] at ends
    rw [ran, pc_completes, ends]
  have named' : Opcode.ofByte (first.read first.pc) = .plain instruction := by
    rw [pc, kept, named]
  have fetch' : first.fetch.1 = .ok instruction := by
    rw [fetch_of_plain named']
  have fresh := repeatFetch_step fetch' other
  rw [isSecond] at fresh
  refine ⟨?once, pc, ?between, ?again, ?behind, nextByte_of_advances fresh⟩
  case once => rw [armed, execute_eq_effect advances, bare, skip_zero]
  case between => rw [service_of_disabled closed, wake_of_running runs, ite_self]
  case again => rw [step_of_plain named', flags_passByte, passByte_of_advances used]
  case behind =>
    have ends := (stands_of_plain used named').pc
    rw [stays', isSecond] at ends
    rw [ends, Option.getD_none, past, pc, kept, length]
    exact congrArg (· + 1) pc

/-- HALT that finds a request waiting, with nothing to serve it, does not halt, and a service
changes nothing but to wake. With `plain` the machine behind it as it would run on without a
repetition: a byte that names no instruction fails there, and would without it; any other is taken
as an opcode and as the byte that follows, so that the operands come from one address lower and an
instruction that goes nowhere else ends one address lower; the repetition is used up unless the
instruction is HALT again. An instruction of one byte that goes nowhere and leaves its byte runs
twice, first without moving on, with nothing served in between, and the fetch behind that is an
ordinary one. -/
theorem halt_repeats_fetch (machine : Machine) (disabled : machine.cpu.masterEnable = false)
    (idle : machine.cpu.enablePending = false) (advances : machine.cpu.repeatFetch = false)
    (waiting : machine.bus.interrupts.pending ≠ 0) (halts : machine.read machine.pc = 0x76) :
    let plain := ({ machine with cpu := { machine.cpu with halted := false } } : Machine).skip 1
    let byte := plain.read plain.pc
    let first := plain.arm.step.2
    let second := first.step.2
    machine.step = (.ok 4, (machine.skip 1).arm) ∧
      (machine.skip 1).arm.service = (none, plain.arm) ∧
      (byte ∈ Opcode.unassignedBytes →
        plain.arm.step.1 = .error ⟨byte, plain.pc⟩ ∧ first.pc = plain.pc ∧
          plain.step.1 = .error ⟨byte, plain.pc⟩ ∧ plain.step.2.pc = plain.pc) ∧
      (∀ instruction, Opcode.repeated? byte = some instruction →
        plain.arm.step = plain.completes (instruction.clocks plain.flags)
            ((plain.skip (Opcode.length byte - 1)).effect instruction
              (word (plain.read (plain.pc + 1)) byte)) ∧
          (plain.destination? instruction = none → first.pc + 1 = plain.step.2.pc) ∧
          (instruction ≠ .halt → first.cpu.repeatFetch = false)) ∧
      ∀ instruction, Opcode.ofByte byte = .plain instruction → instruction.operandBytes = 0 →
        instruction ≠ .halt → plain.destination? instruction = none →
        first.read plain.pc = byte →
        plain.arm.step =
            plain.completes (instruction.clocks plain.flags) (plain.execute instruction) ∧
          first.pc = plain.pc ∧ first.service = (none, first) ∧
          first.step =
            first.completes (instruction.clocks first.flags)
              ((first.skip 1).execute instruction) ∧
          second.pc = plain.pc + 1 ∧
          second.nextByte = (second.read second.pc, second.skip 1) := by
  intro plain byte first second
  have disabled' : plain.cpu.masterEnable = false := disabled
  have idle' : plain.cpu.enablePending = false := idle
  have advances' : plain.cpu.repeatFetch = false := advances
  have running : plain.cpu.halted = false := rfl
  refine ⟨step_halt disabled idle advances waiting halts, ?wakes, ?rest⟩
  case wakes =>
    have disabled'' : (machine.skip 1).arm.cpu.masterEnable = false := disabled
    rw [service_of_disabled disabled'']
    exact congrArg (Prod.mk none) (if_pos waiting)
  have isFirst : plain.arm.step.2 = first := rfl
  have isSecond : first.step.2 = second := rfl
  clear_value second first plain
  rw [← isSecond, ← isFirst]
  refine ⟨?fails, ?repeats, ?twice⟩
  case fails =>
    intro unassigned
    exact step_arm_of_unassigned ((Opcode.ofByte_eq_unassigned_iff byte).mpr unassigned)
  case repeats =>
    intro instruction repeated
    have stepped := step_arm advances' repeated
    rw [readWord_pc] at stepped
    exact ⟨stepped, pc_step_arm advances' repeated,
      repeatFetch_step (fetch_arm advances' repeated)⟩
  case twice =>
    intro instruction named bare other stays kept
    exact runs_twice advances' disabled' idle' running named bare other stays kept

/-- A machine at the start of a program, with a request that waits and is not served. -/
def unattended (program : Bytes) : Machine :=
  { loaded program with
    bus := { (loaded program).bus with interrupts := { enable := 0x01, flags := 0x01 } } }

/-- HALT and INC A: the register counts twice. -/
theorem halt_repeats_fetch_counting :
    let halting := unattended #[0x76, 0x3c, 0x00]
    let first := halting.step.2.service.2.step.2
    halting.step.2.service.1 = none ∧ first.registers.a = 0x02 ∧ first.pc = 0x101 ∧
      first.service = (none, first) ∧ first.step.2.registers.a = 0x03 ∧
      first.step.2.pc = 0x102 := by
  intro halting first
  have halts : halting.read halting.pc = 0x76 := by decide +kernel
  have waiting : halting.bus.interrupts.pending ≠ 0 := by decide
  have counts : first.registers.a = 0x02 ∧ first.step.2.registers.a = 0x03 := by decide +kernel
  have same : halting.step.2.service.2.step.2 = first := rfl
  clear_value first
  obtain ⟨halted, woken, -, -, twice⟩ := halt_repeats_fetch halting rfl rfl rfl waiting halts
  obtain ⟨-, pc, between, -, ends, -⟩ := twice (.increment .a) (by decide +kernel) rfl nofun
    (by decide +kernel) (by decide +kernel)
  rw [halted, woken] at same
  rw [same] at pc between ends
  refine ⟨?_, counts.1, pc.trans (by decide +kernel), between, counts.2,
    ends.trans (by decide +kernel)⟩
  rw [halted, woken]

/-- Two bytes behind HALT after which the program counter is where it would be without the
repetition: JP HL, which goes to the address in HL, and a byte that names no instruction. -/
theorem repeated_fetch_unseen :
    let jumping := (unattended #[0x76, 0xe9]).step.2.service.2
    let failing := (unattended #[0x76, 0xd3]).step.2.service.2
    (jumping.cpu.repeatFetch = true ∧ jumping.read jumping.pc = 0xe9 ∧
        jumping.step.2.pc = jumping.registers.hl ∧
        jumping.step.2.pc = jumping.disarm.step.2.pc) ∧
      failing.cpu.repeatFetch = true ∧ failing.read failing.pc = 0xd3 ∧
        failing.step.2.pc = failing.pc ∧
        failing.step.2.pc = failing.disarm.step.2.pc := by
  decide +kernel

end Machine

end Handheld
