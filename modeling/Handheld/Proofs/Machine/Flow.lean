import Handheld.Proofs.Machine.Clocks
import Handheld.Proofs.Machine.Transfers

/-!
# Where a step goes and what it costs

A step costs what the tables say, passes as many bytes as the tables say, and takes its operand from
the bytes behind the opcode. Only jumps, calls and returns then go anywhere else. A conditional one
either does all that its unconditional counterpart does or nothing. Main statement:
`step_follows_tables`.
-/
namespace Handheld.Machine

/-- The machine past the bytes that the tables give for the instruction it is at. -/
def past (machine : Machine) : Machine :=
  machine.skip (Opcode.length (machine.read machine.pc))

/-- An instruction at the program counter, behind so many bytes of opcode: one of the first page, or
two of which the second names it. None of them is fetched twice. -/
structure Stands (machine : Machine) (instruction : Instruction) (bytes : Nat) : Prop where
  advances : machine.cpu.repeatFetch = false
  fetch : machine.fetch = (.ok instruction, machine.skip bytes)
  length : bytes + instruction.operandBytes = Opcode.length (machine.read machine.pc)
  clocks : instruction.clocks machine.flags = 4 * machine.tableCycles
  transfers : Opcode.transfers.lookup (machine.read machine.pc) =
    if instruction.branches then some instruction else none
  page : bytes = 1 ∨ bytes = 2 ∧ ∃ second, instruction = .ofSecondByte second

/-! ## Every assigned byte is an instruction of the tables -/

section

variable {machine : Machine} {instruction : Instruction}
  (advances : machine.cpu.repeatFetch = false)
include advances

theorem stands_of_plain
    (named : Opcode.ofByte (machine.read machine.pc) = .plain instruction) :
    machine.Stands instruction 1 := by
  have first := Opcode.ne_prefix_of_plain named
  refine ⟨advances, ?fetch, Opcode.length_of_plain named, ?clocks,
    Opcode.transfers_of_plain named, .inl rfl⟩
  case fetch => rw [fetch_of_plain named, passByte_of_advances advances]
  case clocks => rw [Instruction.clocks, Opcode.cost_of_plain named, tableCycles, if_neg first]

theorem stands_of_extended
    (extended : Opcode.ofByte (machine.read machine.pc) = .extended) :
    machine.Stands (.ofSecondByte (machine.read (machine.pc + 1))) 2 := by
  have first := (Opcode.ofByte_eq_extended_iff _).mp extended
  refine ⟨advances, ?fetch, ?length, ?clocks, ?transfers, .inr ⟨rfl, _, rfl⟩⟩
  case fetch =>
    have second : (machine.skip 1).cpu.repeatFetch = false := advances
    rw [fetch_of_extended extended, passByte_of_advances advances, passByte_of_advances second,
      skip_skip]
    rfl
  case length =>
    rw [Opcode.operandBytes_ofSecondByte, first]
    decide
  case clocks => rw [Instruction.clocks, Opcode.cost_ofSecondByte, tableCycles, if_pos first]
  case transfers =>
    rw [first, Opcode.branches_ofSecondByte]
    rfl

/-- Every byte but the unassigned ones leads to an instruction. -/
theorem exists_stands (assigned : machine.read machine.pc ∉ Opcode.unassignedBytes) :
    ∃ instruction bytes, machine.Stands instruction bytes := by
  cases named : Opcode.ofByte (machine.read machine.pc) with
  | plain instruction => exact ⟨instruction, 1, stands_of_plain advances named⟩
  | extended => exact ⟨_, 2, stands_of_extended advances named⟩
  | unassigned => exact absurd ((Opcode.ofByte_eq_unassigned_iff _).mp named) assigned

/-- What a fetch gives is what the machine stands at, if no byte is fetched twice. -/
theorem stands_of_fetch (fetched : machine.fetch.1 = .ok instruction) :
    ∃ bytes, machine.Stands instruction bytes := by
  have assigned : machine.read machine.pc ∉ Opcode.unassignedBytes := by
    intro unassigned
    rw [← Opcode.ofByte_eq_unassigned_iff] at unassigned
    rw [fetch_of_unassigned unassigned] at fetched
    cases fetched
  obtain ⟨other, bytes, stands⟩ := exists_stands advances assigned
  rw [stands.fetch] at fetched
  cases fetched
  exact ⟨bytes, stands⟩

end

/-! ## Its step -/

namespace Stands

variable {machine : Machine} {instruction : Instruction} {bytes : Nat}
  (stands : machine.Stands instruction bytes)
include stands

theorem length_bounds :
    1 ≤ Opcode.length (machine.read machine.pc) ∧
      Opcode.length (machine.read machine.pc) ≤ 3 := by
  have few := instruction.operandBytes_le
  rw [← stands.length]
  rcases stands.page with rfl | ⟨rfl, second, rfl⟩
  · omega
  · rw [Opcode.operandBytes_ofSecondByte]
    decide

/-- The step takes the clocks of the tables, passes the bytes that they give, and has the effect of
the instruction with the bytes behind the opcode. -/
theorem step :
    machine.step = machine.completes (4 * machine.tableCycles)
      (machine.past.effect instruction machine.immediate) := by
  have still : (machine.skip bytes).cpu.repeatFetch = false := stands.advances
  have behind := execute_eq_effect still instruction
  rw [skip_skip, stands.length] at behind
  have operand : machine.past.effect instruction
      ((machine.skip bytes).bus.readWord (machine.skip bytes).pc) =
        machine.past.effect instruction machine.immediate := by
    rcases stands.page with rfl | ⟨_, second, rfl⟩
    · rw [immediate_eq_readWord]
      rfl
    · exact effect_of_bare (Opcode.operandBytes_ofSecondByte second) _ _ _
  rw [step_of_fetch stands.fetch, behind, ← operand, ← stands.clocks]
  rfl

theorem eq_of_transfers :
    ∀ transfer ∈ Opcode.transfers.lookup (machine.read machine.pc), instruction = transfer := by
  intro transfer listed
  rw [stands.transfers] at listed
  split at listed
  · exact Option.some.inj listed
  · cases listed

theorem destination?_of_not_transfers
    (unlisted : Opcode.transfers.lookup (machine.read machine.pc) = none) :
    machine.destination? instruction = none := by
  rw [stands.transfers] at unlisted
  split at unlisted
  · cases unlisted
  · rename_i stays
    rw [Bool.not_eq_true] at stays
    exact destination?_of_not_branches stays machine

/-- A transfer has an opcode of one byte, and so its operand lies right behind it. -/
theorem past_of_destination {target : UInt16}
    (goes : machine.destination? instruction = some target) :
    machine.past = machine.skip (1 + instruction.operandBytes) := by
  rw [past, ← stands.length]
  rcases stands.page with rfl | ⟨_, second, rfl⟩
  · rfl
  · rw [destination?_of_not_branches (Opcode.branches_ofSecondByte second)] at goes
    cases goes

theorem step_of_destination {target : UInt16}
    (goes : machine.destination? instruction = some target) :
    machine.step =
      machine.completes (4 * machine.tableCycles) (machine.past.arrive instruction target) := by
  rw [stands.step, stands.past_of_destination goes, effect_of_destination goes]

theorem step_of_fails (fails : instruction.condition.holds machine.flags = false) :
    machine.step = machine.completes (4 * machine.tableCycles) machine.past := by
  have idle : instruction.condition.holds machine.past.flags = false := fails
  rw [stands.step, effect_of_fails idle]

/-- Where a step goes, in one equation: where the instruction says, or past its bytes. -/
theorem pc : machine.step.2.pc = (machine.destination? instruction).getD machine.past.pc := by
  cases goes : machine.destination? instruction with
  | none =>
    have kept := pc_effect_of_no_destination goes (Opcode.length (machine.read machine.pc))
      machine.immediate
    rw [stands.step]
    exact (congrArg Registers.pc (registers_completes _ _ _)).trans kept
  | some target =>
    rw [stands.step_of_destination goes]
    exact (congrArg Registers.pc (registers_completes _ _ _)).trans (pc_arrive _ _ _)

end Stands

/-- The byte behind a relative jump is signed and counts from the next instruction. -/
theorem Stands.pc_of_jumpRelative {machine : Machine} {condition : Condition} {bytes : Nat}
    (stands : machine.Stands (.jumpRelative condition) bytes)
    (holds : condition.holds machine.flags = true) :
    (machine.step.2.pc.toNat : Int) =
      (machine.past.pc.toNat + (machine.read (machine.pc + 1)).toInt8.toInt) % 0x10000 := by
  have goes : machine.destination? (.jumpRelative condition) =
      some (machine.pc + 2 + signExtend (machine.read (machine.pc + 1))) := if_pos holds
  rw [stands.pc, goes, stands.past_of_destination goes]
  exact toNat_add_signExtend (machine.pc + 2) _

/-! ## Beside the unconditional instruction -/

theorem cpu_skip_congr {first second : Machine} (same : first.cpu = second.cpu) (bytes : Nat) :
    (first.skip bytes).cpu = (second.skip bytes).cpu := by
  obtain ⟨cpu, bus⟩ := first
  cases same
  rfl

theorem cpu_completes_congr {first second after other : Machine} (same : first.cpu = second.cpu)
    (alike : after.cpu = other.cpu) (clocks otherClocks : Nat) :
    (first.completes clocks after).2.cpu = (second.completes otherClocks other).2.cpu := by
  unfold completes settleEnable
  rw [same, alike]
  dsimp only
  split
  · rfl
  · exact alike

/-- A machine with the same processor that stands at the unconditional counterpart of an instruction
and goes to the same address. -/
structure Counterpart (other machine : Machine) (instruction : Instruction) : Prop where
  cpu : other.cpu = machine.cpu
  fetch : other.fetch.1 = .ok instruction.unconditional
  destination : other.destination? instruction.unconditional = machine.destination? instruction

/-- With the condition fulfilled, the two steps differ in the clocks at most. -/
theorem Stands.step_beside {machine other : Machine} {instruction : Instruction} {bytes : Nat}
    (stands : machine.Stands instruction bytes) (conditional : instruction.condition ≠ .always)
    (holds : instruction.condition.holds machine.flags = true)
    (beside : other.Counterpart machine instruction) :
    other.step.2.cpu = machine.step.2.cpu ∧
      other.step.2.bus = other.bus.stores (machine.past.arriveStores instruction) ∧
      ∃ clocks, other.step.1 = .ok clocks ∧
        4 * machine.tableCycles = clocks + instruction.conditionClocks := by
  have advances : other.cpu.repeatFetch = false := by rw [beside.cpu, stands.advances]
  obtain ⟨otherBytes, otherStands⟩ := stands_of_fetch advances beside.fetch
  obtain ⟨target, goes⟩ := exists_destination conditional holds
  have otherGoes := beside.destination.trans goes
  have step := stands.step_of_destination goes
  have otherStep := otherStands.step_of_destination otherGoes
  rw [arrive_unconditional] at otherStep
  have flags : other.flags = machine.flags := congrArg (·.registers.flags) beside.cpu
  have past : other.past.cpu = machine.past.cpu := by
    rw [stands.past_of_destination goes, otherStands.past_of_destination otherGoes,
      Instruction.operandBytes_unconditional]
    exact cpu_skip_congr beside.cpu _
  refine ⟨?cpu, ?bus, 4 * other.tableCycles, by rw [otherStep]; rfl, ?clocks⟩
  case cpu =>
    rw [step, otherStep]
    exact cpu_completes_congr beside.cpu (cpu_arrive_congr past instruction target) _ _
  case bus =>
    rw [otherStep, bus_completes, bus_arrive, arriveStores_congr past]
    rfl
  case clocks =>
    rw [← stands.clocks, ← otherStands.clocks, flags]
    exact Instruction.clocks_unconditional conditional holds

/-- The step of a machine that fetches no byte twice, at a byte that names an instruction. The
tables give its clocks, its length and its operand; the program counter goes past those bytes unless
a jump, a call or a return says otherwise. With its condition unfulfilled such an instruction does
nothing, and with its condition fulfilled it does what the unconditional one does, on this machine
and on any other one that stands at that one and has the same processor. Beside what is said here a
step lets a pending enable take effect. -/
theorem step_follows_tables (machine : Machine) (advances : machine.cpu.repeatFetch = false)
    (assigned : machine.read machine.pc ∉ Opcode.unassignedBytes) :
    let length := Opcode.length (machine.read machine.pc)
    let clocks := 4 * machine.tableCycles
    let operand := word (machine.read (machine.pc + 2)) (machine.read (machine.pc + 1))
    let next := machine.skip length
    let transfer? := Opcode.transfers.lookup (machine.read machine.pc)
    ∃ instruction, machine.fetch.1 = .ok instruction ∧
      machine.step.1 = .ok clocks ∧ 4 ≤ clocks ∧ clocks ≤ 24 ∧ 1 ≤ length ∧ length ≤ 3 ∧
      machine.step = machine.completes clocks (next.effect instruction operand) ∧
      (∀ transfer ∈ transfer?, instruction = transfer) ∧
      (transfer? = none → machine.destination? instruction = none) ∧
      machine.step.2.pc = (machine.destination? instruction).getD next.pc ∧
      (∀ condition, instruction = .jumpRelative condition →
        condition.holds machine.flags = true →
          (machine.step.2.pc.toNat : Int) =
            (next.pc.toNat + (machine.read (machine.pc + 1)).toInt8.toInt) % 0x10000) ∧
      (instruction.condition.holds machine.flags = false →
        machine.step = machine.completes clocks next) ∧
      (instruction.condition ≠ .always → instruction.condition.holds machine.flags = true →
        machine.step = machine.completes clocks (next.effect instruction.unconditional operand) ∧
        machine.step.2.bus = machine.bus.stores (next.arriveStores instruction) ∧
        ∀ other : Machine, other.Counterpart machine instruction →
          other.step.2.cpu = machine.step.2.cpu ∧
          other.step.2.bus = other.bus.stores (next.arriveStores instruction) ∧
          ∃ otherClocks, other.step.1 = .ok otherClocks ∧
            clocks = otherClocks + instruction.conditionClocks) := by
  intro length clocks operand next transfer?
  obtain ⟨instruction, bytes, stands⟩ := exists_stands advances assigned
  have fetched : machine.fetch.1 = .ok instruction := by rw [stands.fetch]
  have step := stands.step
  have ran : machine.step.1 = .ok clocks := by rw [step]; rfl
  obtain ⟨cycles, whole, least, most⟩ := cycles_of_step ran
  obtain ⟨shortest, longest⟩ := stands.length_bounds
  refine ⟨instruction, fetched, ran, by omega, by omega, shortest, longest, step,
    stands.eq_of_transfers, stands.destination?_of_not_transfers, stands.pc, ?relative,
    stands.step_of_fails, ?taken⟩
  case relative =>
    rintro condition rfl holds
    exact stands.pc_of_jumpRelative holds
  case taken =>
    intro conditional holds
    have sameFlags : instruction.condition.holds next.flags = true := holds
    obtain ⟨target, goes⟩ := exists_destination conditional holds
    refine ⟨?effect, ?bus, fun other beside => stands.step_beside conditional holds beside⟩
    case effect =>
      rw [effect_unconditional sameFlags]
      exact step
    case bus =>
      rw [stands.step_of_destination goes, bus_completes, bus_arrive]
      rfl

/-- CALL Z beside CALL, JR Z backwards, and JR NZ. -/
theorem step_follows_tables_branches :
    let calls := loaded #[0xcc, 0x34, 0x12]
    let plain := loaded #[0xcd, 0x34, 0x12]
    let loops := loaded #[0x28, 0xfb]
    let falls := loaded #[0x20, 0xfb]
    calls.step.1 = .ok 24 ∧ calls.step.2.pc = 0x1234 ∧ plain.step.2.cpu = calls.step.2.cpu ∧
      (loops.step.2.pc.toNat : Int) = (0x102 + -5) % 0x10000 ∧
      falls.step = falls.completes 8 (falls.skip 2) := by
  intro calls plain loops falls
  have named : Opcode.ofByte (calls.read calls.pc) = .plain (.call .zero) ∧
      Opcode.ofByte (plain.read plain.pc) = .plain (.call .always) ∧
      Opcode.ofByte (loops.read loops.pc) = .plain (.jumpRelative .zero) ∧
      Opcode.ofByte (falls.read falls.pc) = .plain (.jumpRelative .nonzero) := by
    decide +kernel
  have costs : 4 * calls.tableCycles = 24 ∧ 4 * falls.tableCycles = 8 ∧
      Opcode.length (falls.read falls.pc) = 2 := by
    decide +kernel
  have assigned : calls.read calls.pc ∉ Opcode.unassignedBytes ∧
      loops.read loops.pc ∉ Opcode.unassignedBytes ∧
      falls.read falls.pc ∉ Opcode.unassignedBytes := by
    decide +kernel
  obtain ⟨called, straight, looped, fell⟩ := named
  obtain ⟨callCost, fallCost, fallLength⟩ := costs
  have beside : plain.Counterpart calls (.call .zero) :=
    ⟨cpu_loaded _ _, congrArg Prod.fst (fetch_of_plain straight), by decide +kernel⟩
  obtain ⟨call, atCall, ran, _, _, _, _, _, _, _, went, _, _, taken⟩ :=
    step_follows_tables calls rfl assigned.1
  obtain ⟨loop, atLoop, _, _, _, _, _, _, _, _, _, relative, _⟩ :=
    step_follows_tables loops rfl assigned.2.1
  obtain ⟨fall, atFall, _, _, _, _, _, _, _, _, _, _, fails, _⟩ :=
    step_follows_tables falls rfl assigned.2.2
  rw [fetch_of_plain called] at atCall
  cases atCall
  rw [fetch_of_plain looped] at atLoop
  cases atLoop
  rw [fetch_of_plain fell] at atFall
  cases atFall
  have failed := fails (by decide +kernel)
  rw [fallCost, fallLength] at failed
  rw [callCost] at ran
  exact ⟨ran, went.trans (by decide +kernel),
    ((taken (by decide) (by decide +kernel)).2.2 plain beside).1,
    (relative .zero rfl (by decide +kernel)).trans (by decide +kernel), failed⟩

end Handheld.Machine
