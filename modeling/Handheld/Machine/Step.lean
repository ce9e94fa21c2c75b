import Handheld.Machine.Execute
import Handheld.Text.Hexadecimal

/-!
# Steps and interrupt service

The two things that a machine does in turn: run one instruction, and enter the service routine of
a waiting request. A byte that names no instruction stops the machine at that byte. Main
statements: a step and a service each take at least one clock, so a run bounded by clocks ends.
-/
namespace Handheld

/-- A byte that names no instruction, and where it was found. -/
structure UnassignedOpcode where
  opcode : UInt8
  address : UInt16
  deriving DecidableEq, Repr

def UnassignedOpcode.message (fault : UnassignedOpcode) : String :=
  "unimplemented opcode 0x" ++ Text.hexByte fault.opcode ++ " at 0x" ++ Text.hexWord fault.address

namespace Machine

/-- Fetches the opcode at the program counter, of two bytes where it takes two. An unassigned one
is not passed. -/
def fetch (machine : Machine) : Except UnassignedOpcode Instruction × Machine :=
  let start := machine.pc
  let (opcode, machine) := machine.nextByte
  match Opcode.ofByte opcode with
  | .plain instruction => (.ok instruction, machine)
  | .extended =>
    let (second, machine) := machine.nextByte
    (.ok (.ofSecondByte second), machine)
  | .unassigned => (.error ⟨opcode, start⟩, machine.setPC start)

/-- Lets an enable that was pending before the instruction take effect, unless the instruction has
withdrawn it. -/
def settleEnable (machine : Machine) (wasPending : Bool) : Machine :=
  if wasPending && machine.cpu.enablePending then
    { machine with cpu := { machine.cpu with masterEnable := true, enablePending := false } }
  else
    machine

/-- Runs one instruction and counts its clocks. -/
def step (machine : Machine) : Except UnassignedOpcode Nat × Machine :=
  let wasPending := machine.cpu.enablePending
  match machine.fetch with
  | (.ok instruction, machine) =>
    let clocks := instruction.clocks machine.flags
    (.ok clocks, (machine.execute instruction).settleEnable wasPending)
  | (.error fault, machine) => (.error fault, machine)

/-- Clocks that entering a service routine takes. -/
def serviceClocks : Nat := 20

/-- Enters the service routine of the first waiting request and counts the clocks of that. A
waiting request also ends a halt, even if it is not to be served. -/
def service (machine : Machine) : Option Nat × Machine :=
  match machine.bus.interrupts.next? with
  | none => (none, machine)
  | some source =>
    if machine.cpu.masterEnable then
      let machine : Machine :=
        { cpu := { machine.cpu with halted := false, masterEnable := false }
          bus := { machine.bus with interrupts := machine.bus.interrupts.acknowledge source } }
      (some serviceClocks, machine.enter source.vector)
    else
      (none, { machine with cpu := { machine.cpu with halted := false } })

theorem clocks_pos_of_step {machine : Machine} {clocks : Nat}
    (ran : machine.step.1 = .ok clocks) : 0 < clocks := by
  unfold step at ran
  dsimp only at ran
  split at ran
  · rename_i instruction after _
    cases Except.ok.inj ran
    exact Nat.mul_pos (by decide) (instruction.cycles_pos _)
  · cases ran

end Machine

end Handheld
