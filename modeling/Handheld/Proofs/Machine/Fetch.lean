import Handheld.Machine.Step

/-!
# What a step makes of the byte it fetches

The byte at the program counter names an instruction, or leads to the second page, or names nothing.
In the first two cases the step runs the instruction and then lets a pending enable take effect. In
the third it says which byte it was and where, and leaves the machine as it found it, but for one
latch: the fetch of the byte ends the repetition that HALT may have asked for, and setting the
program counter back does not ask for it again.
-/
namespace Handheld

/-! ## The map, entry by entry -/

/-- A property of all entries of a list, each at its place, holds of whatever is looked up in
range. -/
theorem forall_getD {α : Type} {entries : List α} {motive : Nat → α → Prop}
    (all : ∀ entry ∈ entries.zipIdx, motive entry.2 entry.1) {place : Nat}
    (inside : place < entries.toArray.size) (default : α) :
    motive place (entries.toArray.getD place default) := by
  have found : entries[place]? = some (entries.toArray.getD place default) := by
    rw [Array.getD_eq_getD_getElem?, Array.getElem?_eq_getElem inside, Option.getD_some,
      ← List.getElem?_toArray, Array.getElem?_eq_getElem inside]
  exact all (_, place) (List.mem_zipIdx_iff_getElem?.mpr found)

namespace Opcode

/-- What the entries of the map show for their bytes holds of every byte. -/
theorem forall_ofByte {motive : UInt8 → Opcode → Prop}
    (entries : ∀ entry ∈ (lowerRows.map plain ++ upperRows).zipIdx,
      motive (UInt8.ofNat entry.2) entry.1) (byte : UInt8) : motive byte (ofByte byte) := by
  have inside : byte.toNat < table.size := by
    rw [size_table]
    exact byte.toNat_lt
  have entry := forall_getD (motive := fun place opcode => motive (UInt8.ofNat place) opcode)
    entries inside .unassigned
  rw [UInt8.ofNat_toNat] at entry
  exact entry

/-- The bytes that name no instruction. -/
def unassignedBytes : List UInt8 :=
  [0xd3, 0xdb, 0xdd, 0xe3, 0xe4, 0xeb, 0xec, 0xed, 0xf4, 0xfc, 0xfd]

theorem ofByte_eq_unassigned_iff (byte : UInt8) :
    ofByte byte = .unassigned ↔ byte ∈ unassignedBytes := by
  refine forall_ofByte
    (motive := fun byte opcode => opcode = .unassigned ↔ byte ∈ unassignedBytes) ?_ byte
  decide +kernel

end Opcode

namespace Machine

/-! ## Bytes that name an instruction -/

/-- The outcome of a step that takes so many clocks and whose instruction leaves `after`: an enable
that was pending before the step takes effect at the end of it. -/
def completes (machine : Machine) (clocks : Nat) (after : Machine) :
    Except UnassignedOpcode Nat × Machine :=
  (.ok clocks, after.settleEnable machine.cpu.enablePending)

/-- A step that fetches an instruction completes, with the clocks of the flags it started from. -/
theorem step_of_fetch {machine fetched : Machine} {instruction : Instruction}
    (fetch : machine.fetch = (.ok instruction, fetched)) :
    machine.step =
      machine.completes (instruction.clocks fetched.flags) (fetched.execute instruction) := by
  unfold step
  rw [fetch]
  rfl

theorem fetch_of_plain {machine : Machine} {instruction : Instruction}
    (named : Opcode.ofByte (machine.read machine.pc) = .plain instruction) :
    machine.fetch = (.ok instruction, machine.passByte) := by
  unfold fetch nextByte
  dsimp only
  rw [named]

/-- Behind the prefix the second byte names the instruction. The prefix alone may have been the byte
to repeat. -/
theorem fetch_of_extended {machine : Machine}
    (extended : Opcode.ofByte (machine.read machine.pc) = .extended) :
    let passed := machine.passByte
    machine.fetch = (.ok (.ofSecondByte (passed.read passed.pc)), passed.passByte) := by
  unfold fetch nextByte
  dsimp only
  rw [extended]

theorem step_of_plain {machine : Machine} {instruction : Instruction}
    (named : Opcode.ofByte (machine.read machine.pc) = .plain instruction) :
    machine.step =
      machine.completes (instruction.clocks machine.passByte.flags)
        (machine.passByte.execute instruction) :=
  step_of_fetch (fetch_of_plain named)

theorem step_of_extended {machine : Machine}
    (extended : Opcode.ofByte (machine.read machine.pc) = .extended) :
    let passed := machine.passByte
    let instruction := Instruction.ofSecondByte (passed.read passed.pc)
    machine.step =
      machine.completes (instruction.clocks passed.passByte.flags)
        (passed.passByte.execute instruction) :=
  step_of_fetch (fetch_of_extended extended)

/-! ## Bytes that name none -/

/-- The machine with no fetch to repeat. -/
def disarm (machine : Machine) : Machine :=
  { machine with cpu := { machine.cpu with repeatFetch := false } }

/-- A failed step leaves the machine exactly as it was if no repetition was due. -/
theorem disarm_eq_self_iff (machine : Machine) :
    machine.disarm = machine ↔ machine.cpu.repeatFetch = false := by
  constructor
  · intro same
    rw [← same]
    rfl
  · intro disarmed
    unfold disarm
    rw [← disarmed]

/-- Going back over a byte that was passed does not bring the repetition back. -/
theorem setPC_passByte (machine : Machine) :
    machine.passByte.setPC machine.pc = machine.disarm := by
  unfold passByte
  split
  · rfl
  · rename_i advances
    rw [Bool.not_eq_true] at advances
    exact ((disarm_eq_self_iff machine).mpr advances).symm

/-- The fault names the byte and where it stands, and the program counter is back there. -/
theorem fetch_of_unassigned {machine : Machine}
    (unassigned : Opcode.ofByte (machine.read machine.pc) = .unassigned) :
    machine.fetch = (.error ⟨machine.read machine.pc, machine.pc⟩, machine.disarm) := by
  unfold fetch nextByte
  dsimp only
  rw [unassigned, setPC_passByte]

/-- Nothing runs behind a fault, so the step leaves what the fetch leaves. The repetition that was
due is lost on the way. -/
theorem step_of_unassigned {machine : Machine}
    (unassigned : Opcode.ofByte (machine.read machine.pc) = .unassigned) :
    machine.step = (.error ⟨machine.read machine.pc, machine.pc⟩, machine.disarm) := by
  unfold step
  rw [fetch_of_unassigned unassigned]

/-- A step fails exactly at one of the eleven bytes. -/
theorem step_eq_error_iff (machine stopped : Machine) (fault : UnassignedOpcode) :
    machine.step = (.error fault, stopped) ↔
      machine.read machine.pc ∈ Opcode.unassignedBytes ∧
        fault = ⟨machine.read machine.pc, machine.pc⟩ ∧ stopped = machine.disarm := by
  rw [← Opcode.ofByte_eq_unassigned_iff]
  cases named : Opcode.ofByte (machine.read machine.pc) with
  | plain instruction => simp [step_of_plain named, completes]
  | extended => simp [step_of_extended named, completes]
  | unassigned =>
    rw [step_of_unassigned named]
    constructor
    · rintro ⟨⟩
      exact ⟨rfl, rfl, rfl⟩
    · rintro ⟨_, rfl, rfl⟩
      rfl

end Machine

end Handheld
