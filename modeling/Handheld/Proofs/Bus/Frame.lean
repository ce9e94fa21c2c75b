import Handheld.Bus.Write

/-!
# What copies, transfers and ports leave alone

Both copy engines read through the whole bus but write to memory only: one to object RAM, the other
to video RAM and, as it moves on, to its own registers in the I/O page. A serial transfer stays
within the I/O page but for the byte it sends and the interrupt it asks for. A store to any other
port sends nothing and leaves the cartridge alone; the joypad and the palettes change at their own
ports only. The rest of the bus stays as it was, and is found here as the bus with those stores
exchanged.
-/
namespace Handheld.Bus

/-- The first `count` cells of a fill of object RAM. -/
def copyObjectCells (bus : Bus) (source : UInt16) (count : Nat) : Bus :=
  Nat.fold count
    (fun cell _ bus =>
      { bus with
        objectRam := bus.objectRam.write cell (bus.read (source + UInt16.ofNat cell)) })
    bus

theorem copyObjects_eq_cells (bus : Bus) (source : UInt16) :
    bus.copyObjects source = bus.copyObjectCells source 0xa0 := rfl

/-- The last cell is filled from a bus in which the cells before it are new already. -/
theorem copyObjectCells_succ (bus : Bus) (source : UInt16) (count : Nat) :
    bus.copyObjectCells source (count + 1) =
      let copied := bus.copyObjectCells source count
      { copied with
        objectRam := copied.objectRam.write count (copied.read (source + UInt16.ofNat count)) } :=
  Nat.fold_succ _ _ _

/-- By induction on the cells: each store exchanges object RAM only. -/
theorem copyObjectCells_frame (bus : Bus) (source : UInt16) (count : Nat) :
    ∃ objectRam, bus.copyObjectCells source count = { bus with objectRam } := by
  induction count with
  | zero => exact ⟨bus.objectRam, rfl⟩
  | succ count ih =>
    obtain ⟨objectRam, copied⟩ := ih
    rw [copyObjectCells_succ, copied]
    exact ⟨_, rfl⟩

theorem copyObjects_frame (bus : Bus) (source : UInt16) :
    ∃ objectRam, bus.copyObjects source = { bus with objectRam } :=
  bus.copyObjectCells_frame source 0xa0

/-- The port's cells, the bytes sent and the requests are all that a transfer changes. -/
theorem sendSerial_frame (bus : Bus) :
    ∃ io sent interrupts, bus.sendSerial = { bus with io, sent, interrupts } := ⟨_, _, _, rfl⟩

/-- By induction on the bytes: each store exchanges video RAM only. -/
theorem copyVideo_frame (bus : Bus) (source target : UInt16) (count : Nat) :
    ∃ videoRam, bus.copyVideo source target count = { bus with videoRam } := by
  induction count generalizing bus source target with
  | zero => exact ⟨bus.videoRam, rfl⟩
  | succ count ih =>
    obtain ⟨videoRam, copied⟩ :=
      ih (bus.writeVideo target (bus.read source)) (source + 1) ((target + 1) &&& 0x1fff)
    rw [copyVideo, copied]
    exact ⟨videoRam, rfl⟩

theorem copyBlocks_frame (bus : Bus) (count : Nat) :
    ∃ videoRam io, bus.copyBlocks count = { bus with videoRam, io } := by
  obtain ⟨videoRam, copied⟩ := bus.copyVideo_frame bus.copySource bus.copyTarget (16 * count)
  unfold copyBlocks
  dsimp only
  rw [copied]
  exact ⟨videoRam, _, rfl⟩

theorem controlCopy_frame (bus : Bus) (value : UInt8) :
    ∃ videoRam io copyActive, bus.controlCopy value = { bus with videoRam, io, copyActive } := by
  unfold controlCopy
  split
  · split
    · exact ⟨bus.videoRam, _, false, rfl⟩
    · obtain ⟨videoRam, io, copied⟩ := bus.copyBlocks_frame ((value &&& 0x7f).toNat + 1)
      dsimp only
      rw [copied]
      exact ⟨videoRam, _, bus.copyActive, rfl⟩
  · exact ⟨bus.videoRam, _, true, rfl⟩

/-- Of all ports two start a copy when they are stored to. -/
theorem writeIo_copy_frame (bus : Bus) {address : UInt16} (value : UInt8)
    (copies : address = 0xff46 ∨ address = 0xff55) :
    ∃ videoRam objectRam io copyActive,
      bus.writeIo address value = { bus with videoRam, objectRam, io, copyActive } := by
  obtain rfl | rfl := copies
  · obtain ⟨objectRam, copied⟩ := (bus.setIo objectSource value).copyObjects_frame (word value 0)
    have stored : bus.writeIo 0xff46 value =
        (bus.setIo objectSource value).copyObjects (word value 0) := rfl
    rw [stored, copied]
    exact ⟨bus.videoRam, objectRam, _, bus.copyActive, rfl⟩
  · have stored : bus.writeIo 0xff55 value =
        if bus.color then bus.controlCopy value else bus.setIo (pageCell 0xff55) value := rfl
    rw [stored]
    split
    · obtain ⟨videoRam, io, copyActive, copied⟩ := bus.controlCopy_frame value
      rw [copied]
      exact ⟨videoRam, bus.objectRam, io, copyActive, rfl⟩
    · exact ⟨bus.videoRam, bus.objectRam, _, bus.copyActive, rfl⟩

/-- What a store to a port may change, unless it starts a serial transfer: of the memories only the
two that copies fill. The interrupts change at their own port alone. -/
theorem writeIo_frame (bus : Bus) {address : UInt16} (value : UInt8) (serial : address ≠ 0xff02) :
    ∃ videoRam videoBank workBank objectRam io joypad speedArmed copyActive background objects
      timer interrupts, (address ≠ 0xff0f → interrupts = bus.interrupts) ∧
        bus.writeIo address value =
          { bus with
            videoRam, videoBank, workBank, objectRam, io, joypad, speedArmed, copyActive
            background, objects, timer, interrupts } := by
  by_cases copies : address = 0xff46 ∨ address = 0xff55
  · obtain ⟨videoRam, objectRam, io, copyActive, copied⟩ := bus.writeIo_copy_frame value copies
    rw [copied]
    exact ⟨_, _, _, _, _, _, _, _, _, _, _, _, fun _ => rfl, rfl⟩
  · unfold writeIo
    cases device : IoRegister.ofAddress address <;> dsimp only
    case serialControl => exact absurd ((IoRegister.ofAddress_eq_iff rfl).mp device) serial
    case objectCopy => exact absurd (.inl ((IoRegister.ofAddress_eq_iff rfl).mp device)) copies
    case copyControl => exact absurd (.inr ((IoRegister.ofAddress_eq_iff rfl).mp device)) copies
    case requests =>
      have register := (IoRegister.ofAddress_eq_iff rfl).mp device
      exact ⟨_, _, _, _, _, _, _, _, _, _, _, _, fun other => absurd register other, rfl⟩
    case joypad | timer | lcdStatus | line | copyAddress | plain =>
      exact ⟨_, _, _, _, _, _, _, _, _, _, _, _, fun _ => rfl, rfl⟩
    all_goals
      split
      all_goals exact ⟨_, _, _, _, _, _, _, _, _, _, _, _, fun _ => rfl, rfl⟩

/-- The joypad and the palettes stay as they are under a store to any port but their own. What is
proved about either needs to look at its own ports only. -/
structure KeepsOthers (address : UInt16) (bus stored : Bus) : Prop where
  joypad : address ≠ 0xff00 → stored.joypad = bus.joypad
  background : address ∉ [0xff68, 0xff69] → stored.background = bus.background
  objects : address ∉ [0xff6a, 0xff6b] → stored.objects = bus.objects

/-- Port by port: the joypad, the index and the data ports are the ones that are excepted. -/
theorem keepsOthers_writeIo (bus : Bus) (address : UInt16) (value : UInt8) :
    KeepsOthers address bus (bus.writeIo address value) := by
  by_cases copies : address = 0xff46 ∨ address = 0xff55
  · obtain ⟨videoRam, objectRam, io, copyActive, copied⟩ := bus.writeIo_copy_frame value copies
    rw [copied]
    exact ⟨fun _ => rfl, fun _ => rfl, fun _ => rfl⟩
  · unfold writeIo
    cases device : IoRegister.ofAddress address <;> dsimp only
    case objectCopy => exact absurd (.inl ((IoRegister.ofAddress_eq_iff rfl).mp device)) copies
    case copyControl => exact absurd (.inr ((IoRegister.ofAddress_eq_iff rfl).mp device)) copies
    case joypad =>
      have own := (IoRegister.ofAddress_eq_iff rfl).mp device
      exact ⟨fun other => absurd own other, fun _ => rfl, fun _ => rfl⟩
    case backgroundIndex | backgroundData =>
      have own : address ∈ [0xff68, 0xff69] := by simp [(IoRegister.ofAddress_eq_iff rfl).mp device]
      split
      all_goals exact ⟨fun _ => rfl, fun other => absurd own other, fun _ => rfl⟩
    case objectIndex | objectData =>
      have own : address ∈ [0xff6a, 0xff6b] := by simp [(IoRegister.ofAddress_eq_iff rfl).mp device]
      split
      all_goals exact ⟨fun _ => rfl, fun _ => rfl, fun other => absurd own other⟩
    case timer | requests | lcdStatus | line | copyAddress | plain =>
      exact ⟨fun _ => rfl, fun _ => rfl, fun _ => rfl⟩
    all_goals
      split
      all_goals exact ⟨fun _ => rfl, fun _ => rfl, fun _ => rfl⟩

/-- Over the whole bus, since the other regions are memory or the cartridge. -/
theorem keepsOthers_write (bus : Bus) (address : UInt16) (value : UInt8) :
    KeepsOthers address bus (bus.write address value) := by
  unfold write
  cases Region.ofAddress address <;> dsimp only
  case io => exact bus.keepsOthers_writeIo address value
  all_goals exact ⟨fun _ => rfl, fun _ => rfl, fun _ => rfl⟩

/-! The registers of the block copy are the only cells of the I/O page that it stores to. -/

/-- The cells of source, target and progress. -/
def copyRegisters : List Nat :=
  [copySourceHigh, copySourceLow, copyTargetHigh, copyTargetLow, copyControl]

theorem read_setIo_of_ne (bus : Bus) {cell other : Nat} (value : UInt8) (apart : cell ≠ other) :
    (bus.setIo cell value).io.read other = bus.io.read other :=
  bus.io.read_write_of_ne value apart

theorem io_copyBlocks (bus : Bus) (count : Nat) {cell : Nat} (outside : cell ∉ copyRegisters) :
    (bus.copyBlocks count).io.read cell = bus.io.read cell := by
  have apart {register : Nat} (member : register ∈ copyRegisters) : register ≠ cell :=
    fun same => outside (same ▸ member)
  obtain ⟨videoRam, copied⟩ := bus.copyVideo_frame bus.copySource bus.copyTarget (16 * count)
  unfold copyBlocks
  dsimp only
  rw [copied, read_setIo_of_ne _ _ (apart (by decide)), read_setIo_of_ne _ _ (apart (by decide)),
    read_setIo_of_ne _ _ (apart (by decide)), read_setIo_of_ne _ _ (apart (by decide))]

theorem io_copyLineBlock (bus : Bus) {cell : Nat} (outside : cell ∉ copyRegisters) :
    bus.copyLineBlock.io.read cell = bus.io.read cell := by
  have control : copyControl ≠ cell := fun same => outside (same ▸ by decide)
  have kept := bus.io_copyBlocks 1 outside
  unfold copyLineBlock
  split
  · dsimp only
    split
    · rw [read_setIo_of_ne _ _ control]
      exact kept
    · rw [read_setIo_of_ne _ _ control]
      exact kept
  · rfl

theorem copyLineBlock_frame (bus : Bus) :
    ∃ videoRam io copyActive, bus.copyLineBlock = { bus with videoRam, io, copyActive } := by
  unfold copyLineBlock
  split
  · obtain ⟨videoRam, io, copied⟩ := bus.copyBlocks_frame 1
    rw [copied]
    dsimp only
    split
    · exact ⟨videoRam, _, false, rfl⟩
    · exact ⟨videoRam, _, bus.copyActive, rfl⟩
  · exact ⟨bus.videoRam, bus.io, bus.copyActive, rfl⟩

end Handheld.Bus
