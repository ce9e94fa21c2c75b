import Handheld.Bus.PowerOn
import Handheld.Proofs.Bus.Frame
import Handheld.Proofs.Machine.Stores
import Handheld.Proofs.Strict.Read

/-!
# What reaches the bus from outside

Programs store bytes, clocks pass for the timer, keys are pressed, the speed is switched and the
video unit asks for its block of a copy. A store to the I/O page reaches the cell of its own port;
only a serial transfer and a block copy go to further cells. Everything else on the page, such as
what the video unit shows, is left alone.
-/
namespace Handheld

namespace IoRegister

/-- The cell of a register that stores to a place of its own, whatever address was used. -/
def place? : IoRegister → Option Nat
  | serialControl => some Bus.serialControl
  | lcdStatus => some Bus.lcdStatus
  | line => some Bus.line
  | objectCopy => some Bus.objectSource
  | copyControl => some Bus.copyControl
  | _ => none

theorem pageCell_of_place {address : UInt16} {cell : Nat}
    (place : (ofAddress address).place? = some cell) : pageCell address = cell := by
  unfold ofAddress at place
  split at place <;> cases place <;> rfl

end IoRegister

namespace Bus

/-- The address at which a cell of the I/O page is stored to. -/
def port (cell : Nat) : UInt16 := 0xff00 + UInt16.ofNat cell

theorem port_pageCell {address : UInt16} (inPage : Region.ofAddress address = .io) :
    port (pageCell address) = address := by
  obtain ⟨low, high⟩ := Region.bounds address
  rw [inPage] at low high
  have first : 0xff00 ≤ address.toNat := low
  have last : address.toNat ≤ 0xff7f := high
  have base : (0xff00 : UInt16).toNat = 0xff00 := rfl
  apply UInt16.toNat_inj.mp
  rw [port, UInt16.toNat_add, UInt16.toNat_ofNat', pageCell_eq, base]
  omega

/-- The cells of the two addresses that a block copy moves on. -/
def copyAddresses : List Nat := [copySourceHigh, copySourceLow, copyTargetHigh, copyTargetLow]

/-- The cells that a store to another port may change. -/
def sharedCells : List Nat := serialData :: copyAddresses

variable {cell : Nat}

theorem io_sendSerial (bus : Bus) (data : serialData ≠ cell) (control : serialControl ≠ cell) :
    bus.sendSerial.io.read cell = bus.io.read cell := by
  have later := read_setIo_of_ne
    (({ bus with sent := bus.sent.push (bus.io.read serialData) } : Bus).setIo serialData 0xff)
    (bus.io.read serialControl &&& 0x7f) control
  exact later.trans (bus.read_setIo_of_ne 0xff data)

/-- A store to the copy's register may move the addresses, and changes no cell beside the copy's
own. -/
theorem io_controlCopy (bus : Bus) (value : UInt8) (outside : cell ∉ copyRegisters) :
    (bus.controlCopy value).io.read cell = bus.io.read cell := by
  have control : copyControl ≠ cell := fun same => outside (same ▸ by decide)
  unfold controlCopy
  split
  · split
    · exact bus.read_setIo_of_ne _ control
    · exact (read_setIo_of_ne _ _ control).trans (bus.io_copyBlocks _ outside)
  · exact bus.read_setIo_of_ne _ control

/-- A store to a port leaves all other cells alone, but that a serial transfer also replaces the
data byte and a block copy moves its addresses on. -/
theorem io_writeIo_of_port {address : UInt16} (bus : Bus) (value : UInt8)
    (apart : pageCell address ≠ cell) (transfer : address = 0xff02 → cell ≠ serialData)
    (copy : address = 0xff55 → cell ∉ copyAddresses) :
    (bus.writeIo address value).io.read cell = bus.io.read cell := by
  have elsewhere := bus.read_setIo_of_ne value apart
  have place {own : Nat} (register : (IoRegister.ofAddress address).place? = some own) :
      own ≠ cell := IoRegister.pageCell_of_place register ▸ apart
  unfold writeIo
  cases device : IoRegister.ofAddress address <;> rw [device] at place <;> dsimp only
  case serialControl =>
    have control : serialControl ≠ cell := place rfl
    have data : serialData ≠ cell := (transfer ((IoRegister.ofAddress_eq_iff rfl).mp device)).symm
    have stored := bus.read_setIo_of_ne value control
    split
    · exact (io_sendSerial _ data control).trans stored
    · exact stored
  case lcdStatus => exact bus.read_setIo_of_ne _ (place rfl)
  case line => exact bus.read_setIo_of_ne _ (place rfl)
  case objectCopy =>
    obtain ⟨objectRam, copied⟩ := (bus.setIo objectSource value).copyObjects_frame (word value 0)
    rw [copied]
    exact bus.read_setIo_of_ne value (place rfl)
  case copyControl =>
    have control : copyControl ≠ cell := place rfl
    have alone : cell ∉ copyAddresses := copy ((IoRegister.ofAddress_eq_iff rfl).mp device)
    have outside : cell ∉ copyRegisters := by
      intro member
      simp only [copyRegisters, List.mem_cons, List.not_mem_nil, or_false] at member
      simp only [copyAddresses, List.mem_cons, List.not_mem_nil, or_false] at alone
      omega
    split
    · exact bus.io_controlCopy value outside
    · exact elsewhere
  case copyAddress | plain => exact elsewhere
  case backgroundIndex | backgroundData | objectIndex | objectData =>
    split
    · rfl
    · exact elsewhere
  case speed | videoBank | workBank => split <;> rfl

theorem io_write_of_port {address : UInt16} (bus : Bus) (value : UInt8)
    (apart : address ≠ port cell) (transfer : address = 0xff02 → cell ≠ serialData)
    (copy : address = 0xff55 → cell ∉ copyAddresses) :
    (bus.write address value).io.read cell = bus.io.read cell := by
  unfold write
  cases region : Region.ofAddress address <;> dsimp only
  case io =>
    refine bus.io_writeIo_of_port value ?_ transfer copy
    intro same
    exact apart (same ▸ port_pageCell region).symm
  all_goals rfl

/-- A store leaves a cell of the I/O page alone unless it goes to the port of that cell. -/
theorem io_write_of_ne {address : UInt16} (bus : Bus) (value : UInt8) (apart : address ≠ port cell)
    (alone : cell ∉ sharedCells) : (bus.write address value).io.read cell = bus.io.read cell :=
  bus.io_write_of_port value apart (fun _ data => alone (data ▸ List.mem_cons_self))
    fun _ member => alone (List.mem_cons_of_mem _ member)

/-! ## Actions -/

/-- What happens to a bus from outside. -/
inductive Action where
  | write (address : UInt16) (value : UInt8)
  | tick (clocks : Nat)
  | press (key : Key)
  | release (key : Key)
  | switchSpeed
  /-- The video unit is done with a line. -/
  | copyLineBlock
  deriving DecidableEq, Repr

/-- The bus after an action. -/
def perform (bus : Bus) : Action → Bus
  | .write address value => bus.write address value
  | .tick clocks => bus.tick clocks
  | .press key => bus.press key
  | .release key => bus.release key
  | .switchSpeed => bus.switchSpeed.2
  | .copyLineBlock => bus.copyLineBlock

/-- The bus after a history, first action first. -/
def performAll (bus : Bus) (actions : List Action) : Bus := actions.foldl perform bus

theorem performAll_append (bus : Bus) (first second : List Action) :
    bus.performAll (first ++ second) = (bus.performAll first).performAll second := by
  simp [performAll]

theorem tick_frame (bus : Bus) (clocks : Nat) :
    ∃ timer interrupts, bus.tick clocks = { bus with timer, interrupts } := by
  unfold tick
  split
  · exact ⟨_, _, rfl⟩
  · exact ⟨_, bus.interrupts, rfl⟩

theorem press_frame (bus : Bus) (key : Key) :
    ∃ joypad interrupts, bus.press key = { bus with joypad, interrupts } := by
  unfold press
  split
  · exact ⟨_, _, rfl⟩
  · exact ⟨_, bus.interrupts, rfl⟩

/-- What a switch of the speed may change. The timer starts its divider anew. -/
theorem switchSpeed_frame (bus : Bus) :
    ∃ speedArmed doubleSpeed timer,
      bus.switchSpeed.2 = { bus with speedArmed, doubleSpeed, timer } := by
  unfold switchSpeed
  split
  · exact ⟨_, _, _, rfl⟩
  · exact ⟨bus.speedArmed, bus.doubleSpeed, bus.timer, rfl⟩

/-- A property that every store of the start-up program keeps holds after power-on, but for the
cell of the copy register, which is set last. -/
theorem powerOn_induction {motive : Bus → Prop} (cartridge : Cartridge) (color : Bool)
    (blank : motive { cartridge, color })
    (keeps : ∀ bus, ∀ byte ∈ startupWrites, motive bus → motive (bus.write byte.1 byte.2)) :
    ∃ started, motive started ∧ powerOn cartridge color = started.setIo copyControl 0xff := by
  have started := stores_induction startupWrites keeps { cartridge, color } blank
  exact ⟨_, started, rfl⟩

end Bus

end Handheld
