import Handheld.Proofs.Bus.CopyProgress
import Handheld.Proofs.Machine.Simulation

/-!
# The colour ports of a monochrome machine

Twelve ports answer on a colour machine only. On a monochrome machine some of them drop what is
stored and others still leave it in the I/O page, in cells that nothing there ever looks at: a port
that shows its cell is another one, and copies, transfers and the LCD use other cells. So buses that
differ in these cells only are a simulation.
-/
namespace Handheld.Bus

/-- Speed, banks, block copy and palettes. -/
def colorPorts : List UInt16 :=
  [0xff4d, 0xff4f, 0xff51, 0xff52, 0xff53, 0xff54, 0xff55, 0xff68, 0xff69, 0xff6a, 0xff6b, 0xff70]

/-- The cells of the page in which a monochrome machine leaves what is stored to colour ports. -/
def colorCells : List Nat := colorPorts.map pageCell

/-- I/O pages that differ at most in the cells of colour ports. -/
def SamePage (left right : Block 0x80) : Prop :=
  ∀ cell, cell ∉ colorCells → left.read cell = right.read cell

/-- Buses that differ at most in the cells of colour ports. -/
def SameButPorts (left right : Bus) : Prop :=
  ∃ io, right = { left with io } ∧ SamePage left.io io

/-- Buses of a monochrome machine that differ at most in the cells of colour ports. No copy is in
progress on them, which is what makes the cells of the copy's ports inert too. -/
structure SameMonochrome (left right : Bus) : Prop where
  color : left.color = false
  idle : left.copyActive = false
  ports : SameButPorts left right

/-! ## Pages -/

/-- A store of the same byte on both sides keeps pages alike, wherever it falls. -/
theorem SamePage.write {left right : Block 0x80} (same : SamePage left right) (cell : Nat)
    (value : UInt8) : SamePage (left.write cell value) (right.write cell value) := by
  intro other outside
  by_cases inside : cell < 0x80
  · rw [Block.read_write _ _ inside, Block.read_write _ _ inside, same other outside]
  · simp only [Block.write, dif_neg inside]
    exact same other outside

namespace SameButPorts

/-- The relation is an equivalence: it compares the buses outside some cells. -/
theorem refl (bus : Bus) : SameButPorts bus bus := ⟨bus.io, rfl, fun _ _ => rfl⟩

theorem symm {left right : Bus} (same : SameButPorts left right) : SameButPorts right left := by
  obtain ⟨io, rfl, page⟩ := same
  exact ⟨left.io, rfl, fun cell outside => (page cell outside).symm⟩

theorem trans {left middle right : Bus} (first : SameButPorts left middle)
    (second : SameButPorts middle right) : SameButPorts left right := by
  obtain ⟨io, rfl, page⟩ := first
  obtain ⟨io', rfl, page'⟩ := second
  exact ⟨io', rfl, fun cell outside => (page cell outside).trans (page' cell outside)⟩

variable {left right : Bus} (same : SameButPorts left right)
include same

theorem color : right.color = left.color := by
  obtain ⟨io, rfl, page⟩ := same
  rfl

theorem setIo (cell : Nat) (value : UInt8) :
    SameButPorts (left.setIo cell value) (right.setIo cell value) := by
  obtain ⟨io, rfl, page⟩ := same
  exact ⟨_, rfl, page.write cell value⟩

theorem setDevices (devices : Devices) :
    SameButPorts (left.setDevices devices) (right.setDevices devices) := by
  obtain ⟨io, rfl, page⟩ := same
  exact ⟨io, rfl, page⟩

theorem cell {cell : Nat} (outside : cell ∉ colorCells) :
    right.io.read cell = left.io.read cell := by
  obtain ⟨io, rfl, page⟩ := same
  exact (page cell outside).symm

end SameButPorts

/-! ## Reads -/

/-- No port that shows a cell of the page is a colour port. -/
theorem shown_not_color {address : UInt16} (inPage : Region.ofAddress address = .io)
    (shows : IoRegister.ofAddress address = .lcdStatus ∨ IoRegister.ofAddress address = .line ∨
      IoRegister.ofAddress address = .objectCopy ∨ IoRegister.ofAddress address = .plain) :
    pageCell address ∉ colorCells := by
  have table : ∀ cell ∈ colorCells,
      ¬ (IoRegister.ofAddress (port cell) = .lcdStatus ∨
        IoRegister.ofAddress (port cell) = .line ∨
        IoRegister.ofAddress (port cell) = .objectCopy ∨
        IoRegister.ofAddress (port cell) = .plain) := by decide
  intro member
  have hidden := table _ member
  rw [port_pageCell inPage] at hidden
  exact hidden shows

/-- No address shows a cell of a colour port on a monochrome machine, so that no read tells the
buses apart. -/
theorem SameButPorts.read {left right : Bus} (same : SameButPorts left right)
    (monochrome : left.color = false) (address : UInt16) :
    left.read address = right.read address := by
  obtain ⟨io, rfl, page⟩ := same
  unfold Bus.read
  cases region : Region.ofAddress address <;> dsimp only
  case io =>
    unfold readIo
    have shown := shown_not_color region
    cases device : IoRegister.ofAddress address <;> rw [device] at shown <;> dsimp only
    case speed => rfl
    case serialControl => rw [page serialControl (by decide)]
    case lcdStatus | line | objectCopy | plain => exact page _ (shown (by decide))
    case copyControl => rw [monochrome, if_neg (by decide), if_neg (by decide)]
  all_goals rfl

/-! ## Stores -/

namespace SameButPorts

variable {left right : Bus} (same : SameButPorts left right)
include same

theorem sendSerial : SameButPorts left.sendSerial right.sendSerial := by
  have data := same.cell (by decide : serialData ∉ colorCells)
  have control := same.cell (by decide : serialControl ∉ colorCells)
  obtain ⟨io, rfl, page⟩ := same
  have pushed : SameButPorts { left with sent := left.sent.push (left.io.read serialData) }
      { left with io, sent := left.sent.push (left.io.read serialData) } := ⟨io, rfl, page⟩
  obtain ⟨shifted, stored, later⟩ := (pushed.setIo serialData 0xff).setIo serialControl
    (left.io.read serialControl &&& 0x7f)
  simp only [Bus.sendSerial, data, control, stored]
  exact ⟨shifted, rfl, later⟩

/-- A copy stores what it reads, and related buses read alike. -/
theorem copyObjectCells (monochrome : left.color = false) (source : UInt16) (count : Nat) :
    SameButPorts (left.copyObjectCells source count) (right.copyObjectCells source count) := by
  induction count with
  | zero => exact same
  | succ count ih =>
    obtain ⟨objectRam, copied⟩ := left.copyObjectCells_frame source count
    have color : (left.copyObjectCells source count).color = false := by
      rw [copied]
      exact monochrome
    have read := ih.read color (source + UInt16.ofNat count)
    rw [copyObjectCells_succ, copyObjectCells_succ]
    dsimp only
    rw [← read]
    obtain ⟨io, filled, page⟩ := ih
    rw [filled]
    exact ⟨io, rfl, page⟩

/-- Register by register: what a store changes besides the page agrees on both sides. -/
theorem writeIo (monochrome : left.color = false) (address : UInt16) (value : UInt8) :
    SameButPorts (left.writeIo address value) (right.writeIo address value) := by
  have status := same.cell (by decide : lcdStatus ∉ colorCells)
  have color : right.color = false := same.color.trans monochrome
  unfold Bus.writeIo
  cases IoRegister.ofAddress address <;>
    simp only [monochrome, color, Bool.false_and, Bool.false_eq_true, if_false]
  case joypad | timer | requests =>
    obtain ⟨io, rfl, page⟩ := same
    exact ⟨io, rfl, page⟩
  case serialControl =>
    have stored := same.setIo serialControl value
    split
    · exact stored.sendSerial
    · exact stored
  case lcdStatus =>
    unfold writeStatus
    rw [status]
    exact same.setIo _ _
  case objectCopy =>
    exact (same.setIo objectSource value).copyObjectCells monochrome (word value 0) 0xa0
  case speed | videoBank | workBank => exact same
  all_goals exact same.setIo _ _

theorem write (monochrome : left.color = false) (address : UInt16) (value : UInt8) :
    SameButPorts (left.write address value) (right.write address value) := by
  have stored := same.writeIo monochrome address value
  unfold Bus.write
  cases region : Region.ofAddress address <;> dsimp only
  case io => exact stored
  all_goals
    obtain ⟨io, rfl, page⟩ := same
    exact ⟨io, rfl, page⟩

end SameButPorts

/-- On a monochrome machine a store to a colour port is dropped or stays in the cell of the port. -/
theorem write_port {bus : Bus} (monochrome : bus.color = false) {address : UInt16}
    (port : address ∈ colorPorts) (value : UInt8) :
    bus.write address value = bus ∨
      bus.write address value = bus.setIo (pageCell address) value := by
  have color : ¬ bus.color = true := by simp [monochrome]
  have bank : ¬ (bus.color && !bus.copyActive) = true := by simp [monochrome]
  simp only [colorPorts, List.mem_cons, List.not_mem_nil, or_false] at port
  rcases port with rfl | rfl | rfl | rfl | rfl | rfl | rfl | rfl | rfl | rfl | rfl | rfl
  all_goals
    first
    | exact .inl (if_neg color)
    | exact .inl (if_neg bank)
    | exact .inr (if_neg color)
    | exact .inr rfl

theorem sameButPorts_setIo (bus : Bus) {cell : Nat} (hidden : cell ∈ colorCells) (value : UInt8) :
    SameButPorts bus (bus.setIo cell value) :=
  ⟨_, rfl, fun _ outside =>
    (Block.read_write_of_ne _ _ (ne_of_mem_of_not_mem hidden outside)).symm⟩

/-- A host may store to a colour port on one side only: the buses stay alike, as the store reaches
its cell at most. -/
theorem sameButPorts_write {bus : Bus} (monochrome : bus.color = false) {address : UInt16}
    (port : address ∈ colorPorts) (value : UInt8) :
    SameButPorts bus (bus.write address value) := by
  obtain dropped | kept := write_port monochrome port value
  · rw [dropped]
    exact .refl bus
  · rw [kept]
    exact bus.sameButPorts_setIo (List.mem_map_of_mem port) value

theorem sameButPorts_storeIo (bus : Bus) {address : UInt16} (port : address ∈ colorPorts)
    (value : UInt8) : SameButPorts bus (bus.storeIo address value) := by
  unfold storeIo
  split
  · exact bus.sameButPorts_setIo (List.mem_map_of_mem port) value
  · exact .refl bus

/-! ## The simulation -/

namespace SameMonochrome

variable {left right : Bus} (same : SameMonochrome left right)
include same

theorem write (address : UInt16) (value : UInt8) :
    SameMonochrome (left.write address value) (right.write address value) := by
  have chosen := left.selection_write address value
  rw [left.selection.store_of_monochrome value same.color] at chosen
  exact ⟨(congrArg Selection.color chosen).trans same.color,
    (congrArg Selection.copyActive chosen).trans same.idle,
    same.ports.write same.color address value⟩

/-- A store to a colour port makes no difference, even if only one of the two makes it. -/
theorem write_port {address : UInt16} (port : address ∈ colorPorts) (value : UInt8) :
    SameMonochrome (left.write address value) right := by
  have stored := left.sameButPorts_write same.color port value
  obtain ⟨color, idle, _⟩ := same.write address value
  exact ⟨color, idle, stored.symm.trans same.ports⟩

/-- The store of an LCD past the registers makes no difference at a colour port either. -/
theorem storeIo_port {address : UInt16} (port : address ∈ colorPorts) (value : UInt8) :
    SameMonochrome (left.storeIo address value) right := by
  have stored := (left.sameButPorts_storeIo port value).symm.trans same.ports
  unfold storeIo at stored ⊢
  by_cases inPage : 0xff00 ≤ address ∧ address ≤ 0xff7f
  · rw [if_pos inPage] at stored ⊢
    exact ⟨same.color, same.idle, stored⟩
  · rw [if_neg inPage]
    exact same

/-- On a monochrome machine no copy is ever active, so that there is no block to move. -/
theorem copyLineBlock : SameMonochrome left.copyLineBlock right.copyLineBlock := by
  have idle : right.copyActive = false := by
    obtain ⟨io, rfl, page⟩ := same.ports
    exact same.idle
  rw [copyLineBlock_of_idle same.idle, copyLineBlock_of_idle idle]
  exact same

end SameMonochrome

/-- What the processor, the LCD and the host can do to a bus keeps the relation, and so everything
does that is made of it. -/
theorem simulation_sameMonochrome : Simulation SameMonochrome where
  color same := same.ports.color.symm
  devices same := by
    obtain ⟨io, rfl, page⟩ := same.ports
    rfl
  read same address := same.ports.read same.color address
  write same address value := same.write address value
  setIo same cell value := ⟨same.color, same.idle, same.ports.setIo cell value⟩
  copyLineBlock same := same.copyLineBlock
  setDevices same devices := ⟨same.color, same.idle, same.ports.setDevices devices⟩

end Handheld.Bus
