import Handheld.Proofs.Bus.Cells

/-!
# Filling object RAM

The copy into object RAM reads each byte through the bus after it has stored all bytes before. That
makes no difference even where it reads from what it fills: pages begin at object RAM or outside of
it, so a byte read from object RAM is the one about to be stored over. `write_objectCopy` says so
for all 256 pages.
-/
namespace Handheld

/-! ## Pages -/

/-- The address of a byte of a page. -/
def pageAddress (page : UInt8) (offset : Nat) : UInt16 := UInt16.ofNat (256 * page.toNat + offset)

theorem toNat_pageAddress (page : UInt8) {offset : Nat} (inside : offset < 0x100) :
    (pageAddress page offset).toNat = 256 * page.toNat + offset := by
  have bound := page.toNat_lt
  rw [pageAddress, UInt16.toNat_ofNat']
  omega

theorem word_add_ofNat (page : UInt8) (offset : Nat) :
    word page 0 + UInt16.ofNat offset = pageAddress page offset := by
  have start : word page 0 = UInt16.ofNat (256 * page.toNat) := by
    revert page
    refine forall_byte ?_
    decide +kernel
  rw [pageAddress, UInt16.ofNat_add, start]

namespace Bus

/-! ## Object RAM on the bus -/

/-- Object RAM shows at its own addresses only. -/
theorem read_of_objectRam {bus : Bus} {objectRam : Block 0xa0} {address : UInt16}
    (same : Region.ofAddress address = .objectRam →
      objectRam.read (address - 0xfe00).toNat = bus.objectRam.read (address - 0xfe00).toNat) :
    ({ bus with objectRam } : Bus).read address = bus.read address := by
  unfold read
  cases region : Region.ofAddress address <;> first | rfl | exact same region

/-- A page that shows object RAM shows it from its first byte on. -/
theorem objectCell_of_page {page : UInt8} {cell : Nat} (inside : cell < 0xa0)
    (region : Region.ofAddress (pageAddress page cell) = .objectRam) :
    page = 0xfe ∧ (pageAddress page cell - 0xfe00).toNat = cell := by
  obtain ⟨low, high⟩ := Region.bounds (pageAddress page cell)
  rw [region] at low high
  have offset : (pageAddress page cell - 0xfe00).toNat = (pageAddress page cell).toNat - 0xfe00 :=
    toNat_sub_base low
  simp only [Region.first, Region.last] at low high
  rw [toNat_pageAddress page (by omega)] at low high offset
  have last : page.toNat = 0xfe := by omega
  exact ⟨UInt8.toNat_inj.mp last, by omega⟩

theorem read_objectPage (bus : Bus) {cell : Nat} (inside : cell < 0xa0) :
    bus.read (pageAddress 0xfe cell) = bus.objectRam.read cell := by
  have place : (pageAddress 0xfe cell).toNat = 0xfe00 + cell := toNat_pageAddress _ (by omega)
  have region : Region.ofAddress (pageAddress 0xfe cell) = .objectRam := by
    obtain ⟨low, high⟩ := Region.bounds (pageAddress 0xfe cell)
    rw [place] at low high
    cases found : Region.ofAddress (pageAddress 0xfe cell) <;> rw [found] at low high <;>
      simp only [Region.first, Region.last] at low high <;> first | rfl | omega
  unfold read
  rw [region]
  exact congrArg bus.objectRam.read (objectCell_of_page inside region).2

/-! ## The copy -/

/-- What the copy stores next has not been stored over, if it is in object RAM at all. -/
theorem read_of_unfilled {bus : Bus} {objectRam : Block 0xa0} (page : UInt8) {cell : Nat}
    (inside : cell < 0xa0) (unfilled : objectRam.read cell = bus.objectRam.read cell) :
    ({ bus with objectRam } : Bus).read (pageAddress page cell) =
      bus.read (pageAddress page cell) := by
  refine read_of_objectRam fun region => ?_
  rw [(objectCell_of_page inside region).2]
  exact unfilled

/-- The cells before `count` are filled with what the page held when the copy began. -/
theorem read_copyObjectCells (bus : Bus) (page : UInt8) {count : Nat} (within : count ≤ 0xa0)
    (cell : Nat) :
    (bus.copyObjectCells (word page 0) count).objectRam.read cell =
      if cell < count then bus.read (pageAddress page cell) else bus.objectRam.read cell := by
  induction count generalizing cell with
  | zero => rfl
  | succ count ih =>
    have filled := ih (Nat.le_of_succ_le within)
    have next : (bus.copyObjectCells (word page 0) count).read (pageAddress page count) =
        bus.read (pageAddress page count) := by
      have unfilled := filled count
      rw [if_neg (Nat.lt_irrefl count)] at unfilled
      obtain ⟨objectRam, copied⟩ := bus.copyObjectCells_frame (word page 0) count
      rw [copied] at unfilled ⊢
      exact read_of_unfilled page within unfilled
    rw [copyObjectCells_succ, word_add_ofNat]
    dsimp only
    rw [next, Block.read_write _ _ within, filled cell]
    grind

/-- A store to the copy's port fills object RAM with the start of the page it names, as the bus
reads it with the port already holding the page. This is so for every page and whatever the bus
holds: where the page is object RAM nothing moves, where it is the I/O page the ports are read, and
where it is cartridge RAM what the board shows there. Nothing but object RAM and the port
changes. -/
theorem write_objectCopy (bus : Bus) (page : UInt8) :
    let held := bus.setIo objectSource page
    let after := bus.write 0xff46 page
    held.read 0xff46 = page ∧
      (∃ objectRam, after = { held with objectRam }) ∧
      (∀ cell < 0xa0, after.objectRam.read cell = held.read (pageAddress page cell) ∧
        after.read (pageAddress 0xfe cell) = held.read (pageAddress page cell)) ∧
      (∀ address, Region.ofAddress address ≠ .objectRam → after.read address = held.read address) ∧
      (page = 0xfe → after = held) := by
  intro held after
  have copied : after = held.copyObjectCells (word page 0) 0xa0 := rfl
  obtain ⟨objectRam, frame⟩ := held.copyObjectCells_frame (word page 0) 0xa0
  have is : after = { held with objectRam } := copied.trans frame
  have filled : ∀ cell < 0xa0, after.objectRam.read cell = held.read (pageAddress page cell) := by
    intro cell inside
    rw [copied, held.read_copyObjectCells page (Nat.le_refl _), if_pos inside]
  refine ⟨?port, ⟨objectRam, is⟩, ?cells, ?elsewhere, ?same⟩
  case port =>
    have stored : (bus.io.write objectSource page).read objectSource = page :=
      Block.read_write_self _ _ (by decide)
    exact stored
  case cells =>
    intro cell inside
    refine ⟨filled cell inside, ?_⟩
    rw [after.read_objectPage inside, filled cell inside]
  case elsewhere =>
    intro address outside
    rw [is]
    exact read_of_objectRam fun region => absurd region outside
  case same =>
    rintro rfl
    have kept : objectRam = held.objectRam := by
      refine Block.ext_read fun cell inside => ?_
      rw [← held.read_objectPage inside, ← filled cell inside, is]
    rw [is, kept]

/-- From the I/O page: the port of the copy, the timer's control port and the first cell of high
RAM, each as it reads. -/
theorem write_objectCopy_ports :
    let start : Bus := { powerOn Rig.leastCartridge false with highRam := .filled _ 0x2a }
    let after := start.write 0xff46 0xff
    after.objectRam.read 0x46 = 0xff ∧ after.objectRam.read 0x07 = 0xf8 ∧
      after.objectRam.read 0x80 = 0x2a ∧ after.read 0xff40 = 0x91 := by
  intro start after
  obtain ⟨_, _, cells, elsewhere, _⟩ := write_objectCopy start 0xff
  have control : after.read 0xff40 = (start.setIo objectSource 0xff).read 0xff40 :=
    elsewhere 0xff40 (by decide)
  refine ⟨(cells 0x46 (by decide)).1.trans ?_, (cells 0x07 (by decide)).1.trans ?_,
    (cells 0x80 (by decide)).1.trans ?_, control.trans ?_⟩
  all_goals decide +kernel

end Bus

end Handheld
