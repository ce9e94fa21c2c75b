import Handheld.Bus.Read
import Handheld.Proofs.Strict.Board
import Handheld.Proofs.Strict.Device

/-!
# Reading the bus without a step out of range

Every read of the bus is repeated here with cells that must exist and sums that must fit.
`Bus.Sound` is what keeps them in range: bank registers that select a bank that is there, palette
indices that name a byte, and what the cartridge and the timer ask for themselves.
-/
namespace Handheld

theorem pageCell_eq (address : UInt16) : pageCell address = address.toNat % 0x80 :=
  word_toNat_and_mask address 7 rfl

namespace Region

/-- The first address of a region. -/
def first : Region → Nat
  | rom => 0
  | videoRam => 0x8000
  | cartridgeRam => 0xa000
  | workRam => 0xc000
  | bankedWorkRam => 0xd000
  | echo => 0xe000
  | objectRam => 0xfe00
  | unusable => 0xfea0
  | io => 0xff00
  | highRam => 0xff80
  | interruptEnable => 0xffff

/-- The last address of a region. -/
def last : Region → Nat
  | rom => 0x7fff
  | videoRam => 0x9fff
  | cartridgeRam => 0xbfff
  | workRam => 0xcfff
  | bankedWorkRam => 0xdfff
  | echo => 0xfdff
  | objectRam => 0xfe9f
  | unusable => 0xfeff
  | io => 0xff7f
  | highRam => 0xfffe
  | interruptEnable => 0xffff

/-- A rung of the address map: the region ends at the bound, and the rest starts there. -/
theorem bounds_ite {address bound : UInt16} {region rest : Region}
    (low : region.first ≤ address.toNat) (ends : region.last + 1 = bound.toNat)
    (later : bound.toNat ≤ address.toNat →
      rest.first ≤ address.toNat ∧ address.toNat ≤ rest.last) :
    let chosen := if address < bound then region else rest
    chosen.first ≤ address.toNat ∧ address.toNat ≤ chosen.last := by
  intro chosen
  by_cases below : address < bound
  · have high : address.toNat < bound.toNat := below
    have here : chosen = region := if_pos below
    rw [here]
    exact ⟨low, by omega⟩
  · have there : chosen = rest := if_neg below
    rw [there]
    exact later (Nat.not_lt.mp below)

/-- A region holds every address that is classed under it. The offsets of the strict reads and
writes rest on this. -/
theorem bounds (address : UInt16) :
    (ofAddress address).first ≤ address.toNat ∧ address.toNat ≤ (ofAddress address).last := by
  refine bounds_ite (Nat.zero_le _) rfl fun videoRam => ?_
  refine bounds_ite videoRam rfl fun cartridgeRam => ?_
  refine bounds_ite cartridgeRam rfl fun workRam => ?_
  refine bounds_ite workRam rfl fun bankedWorkRam => ?_
  refine bounds_ite bankedWorkRam rfl fun echo => ?_
  refine bounds_ite echo rfl fun objectRam => ?_
  refine bounds_ite objectRam rfl fun unusable => ?_
  refine bounds_ite unusable rfl fun io => ?_
  refine bounds_ite io rfl fun highRam => ?_
  refine bounds_ite highRam rfl fun interruptEnable => ?_
  exact ⟨interruptEnable, Nat.le_of_lt_succ address.toNat_lt⟩

end Region

namespace Bus

/-- The registers that decide which cells are looked up. Memory itself may hold anything; the
selections, the palettes, the controller and the timer are within their ranges. -/
structure Sound (bus : Bus) : Prop where
  videoBank : bus.videoBank ≤ 1
  workBank : 1 ≤ bus.workBank ∧ bus.workBank ≤ 7
  background : bus.background.Sound
  objects : bus.objects.Sound
  controller : bus.cartridge.board.controller.Sound
  timer : bus.timer.Sound

/-! ## Reading -/

/-- The cell of video RAM behind an address, by the bank that is selected. -/
def videoCell? (bus : Bus) (address : UInt16) : Option Nat := do
  let offset : UInt16 := address &&& 0x1fff
  let first ← product? 64 bus.videoBank.toNat 0x2000
  sum? 64 first offset.toNat

/-- The cell of banked working RAM behind an address. -/
def workCell? (bus : Bus) (address : UInt16) : Option Nat := do
  let offset : UInt16 := address &&& 0x0fff
  let first ← product? 64 bus.workBank.toNat 0x1000
  sum? 64 first offset.toNat

/-- A read of a port. The registers that are looked up in the cells of the page must have theirs;
the palettes look up the byte their index names. -/
def readIo? (bus : Bus) (address : UInt16) : Option UInt8 :=
  match IoRegister.ofAddress address with
  | .serialControl => do
    let control ← bus.io.read? serialControl
    some (control ||| 0x7e)
  | .copyControl => if bus.color then bus.io.read? copyControl else some 0xff
  | .backgroundData => if bus.color then bus.background.readData? else some 0xff
  | .objectData => if bus.color then bus.objects.readData? else some 0xff
  | .lcdStatus | .line | .objectCopy | .plain => bus.io.read? (pageCell address)
  | _ => some (bus.readIo address)

/-- A read through the memory map. The offset in a region is a difference that must not go below
zero, and the cell must exist. -/
def read? (bus : Bus) (address : UInt16) : Option UInt8 :=
  match Region.ofAddress address with
  | .rom | .cartridgeRam => bus.cartridge.board.read? address
  | .videoRam => do
    let cell ← bus.videoCell? address
    bus.videoRam.read? cell
  | .workRam => do
    let cell ← wordDifference? address 0xc000
    bus.workRam.read? cell.toNat
  | .bankedWorkRam => do
    let cell ← bus.workCell? address
    bus.workRam.read? cell
  | .objectRam => do
    let cell ← wordDifference? address 0xfe00
    bus.objectRam.read? cell.toNat
  | .echo | .unusable => some 0xff
  | .io => bus.readIo? address
  | .highRam => bus.highRam.read? (pageCell address)
  | .interruptEnable => some (bus.interrupts.read address)

/-- The low byte stands first, and the address of the high one wraps. -/
def readWord? (bus : Bus) (address : UInt16) : Option UInt16 := do
  let low ← bus.read? address
  let high ← bus.read? (address + 1)
  some (word high low)

/-- The product and the sum are taken in machine words, which no bank of a byte can fill. -/
theorem videoCell?_eq (bus : Bus) (address : UInt16) :
    bus.videoCell? address = some (bus.videoCell address) := by
  have bank := bus.videoBank.toNat_lt
  have offset := (address &&& 0x1fff).toNat_lt
  have first : product? 64 bus.videoBank.toNat 0x2000 = some (bus.videoBank.toNat * 0x2000) :=
    product?_eq (by omega)
  simp only [videoCell?, first, Option.bind_eq_bind, Option.bind_some]
  exact sum?_eq (by omega)

theorem workCell?_eq (bus : Bus) (address : UInt16) :
    bus.workCell? address = some (bus.workCell address) := by
  have bank := bus.workBank.toNat_lt
  have offset := (address &&& 0x0fff).toNat_lt
  have first : product? 64 bus.workBank.toNat 0x1000 = some (bus.workBank.toNat * 0x1000) :=
    product?_eq (by omega)
  simp only [workCell?, first, Option.bind_eq_bind, Option.bind_some]
  exact sum?_eq (by omega)

variable {bus : Bus}

/-- The two banks fill video RAM exactly. -/
theorem Sound.videoCell_lt (sound : bus.Sound) (address : UInt16) :
    bus.videoCell address < 0x4000 := by
  have bank : bus.videoBank.toNat ≤ 1 := sound.videoBank
  have offset : (address &&& 0x1fff).toNat ≤ 0x1fff := word_toNat_and_le_right _ _
  unfold videoCell
  dsimp only
  omega

/-- The eight banks fill working RAM exactly. -/
theorem Sound.workCell_lt (sound : bus.Sound) (address : UInt16) :
    bus.workCell address < 0x8000 := by
  have bank : bus.workBank.toNat ≤ 7 := sound.workBank.2
  have offset : (address &&& 0x0fff).toNat ≤ 0x0fff := word_toNat_and_le_right _ _
  unfold workCell
  dsimp only
  omega

/-- A port and a byte of high RAM lie in half a page, whatever the address. -/
theorem pageCell_lt (address : UInt16) : pageCell address < 0x80 := by
  rw [pageCell_eq]
  exact Nat.mod_lt _ (by decide)

/-- The offset of an address within a device of `size` cells. -/
theorem offset_lt {address : UInt16} (base : UInt16) (size : Nat) (low : base.toNat ≤ address.toNat)
    (high : address.toNat < base.toNat + size) :
    wordDifference? address base = some (address - base) ∧ (address - base).toNat < size := by
  have above : base ≤ address := low
  refine ⟨wordDifference?_eq above, ?_⟩
  rw [UInt16.toNat_sub_of_le _ _ above]
  omega

/-- The page above the ports ends one cell early, at the register of enabled interrupts. -/
theorem highRamCell_lt {address : UInt16} (low : 0xff80 ≤ address.toNat)
    (high : address.toNat ≤ 0xfffe) : pageCell address < 0x7f := by
  rw [pageCell_eq]
  omega

/-- A port that is no plain cell can still fail for a palette, whose index a sound bus keeps below
64. -/
theorem readIo?_eq (sound : bus.Sound) (address : UInt16) :
    bus.readIo? address = some (bus.readIo address) := by
  have cell := bus.io.read?_eq (pageCell_lt address)
  have control := bus.io.read?_eq (by decide : serialControl < 0x80)
  have copying := bus.io.read?_eq (by decide : copyControl < 0x80)
  have background := Palette.readData?_eq sound.background
  have objects := Palette.readData?_eq sound.objects
  unfold readIo? readIo
  cases IoRegister.ofAddress address <;>
    simp only [cell, control, copying, background, objects, Option.bind_eq_bind,
      Option.bind_some] <;>
    split <;> rfl

theorem read?_eq (sound : bus.Sound) (address : UInt16) :
    bus.read? address = some (bus.read address) := by
  have bounds := Region.bounds address
  unfold read? read
  cases region : Region.ofAddress address <;> rw [region] at bounds <;> dsimp only
  case rom | cartridgeRam => exact bus.cartridge.board.read?_eq address
  case videoRam =>
    simp only [bus.videoCell?_eq, Option.bind_eq_bind, Option.bind_some]
    exact bus.videoRam.read?_eq (sound.videoCell_lt address)
  case workRam =>
    obtain ⟨cell, inside⟩ := offset_lt 0xc000 0x1000 bounds.1
      (Nat.lt_succ_of_le bounds.2)
    simp only [cell, Option.bind_eq_bind, Option.bind_some]
    exact bus.workRam.read?_eq (by omega)
  case bankedWorkRam =>
    simp only [bus.workCell?_eq, Option.bind_eq_bind, Option.bind_some]
    exact bus.workRam.read?_eq (sound.workCell_lt address)
  case objectRam =>
    obtain ⟨cell, inside⟩ := offset_lt 0xfe00 0xa0 bounds.1
      (Nat.lt_succ_of_le bounds.2)
    simp only [cell, Option.bind_eq_bind, Option.bind_some]
    exact bus.objectRam.read?_eq inside
  case io => exact readIo?_eq sound address
  case highRam => exact bus.highRam.read?_eq (highRamCell_lt bounds.1 bounds.2)

theorem readWord?_eq (sound : bus.Sound) (address : UInt16) :
    bus.readWord? address = some (bus.readWord address) := by
  simp only [readWord?, read?_eq sound, Option.bind_eq_bind, Option.bind_some]
  rfl

end Bus

end Handheld
