import Handheld.Proofs.Bus.Cells

/-!
# Work RAM and high RAM

These two memories have no device behind them: a store there changes one cell and nothing else of
the bus. Two of their addresses never stand for one cell, whichever banks show, since the fixed bank
of work RAM has its own window. So a byte stored there stays until its own address is stored to,
though after a change of bank another byte may show in its place.
-/
namespace Handheld

/-- An address of work RAM or high RAM. -/
def IsRam (address : UInt16) : Prop :=
  (0xc000 ≤ address.toNat ∧ address.toNat < 0xe000) ∨
    (0xff80 ≤ address.toNat ∧ address.toNat < 0xffff)

instance : DecidablePred IsRam := fun _ => inferInstanceAs (Decidable (_ ∨ _))

theorem IsRam.ne_copies {address : UInt16} (ram : IsRam address) :
    address ≠ 0xff46 ∧ address ≠ 0xff55 := by
  constructor
  · rintro rfl
    exact absurd ram (by decide)
  · rintro rfl
    exact absurd ram (by decide)

namespace Cell

variable {banks banks' : Banks} {address other : UInt16} {cell : Cell}

/-- Every address of RAM has a cell, whichever banks show. -/
theorem exists_at?_of_ram (ram : IsRam address) (banks : Banks) :
    ∃ cell, at? banks address = some cell := by
  unfold IsRam at ram
  unfold at?
  dsimp only
  split_ifs <;> first | exact ⟨_, rfl⟩ | omega

/-- The cell of RAM behind one address is behind no other, even with other banks showing. -/
theorem eq_of_at? (ram : IsRam address) (exist : banks.Exist) (exist' : banks'.Exist)
    (behind : at? banks address = some cell) (behind' : at? banks' other = some cell) :
    address = other := by
  have work := exist.work
  have work' := exist'.work
  apply UInt16.toNat_inj.mp
  unfold IsRam at ram
  unfold at? at behind behind'
  dsimp only at behind behind'
  rw [← behind'] at behind
  split_ifs at behind <;>
    simp only [Option.some.injEq, Cell.mk.injEq, reduceCtorEq, false_and] at behind <;> omega

end Cell

namespace Bus

variable {bus : Bus} {shown : Banks} {address other : UInt16} {cell : Cell}

/-! ## A store to RAM -/

theorem write_of_ram (ram : IsRam address) (bus : Bus) (value : UInt8) :
    ∃ workRam highRam, bus.write address value = { bus with workRam, highRam } := by
  obtain ⟨low, high⟩ := Region.bounds address
  unfold IsRam at ram
  unfold write
  cases region : Region.ofAddress address <;> rw [region] at low high
  case workRam | bankedWorkRam | highRam => exact ⟨_, _, rfl⟩
  all_goals
    simp only [Region.first, Region.last] at low high
    omega

theorem banks_write_of_ram (ram : IsRam address) (bus : Bus) (value : UInt8) :
    (bus.write address value).banks = bus.banks := by
  obtain ⟨workRam, highRam, written⟩ := write_of_ram ram bus value
  rw [written]
  rfl

/-- Addresses without a cell read from elsewhere than RAM. -/
theorem read_of_no_cell (nothing : Cell.at? bus.banks other = none) (workRam : Block 0x8000)
    (highRam : Block 0x7f) : ({ bus with workRam, highRam } : Bus).read other = bus.read other := by
  rw [Cell.at?_eq_region] at nothing
  unfold read
  cases region : Region.ofAddress other <;> rw [region] at nothing <;>
    first | rfl | cases nothing

/-- A byte stored to RAM reads back, and nothing else on the bus reads differently. -/
theorem read_write_of_ram (exist : bus.banks.Exist) (ram : IsRam address) (value : UInt8)
    (other : UInt16) :
    (bus.write address value).read other = if address = other then value else bus.read other := by
  have kept := banks_write_of_ram ram bus value
  obtain ⟨target, behind⟩ := Cell.exists_at?_of_ram ram bus.banks
  cases shows : Cell.at? bus.banks other with
  | none =>
    obtain ⟨workRam, highRam, written⟩ := write_of_ram ram bus value
    rw [written, read_of_no_cell shows, if_neg]
    rintro rfl
    cases behind.symm.trans shows
  | some cell =>
    have shows' : Cell.at? (bus.write address value).banks other = some cell := kept ▸ shows
    obtain ⟨objects, blocks⟩ := ram.ne_copies
    rw [read_eq_content shows', read_eq_content shows,
      content_write exist (Cell.exists_of_at? exist shows) value objects blocks]
    by_cases same : address = other
    · rw [if_pos same, if_pos (same ▸ shows)]
    · rw [if_neg same, if_neg]
      intro both
      exact same (Cell.eq_of_at? ram exist exist both shows)

/-! ## What a stretch of stores to RAM leaves -/

/-- Nothing of the bus differs but cells of RAM behind addresses that may change. Devices, ports and
the cartridge are the same, so that it can be composed over long stretches. -/
structure SameBut (before after : Bus) (changed : UInt16 → Prop) : Prop where
  frame : ∃ workRam highRam, after = { before with workRam, highRam }
  cells : ∀ cell : Cell, cell.Exists →
    (∀ address, changed address → Cell.at? before.banks address ≠ some cell) →
    after.content cell = before.content cell

namespace SameBut

variable {before middle after : Bus} {changed : UInt16 → Prop}

/-- The relation is reflexive and transitive, as stretches of running are put together. -/
theorem refl (bus : Bus) (changed : UInt16 → Prop) : bus.SameBut bus changed where
  frame := ⟨bus.workRam, bus.highRam, rfl⟩
  cells _ _ _ := rfl

theorem banks (same : before.SameBut after changed) : after.banks = before.banks := by
  obtain ⟨workRam, highRam, frame⟩ := same.frame
  rw [frame]
  rfl

theorem trans (first : before.SameBut middle changed) (second : middle.SameBut after changed) :
    before.SameBut after changed where
  frame := by
    obtain ⟨_, _, frame⟩ := first.frame
    obtain ⟨_, _, frame'⟩ := second.frame
    rw [frame', frame]
    exact ⟨_, _, rfl⟩
  cells cell present apart := by
    have apart' : ∀ address, changed address → Cell.at? middle.banks address ≠ some cell := by
      rw [first.banks]
      exact apart
    rw [second.cells cell present apart', first.cells cell present apart]

theorem weaken {wider : UInt16 → Prop} (same : before.SameBut after changed)
    (within : ∀ address, changed address → wider address) : before.SameBut after wider where
  frame := same.frame
  cells cell present apart :=
    same.cells cell present fun address member => apart address (within address member)

theorem write (exist : before.banks.Exist) (ram : IsRam address) (value : UInt8)
    (member : changed address) : before.SameBut (before.write address value) changed where
  frame := write_of_ram ram before value
  cells cell present apart := by
    obtain ⟨objects, blocks⟩ := ram.ne_copies
    rw [content_write exist present value objects blocks, if_neg (apart address member)]

end SameBut

/-! ## A store elsewhere -/

theorem exist_write (exist : bus.banks.Exist) (address : UInt16) (value : UInt8) :
    (bus.write address value).banks.Exist := by
  have chosen := bus.selection_write address value
  have videoBank : (bus.write address value).videoBank = _ := congrArg Selection.videoBank chosen
  have workBank : (bus.write address value).workBank = _ := congrArg Selection.workBank chosen
  have video : bus.selection.videoBank ≤ 1 := Nat.le_of_lt_succ exist.video
  have work : 1 ≤ bus.selection.workBank ∧ bus.selection.workBank ≤ 7 :=
    ⟨exist.work.1, Nat.le_of_lt_succ exist.work.2⟩
  obtain ⟨least, most⟩ : 1 ≤ (bus.selection.store address value).workBank ∧
      (bus.selection.store address value).workBank ≤ 7 :=
    bus.selection.workBank_store_bounds value work
  constructor
  case video =>
    rw [banks, videoBank]
    exact Nat.lt_succ_of_le (bus.selection.videoBank_store_le value video)
  case work =>
    rw [banks, workBank]
    exact ⟨least, Nat.lt_succ_of_le most⟩

/-- The two copies reach object RAM and video RAM only. -/
theorem load_write_of_copy (bus : Bus) (value : UInt8)
    (copies : address = 0xff46 ∨ address = 0xff55) :
    (bus.write address value).load .work = bus.load .work ∧
      (bus.write address value).load .high = bus.load .high := by
  have written : bus.write address value = bus.writeIo address value := by
    obtain rfl | rfl := copies <;> rfl
  obtain ⟨videoRam, objectRam, io, copyActive, copied⟩ := bus.writeIo_copy_frame value copies
  rw [written, copied]
  exact ⟨rfl, rfl⟩

/-- A byte of RAM, in whichever bank, stays under a store to any other address. -/
theorem content_write_elsewhere (exist : bus.banks.Exist) (exist' : shown.Exist)
    (ram : IsRam other) (behind : Cell.at? shown other = some cell) (apart : address ≠ other)
    (value : UInt8) : (bus.write address value).content cell = bus.content cell := by
  by_cases copies : address = 0xff46 ∨ address = 0xff55
  · obtain ⟨work, high⟩ := bus.load_write_of_copy value copies
    have memory : cell.memory = .work ∨ cell.memory = .high := by
      unfold IsRam at ram
      unfold Cell.at? at behind
      dsimp only at behind
      split_ifs at behind <;> cases behind <;> first | exact .inl rfl | exact .inr rfl | omega
    unfold content
    obtain same | same := memory
    · rw [same, work]
    · rw [same, high]
  · rw [not_or] at copies
    rw [content_write exist (Cell.exists_of_at? exist' behind) value copies.1 copies.2, if_neg]
    intro hit
    exact apart (Cell.eq_of_at? ram exist' exist behind hit).symm

/-- What an address of RAM would read with these banks showing. -/
theorem read_showing (bus : Bus) (exist : shown.Exist)
    (behind : Cell.at? shown address = some cell) :
    (bus.showing shown).read address = bus.content cell := by
  have behind' : Cell.at? (bus.showing shown).banks address = some cell := by
    rw [banks_showing bus exist]
    exact behind
  exact read_eq_content behind'

end Bus

end Handheld
