import Handheld.Proofs.Bus.Frame
import Handheld.Proofs.Strict.Write

/-!
# Which memory the bus shows

Four fields of the bus decide it: whether the machine is a colour machine, the two bank registers,
and whether a copy in progress keeps the bank of video RAM locked. Three ports change them, on a
colour machine only. `selection_write` says how; what the banks are after any stores is derived from
it and never from the stores again.
-/
namespace Handheld

/-- The four fields, without the rest of the bus. What shows at an address of a window depends on
nothing else. -/
structure Selection where
  color : Bool
  videoBank : UInt8
  workBank : UInt8
  copyActive : Bool
  deriving DecidableEq, Repr

namespace Selection

/-- The selection after a store to the bus. -/
def store (selection : Selection) (address : UInt16) (value : UInt8) : Selection :=
  if selection.color then
    if address = 0xff4f then
      if selection.copyActive then selection
      else { selection with videoBank := value &&& 0x01 }
    else if address = 0xff55 then { selection with copyActive := value &&& 0x80 != 0 }
    else if address = 0xff70 then { selection with workBank := Bus.workBankOf value }
    else selection
  else selection

variable (selection : Selection) {address : UInt16} (value : UInt8)

theorem store_of_ne (video : address ≠ 0xff4f) (copy : address ≠ 0xff55)
    (work : address ≠ 0xff70) : selection.store address value = selection := by
  simp [store, video, copy, work]

theorem store_of_monochrome (monochrome : selection.color = false) :
    selection.store address value = selection := by
  simp [store, monochrome]

@[simp] theorem color_store : (selection.store address value).color = selection.color := by
  unfold store
  split_ifs <;> rfl

theorem copyActive_store (apart : address ≠ 0xff55) :
    (selection.store address value).copyActive = selection.copyActive := by
  unfold store
  split_ifs <;> rfl

/-- While no copy is in progress both bank registers of a colour machine take what is stored. -/
theorem banks_store (address : UInt16) (mode : selection.color = true)
    (idle : selection.copyActive = false) :
    (selection.store address value).videoBank =
        (if address = 0xff4f then value &&& 0x01 else selection.videoBank) ∧
      (selection.store address value).workBank =
        if address = 0xff70 then Bus.workBankOf value else selection.workBank := by
  unfold store
  split_ifs <;> simp_all

theorem videoBank_store_le (bank : selection.videoBank ≤ 1) :
    (selection.store address value).videoBank ≤ 1 := by
  unfold store
  split_ifs <;> first | exact bank | exact toNat_and_le_right value 0x01

theorem workBank_store_bounds (bank : 1 ≤ selection.workBank ∧ selection.workBank ≤ 7) :
    1 ≤ (selection.store address value).workBank ∧
      (selection.store address value).workBank ≤ 7 := by
  unfold store
  split_ifs <;> first | exact bank | exact Bus.workBankOf_bounds value

end Selection

namespace Bus

/-- What this bus selects. -/
def selection (bus : Bus) : Selection where
  color := bus.color
  videoBank := bus.videoBank
  workBank := bus.workBank
  copyActive := bus.copyActive

/-- The copy's register begins a copy or ends one, by bit 7, whatever was going on. -/
theorem selection_controlCopy (bus : Bus) (value : UInt8) :
    (bus.controlCopy value).selection =
      { bus.selection with copyActive := value &&& 0x80 != 0 } := by
  unfold controlCopy
  split
  · rename_i clear
    simp only [clear, bne_self_eq_false]
    split
    · rfl
    · rename_i idle
      obtain ⟨videoRam, io, copied⟩ := bus.copyBlocks_frame ((value &&& 0x7f).toNat + 1)
      rw [copied]
      simp [selection, setIo, idle]
  · rename_i set
    simp [selection, setIo, set]

/-- Port by port: three of them select, on a colour machine. -/
theorem selection_writeIo (bus : Bus) (address : UInt16) (value : UInt8) :
    (bus.writeIo address value).selection = bus.selection.store address value := by
  have plain (video : IoRegister.ofAddress address ≠ .videoBank)
      (copy : IoRegister.ofAddress address ≠ .copyControl)
      (work : IoRegister.ofAddress address ≠ .workBank) :
      bus.selection.store address value = bus.selection :=
    bus.selection.store_of_ne value (mt (IoRegister.ofAddress_eq_iff rfl).mpr video)
      (mt (IoRegister.ofAddress_eq_iff rfl).mpr copy)
      (mt (IoRegister.ofAddress_eq_iff rfl).mpr work)
  unfold writeIo
  cases device : IoRegister.ofAddress address <;> rw [device] at plain <;> dsimp only
  case videoBank =>
    rw [(IoRegister.ofAddress_eq_iff rfl).mp device]
    cases color : bus.color <;> cases active : bus.copyActive <;>
      simp [Selection.store, selection, color, active]
  case workBank =>
    rw [(IoRegister.ofAddress_eq_iff rfl).mp device]
    cases color : bus.color <;> simp [Selection.store, selection, color]
  case copyControl =>
    rw [(IoRegister.ofAddress_eq_iff rfl).mp device]
    cases color : bus.color with
    | true =>
      rw [if_pos rfl, selection_controlCopy]
      simp [Selection.store, selection, color]
    | false => simp [Selection.store, selection, setIo, color]
  case objectCopy =>
    obtain ⟨objectRam, copied⟩ := (bus.setIo objectSource value).copyObjects_frame (word value 0)
    rw [copied, plain nofun nofun nofun]
    rfl
  case serialControl =>
    obtain ⟨io, sent, interrupts, shifted⟩ := (bus.setIo serialControl value).sendSerial_frame
    rw [shifted, plain nofun nofun nofun]
    split <;> rfl
  case speed | backgroundIndex | backgroundData | objectIndex | objectData =>
    rw [plain nofun nofun nofun]
    split <;> rfl
  all_goals exact (plain nofun nofun nofun).symm

/-- The ports that change the selection all lie in the I/O page. -/
theorem selection_write (bus : Bus) (address : UInt16) (value : UInt8) :
    (bus.write address value).selection = bus.selection.store address value := by
  have outside (elsewhere : Region.ofAddress address ≠ .io) :
      bus.selection.store address value = bus.selection := by
    refine bus.selection.store_of_ne value ?_ ?_ ?_ <;>
      · rintro rfl
        exact elsewhere (by decide)
  unfold write
  cases region : Region.ofAddress address <;> rw [region] at outside <;> dsimp only
  case io => exact bus.selection_writeIo address value
  all_goals exact (outside nofun).symm

/-- Of the selection the end of a line can only release the bank of video RAM. -/
theorem selection_copyLineBlock (bus : Bus) :
    bus.copyLineBlock.selection = bus.selection ∨
      bus.copyActive = true ∧
        bus.copyLineBlock.selection = { bus.selection with copyActive := false } := by
  unfold copyLineBlock
  split
  · rename_i active
    obtain ⟨videoRam, io, copied⟩ := bus.copyBlocks_frame 1
    rw [copied]
    dsimp only
    split
    · exact .inr ⟨active, rfl⟩
    · exact .inl rfl
  · exact .inl rfl

end Bus

/-- A selection that a machine of this mode can have. A monochrome machine never selects a bank and
never copies by lines. -/
structure Selection.Fits (color : Bool) (selection : Selection) : Prop where
  mode : selection.color = color
  videoBank : selection.videoBank ≤ 1
  workBank : 1 ≤ selection.workBank ∧ selection.workBank ≤ 7
  monochrome : color = false →
    selection.videoBank = 0 ∧ selection.workBank = 1 ∧ selection.copyActive = false

namespace Selection.Fits

variable {color : Bool} {selection : Selection}

theorem store (fits : selection.Fits color) (address : UInt16) (value : UInt8) :
    (selection.store address value).Fits color where
  mode := (selection.color_store value).trans fits.mode
  videoBank := selection.videoBank_store_le value fits.videoBank
  workBank := selection.workBank_store_bounds value fits.workBank
  monochrome := by
    intro monochrome
    rw [selection.store_of_monochrome value (fits.mode.trans monochrome)]
    exact fits.monochrome monochrome

theorem release (fits : selection.Fits color) :
    Fits color { selection with copyActive := false } where
  mode := fits.mode
  videoBank := fits.videoBank
  workBank := fits.workBank
  monochrome monochrome := ⟨(fits.monochrome monochrome).1, (fits.monochrome monochrome).2.1, rfl⟩

end Selection.Fits

end Handheld
