import Handheld.Proofs.Cartridge.History

/-!
# The RAM behind its window

A RAM has cells, each a bank and an offset within the bank. The commands so far decide whether the
RAM window is open and which bank it shows; a store through the open window goes to one cell and
all other cells keep their bytes. `ram_remembers` says what is read back after any history, for a
RAM of any size.
-/
namespace Handheld

open Board

/-! ## Cells -/

/-- A cell of a RAM, by its bank and its offset in the bank. Different cells have different places,
so that a cell stands for one byte. -/
structure RamCell where
  bank : Nat
  offset : Fin 0x2000
  deriving DecidableEq, Repr

namespace RamCell

/-- Where the byte of the cell lies. -/
def place (cell : RamCell) : Nat := cell.bank * 0x2000 + cell.offset

/-- Cells lie one behind the other, so that no two share a place. -/
theorem place_injective {left right : RamCell} (same : left.place = right.place) :
    left = right := by
  obtain ⟨bank, offset, bound⟩ := left
  obtain ⟨otherBank, otherOffset, otherBound⟩ := right
  simp only [place] at same
  have banks : bank = otherBank := by omega
  have offsets : offset = otherOffset := by omega
  subst banks offsets
  rfl

/-- The cell that an address of the window stands for in a RAM of `size` bytes when `bank` is
selected. -/
def ofAddress (size bank : Nat) (address : UInt16) : RamCell where
  bank := bank % max 1 (size / 0x2000)
  offset := ⟨address.toNat % 0x2000, Nat.mod_lt _ (by decide)⟩

/-- What a controller looks up is the place of that cell. -/
theorem ramCell_eq_place (size bank : Nat) (address : UInt16) :
    Controller.ramCell size bank address = (ofAddress size bank address).place := by
  have offset : (address &&& 0x1fff).toNat = address.toNat % 0x2000 :=
    word_toNat_and_mask address 13 rfl
  simp only [Controller.ramCell, Controller.wrapBank, ofAddress, place, offset]

/-- Banks that the RAM has are not counted around, so no two of them share a cell. -/
theorem place_ne_of_bank_ne {size first second : Nat} (inside : first < size / 0x2000)
    (insideToo : second < size / 0x2000) (apart : first ≠ second) (address other : UInt16) :
    (ofAddress size first address).place ≠ (ofAddress size second other).place := by
  intro same
  have banks : first % max 1 (size / 0x2000) = second % max 1 (size / 0x2000) :=
    congrArg RamCell.bank (place_injective same)
  rw [Nat.mod_eq_of_lt (by omega), Nat.mod_eq_of_lt (by omega)] at banks
  exact apart banks

end RamCell

/-! ## The window -/

namespace Controller.Kind

/-- Without a controller the RAM is always open; else the last command to its gate decides. -/
def ramOpen : Kind → List Access → Bool
  | fixed, _ => true
  | _, history => (lastCommand 0 0x1fff 0 history).toNat % 16 = 10

/-- The RAM bank that is selected. MBC3 may have something else selected in its place. -/
def ramBank? : Kind → List Access → Option Nat
  | fixed, _ => some 0
  | mbc1, history =>
    some (if (lastCommand 0x6000 0x7fff 0 history).toNat % 2 = 1 then
      (lastCommand 0x4000 0x5fff 0 history).toNat % 4 else 0)
  | mbc3, history =>
    let number := (lastCommand 0x4000 0x5fff 0 history).toNat % 16
    if number ≤ 3 then some number else none
  | mbc5, history => some ((lastCommand 0x4000 0x5fff 0 history).toNat % 16)

/-- The cell behind an address of the window after a history, if there is one. -/
def cell? (kind : Kind) (size : Nat) (history : List Access) (address : UInt16) : Option RamCell :=
  if kind.ramOpen history then
    (kind.ramBank? history).map fun bank => .ofAddress size bank address
  else none

/-- The byte last stored to a cell through the open window. -/
def lastStored? (kind : Kind) (size : Nat) (cell : RamCell) : List Access → Option UInt8
  | [] => none
  | .control _ _ :: earlier => kind.lastStored? size cell earlier
  | .store address value :: earlier =>
    if kind.cell? size earlier address = some cell then some value
    else kind.lastStored? size cell earlier

end Controller.Kind

open Controller (Kind)

variable {history : List Access}

/-- What the window of MBC1 shows: in its first mode bank 0, else the bank that is selected. -/
theorem Mbc1.Follows.window {mbc : Mbc1} (follows : mbc.Follows history) :
    mbc.window =
      if Kind.mbc1.ramOpen history then
        .bank (if (lastCommand 0x6000 0x7fff 0 history).toNat % 2 = 1 then
          (lastCommand 0x4000 0x5fff 0 history).toNat % 4 else 0)
      else .closed := by
  have bits : (lastCommand 0x4000 0x5fff 0 history &&& 0x03).toNat =
      (lastCommand 0x4000 0x5fff 0 history).toNat % 4 := byte_toNat_and_mask _ 2 rfl
  simp only [Mbc1.window, Kind.ramOpen, follows.opened, opensRam_iff, follows.wide,
    lowestBit_ne_zero_iff, follows.high, bits, decide_eq_true_eq]

theorem Mbc3.Follows.window {mbc : Mbc3} (follows : mbc.Follows history) :
    mbc.window =
      let number := (lastCommand 0x4000 0x5fff 0 history).toNat % 16
      if Kind.mbc3.ramOpen history then
        if number ≤ 3 then .bank number
        else if 8 ≤ number ∧ number ≤ 12 then .clock (number - 8)
        else .closed
      else .closed := by
  have bits : (lastCommand 0x4000 0x5fff 0 history &&& 0x0f).toNat =
      (lastCommand 0x4000 0x5fff 0 history).toNat % 16 := byte_toNat_and_mask _ 4 rfl
  simp only [Mbc3.window, Kind.ramOpen, follows.opened, opensRam_iff, follows.select,
    UInt8.le_iff_toNat_le, bits, decide_eq_true_eq]
  rfl

theorem Mbc5.Follows.window {mbc : Mbc5} (follows : mbc.Follows history) :
    mbc.window =
      if Kind.mbc5.ramOpen history then
        .bank ((lastCommand 0x4000 0x5fff 0 history).toNat % 16)
      else .closed := by
  have bits : (lastCommand 0x4000 0x5fff 0 history &&& 0x0f).toNat =
      (lastCommand 0x4000 0x5fff 0 history).toNat % 16 := byte_toNat_and_mask _ 4 rfl
  simp only [Mbc5.window, Kind.ramOpen, follows.opened, opensRam_iff, follows.ram, bits,
    decide_eq_true_eq]

namespace Controller

variable {kind : Kind} {controller : Controller}

/-- A gate that was not opened closes the window, on every kind of board with a gate. -/
theorem Follows.window_closed (follows : Follows history kind controller)
    (closed : kind.ramOpen history = false) : controller.window = .closed := by
  cases follows with
  | fixed => cases closed
  | mbc1 registers => simp [Controller.window, registers.window, closed]
  | mbc3 registers => simp [Controller.window, registers.window, closed]
  | mbc5 registers => simp [Controller.window, registers.window, closed]

theorem Follows.window_eq_bank_iff (follows : Follows history kind controller)
    (opened : kind.ramOpen history = true) (number : Nat) :
    controller.window = .bank number ↔ kind.ramBank? history = some number := by
  cases follows with
  | fixed => simp [Controller.window, Kind.ramBank?]
  | mbc1 registers => simp [Controller.window, registers.window, opened, Kind.ramBank?]
  | mbc3 registers =>
    simp only [Controller.window, registers.window, opened, Kind.ramBank?]
    grind
  | mbc5 registers => simp [Controller.window, registers.window, opened, Kind.ramBank?]

/-- The window shows a cell of the RAM or no RAM at all. -/
theorem Follows.window_cases (follows : Follows history kind controller) (size : Nat)
    (address : UInt16) :
    (∃ number cell, controller.window = .bank number ∧
      Controller.ramCell size number address = cell.place ∧
      kind.cell? size history address = some cell) ∨
    ((∀ number, controller.window ≠ .bank number) ∧ kind.cell? size history address = none) := by
  cases opened : kind.ramOpen history with
  | false =>
    refine .inr ⟨fun number => ?_, by simp [Kind.cell?, opened]⟩
    simp [follows.window_closed opened]
  | true =>
    cases selected : kind.ramBank? history with
    | none =>
      refine .inr ⟨fun number shown => ?_, by simp [Kind.cell?, opened, selected]⟩
      have bank := (follows.window_eq_bank_iff opened number).mp shown
      rw [selected] at bank
      cases bank
    | some number =>
      refine .inl ⟨number, .ofAddress size number address,
        (follows.window_eq_bank_iff opened number).mpr selected,
        RamCell.ramCell_eq_place size number address, ?_⟩
      simp [Kind.cell?, opened, selected]

end Controller

/-! ## Contents -/

namespace Board

variable {kind : Kind} {board : Board}

/-- What a store does to the RAM, told from the commands before it. -/
theorem ram_writeRam (follows : Controller.Follows history kind board.controller)
    (address : UInt16) (value : UInt8) :
    (board.writeRam address value).ram =
      match kind.cell? board.ram.size history address with
      | some cell => board.ram.write cell.place value
      | none => board.ram := by
  obtain ⟨number, cell, shown, place, behind⟩ | ⟨unshown, behind⟩ :=
    follows.window_cases board.ram.size address
  · simp only [writeRam, shown, behind, place]
  · obtain ⟨number, shown, _⟩ | ⟨_, _, stored⟩ | ⟨_, stored⟩ := board.writeRam_cases address value
    · exact absurd shown (unshown number)
    all_goals rw [stored, behind]

/-- A cell holds the byte last stored to it, whatever has been commanded since. -/
theorem read_ram_after (kind : Kind) (rom ram : Bytes) (history : List Access) {cell : RamCell}
    (inside : cell.place < ram.size) :
    ((kind.board rom ram).after history).ram.read cell.place =
      (kind.lastStored? ram.size cell history).getD (ram.read cell.place) := by
  induction history with
  | nil => rfl
  | cons access earlier ih =>
    cases access with
    | control address value => exact ih
    | store address value =>
      have size : ((kind.board rom ram).after earlier).ram.size = ram.size :=
        ((kind.board rom ram).fixed_after earlier).2
      simp only [after, perform, ram_writeRam (follows_after kind rom ram earlier), size,
        Kind.lastStored?]
      cases behind : kind.cell? ram.size earlier address with
      | none => simpa using ih
      | some stored =>
        by_cases same : stored = cell
        · subst same
          simp only [if_true, Option.getD_some]
          exact Bytes.read_write_self _ value (by rw [size]; exact inside)
        · have apart : stored.place ≠ cell.place :=
            fun equal => same (RamCell.place_injective equal)
          simp only [Option.some.injEq, same, if_false]
          rw [Bytes.read_write_of_ne _ value apart, ih]

/-- A store changes at most one byte of the RAM. -/
theorem ram_writeRam_of_ne (board : Board) (address : UInt16) (value : UInt8) :
    ∃ place, ∀ other, other ≠ place →
      (board.writeRam address value).ram.read other = board.ram.read other := by
  obtain ⟨number, _, stored⟩ | ⟨register, _, stored⟩ | ⟨_, stored⟩ :=
    board.writeRam_cases address value
  all_goals rw [stored]
  · exact ⟨_, fun other apart => Bytes.read_write_of_ne _ value (Ne.symm apart)⟩
  · exact ⟨0, fun _ _ => rfl⟩
  · exact ⟨0, fun _ _ => rfl⟩

theorem read_window (board : Board) {address : UInt16}
    (window : 0xa000 ≤ address ∧ address < 0xc000) :
    board.read address = board.readRam address := by
  have outside : ¬ address < 0x8000 := by
    simp only [UInt16.le_iff_toNat_le, UInt16.lt_iff_toNat_lt] at *
    have bound : (0xa000 : UInt16).toNat = 0xa000 ∧ (0x8000 : UInt16).toNat = 0x8000 := by decide
    omega
  rw [read, if_neg outside, if_pos window]

end Board

/-- External RAM is a faithful store: on a board of any kind, with an image and a RAM of any size
and whatever the RAM holds at first, after any history.
`fixed`: the image and the size of the RAM are as they were. `commands`: a command changes no byte.
`stores`: a store changes at most one. `contents`: each cell holds the byte last stored to it
through the open window, or its first, whether or not the window shows it now. `shown`: an open
window with a bank selected reads the cell behind the address, and ones where that lies past the
RAM. `closed`: a closed window reads ones and takes no store. `banks`: no two banks that the RAM
has share a cell. -/
theorem ram_remembers (kind : Kind) (rom ram : Bytes) (history : List Access) :
    let board := (kind.board rom ram).after history
    let held (cell : RamCell) := (kind.lastStored? ram.size cell history).getD (ram.read cell.place)
    (board.rom = rom ∧ board.ram.size = ram.size) ∧
      (∀ address value, (board.control address value).ram = board.ram) ∧
      (∀ address value, ∃ place, ∀ other, other ≠ place →
        (board.writeRam address value).ram.read other = board.ram.read other) ∧
      (∀ cell, cell.place < ram.size → board.ram.read cell.place = held cell) ∧
      (∀ bank, kind.ramOpen history = true → kind.ramBank? history = some bank →
        ∀ address, 0xa000 ≤ address ∧ address < 0xc000 →
          let cell := RamCell.ofAddress ram.size bank address
          board.read address = if cell.place < ram.size then held cell else 0xff) ∧
      (kind.ramOpen history = false →
        (∀ address, 0xa000 ≤ address ∧ address < 0xc000 → board.read address = 0xff) ∧
          ∀ address value, board.writeRam address value = board) ∧
      (∀ first second, first < ram.size / 0x2000 → second < ram.size / 0x2000 → first ≠ second →
        ∀ address other, (RamCell.ofAddress ram.size first address).place ≠
          (RamCell.ofAddress ram.size second other).place) := by
  intro board held
  have follows : Controller.Follows history kind board.controller :=
    follows_after kind rom ram history
  have fixed : board.rom = rom ∧ board.ram.size = ram.size :=
    (kind.board rom ram).fixed_after history
  refine ⟨fixed, fun _ _ => rfl, board.ram_writeRam_of_ne, ?contents, ?shown, ?closed, ?banks⟩
  case contents => exact fun cell inside => read_ram_after kind rom ram history inside
  case shown =>
    intro bank opened selected address window cell
    have shown := (follows.window_eq_bank_iff opened bank).mpr selected
    rw [board.read_window window, readRam, shown]
    simp only [RamCell.ramCell_eq_place, fixed.2]
    split
    · rename_i inside
      exact read_ram_after kind rom ram history inside
    · rename_i outside
      exact Bytes.read_outside _ (by rw [fixed.2]; exact Nat.le_of_not_lt outside)
  case closed =>
    intro closed
    have shut := follows.window_closed closed
    refine ⟨fun address window => ?_, fun address value => ?_⟩
    · rw [board.read_window window, readRam, shut]
    · rw [writeRam, shut]
  case banks =>
    intro first second inside insideToo apart
    exact RamCell.place_ne_of_bank_ne inside insideToo apart

/-- MBC1 with two banks of RAM: the byte stored to bank 1 is still there after the mode was
switched to bank 0 and back and the window closed and opened between. -/
theorem ram_remembers_two_banks :
    let history := [.control 0x6000 0x01, .control 0x0000 0x0a, .control 0x0000 0x00,
      .store 0xa005 0x11, .control 0x6000 0x00, .store 0xa005 0x2a, .control 0x4000 0x03,
      .control 0x6000 0x01, .control 0x0000 0x0a]
    let ram : Bytes := Array.replicate 0x4000 0
    let board := (Kind.mbc1.board #[] ram).after history
    Kind.mbc1.ramOpen history = true ∧ Kind.mbc1.ramBank? history = some 3 ∧
      board.read 0xa005 = 0x2a ∧ board.ram.read 5 = 0x11 ∧ board.ram.size = 0x4000 := by
  intro history ram board
  have size : ram.size = 0x4000 := Array.size_replicate
  have opened : Kind.mbc1.ramOpen history = true := by decide
  have selected : Kind.mbc1.ramBank? history = some 3 := by decide
  obtain ⟨fixed, _, _, contents, shown, _⟩ := ram_remembers .mbc1 #[] ram history
  refine ⟨opened, selected, ?_, ?_, ?_⟩
  · rw [shown 3 opened selected 0xa005 (by decide), size]
    decide
  · have low := contents ⟨0, 5⟩ (by rw [size]; decide)
    rw [size] at low
    exact low
  · exact fixed.2.trans size

end Handheld
