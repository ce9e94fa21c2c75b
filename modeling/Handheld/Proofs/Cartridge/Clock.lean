import Handheld.Proofs.Cartridge.Ram

/-!
# The clock of MBC3

The clock stands still, so all it shows has been put there by the program: a store while one of its
registers is selected goes to that register, and a latch copies all five to where they are read.
Both are told here from the history alone. A latch is a command of one to the latch's range of
addresses, the last command to which was zero; commands to other ranges and stores may lie between
the two. `clock_follows_latch` says that this is what is read, and that the clock and the RAM never
get each other's bytes.
-/
namespace Handheld

open Board
open Controller (Kind)

/-! ## The clock told from a history -/

/-- The number last given to select what the RAM window of MBC3 shows. -/
def selectedNumber (history : List Access) : Nat :=
  (lastCommand 0x4000 0x5fff 0 history).toNat % 16

/-- The clock register in the window, if the window is open and shows one. -/
def clockShown? (history : List Access) : Option Nat :=
  if Kind.mbc3.ramOpen history ∧ 8 ≤ selectedNumber history ∧ selectedNumber history ≤ 12 then
    some (selectedNumber history - 8)
  else none

/-- The byte last stored to a clock register, and zero before the first. -/
def clockHeld (register : Nat) : List Access → UInt8
  | [] => 0
  | .control _ _ :: earlier => clockHeld register earlier
  | .store _ value :: earlier =>
    if clockShown? earlier = some register then value else clockHeld register earlier

/-- The last command to the latch. Before the first it is taken as one, which arms nothing. -/
def lastLatchCommand (history : List Access) : UInt8 := lastCommand 0x6000 0x7fff 1 history

/-- Whether a command latches the clock, told from what came before it. -/
def LatchesClock (address : UInt16) (value : UInt8) (earlier : List Access) : Prop :=
  (0x6000 ≤ address.toNat ∧ address.toNat ≤ 0x7fff) ∧ value = 1 ∧ lastLatchCommand earlier = 0

instance (address : UInt16) (value : UInt8) (earlier : List Access) :
    Decidable (LatchesClock address value earlier) :=
  inferInstanceAs (Decidable ((_ ∧ _) ∧ _ ∧ _))

/-- All that came before the most recent latch. -/
def beforeLatch? : List Access → Option (List Access)
  | [] => none
  | .control address value :: earlier =>
    if LatchesClock address value earlier then some earlier else beforeLatch? earlier
  | .store _ _ :: earlier => beforeLatch? earlier

/-- What a clock register held at the most recent latch, and zero before the first. -/
def clockLatched (register : Nat) (history : List Access) : UInt8 :=
  match beforeLatch? history with
  | some earlier => clockHeld register earlier
  | none => 0

theorem clockLatched_control (register : Nat) (address : UInt16) (value : UInt8)
    (earlier : List Access) :
    clockLatched register (.control address value :: earlier) =
      if LatchesClock address value earlier then clockHeld register earlier
      else clockLatched register earlier := by
  simp only [clockLatched, beforeLatch?]
  by_cases latches : LatchesClock address value earlier
  · simp only [if_pos latches]
  · simp only [if_neg latches]

variable {history : List Access}

/-! ## Commands -/

namespace Mbc3

variable {mbc : Mbc3}

/-- Commands do not touch the clock that programs store to, only its copy. -/
theorem clock_control (mbc : Mbc3) (address : UInt16) (value : UInt8) :
    (mbc.control address value).clock = mbc.clock := by
  unfold control
  repeat' split
  all_goals rfl

/-- What a command to the latch's range does: zero arms it, and one copies the clock if it is
armed. -/
theorem control_latch (mbc : Mbc3) {address : UInt16} (value : UInt8)
    (inside : 0x6000 ≤ address.toNat ∧ address.toNat ≤ 0x7fff) :
    (mbc.control address value).latched =
        (if mbc.latchArmed && value = 1 then mbc.clock else mbc.latched) ∧
      (mbc.control address value).latchArmed = decide (value = 0) := by
  simp only [control, UInt16.lt_iff_toNat_lt]
  grind

/-- The latch listens to its own range only. -/
theorem control_elsewhere (mbc : Mbc3) {address : UInt16} (value : UInt8)
    (outside : ¬ (0x6000 ≤ address.toNat ∧ address.toNat ≤ 0x7fff)) :
    (mbc.control address value).latched = mbc.latched ∧
      (mbc.control address value).latchArmed = mbc.latchArmed := by
  simp only [control, UInt16.lt_iff_toNat_lt]
  grind

/-! ## The clock along a history -/

/-- All registers, those of the clock among them, hold what the history so far has left there. -/
structure KeepsClock (mbc : Mbc3) (history : List Access) : Prop where
  registers : mbc.Follows history
  held : ∀ register < 5, mbc.clock.read register = clockHeld register history
  latched : ∀ register < 5, mbc.latched.read register = clockLatched register history
  armed : mbc.latchArmed = decide (lastLatchCommand history = 0)

theorem keepsClock_fresh : ({} : Mbc3).KeepsClock [] where
  registers := ⟨rfl, rfl, rfl⟩
  held _ inside := Block.read_filled 0 inside
  latched _ inside := Block.read_filled 0 inside
  armed := rfl

/-- A command of one copies the clock just when the last command to the latch was zero. -/
theorem KeepsClock.latched_control (keeps : mbc.KeepsClock history) (address : UInt16)
    (value : UInt8) :
    (mbc.control address value).latched =
      if LatchesClock address value history then mbc.clock else mbc.latched := by
  by_cases inside : 0x6000 ≤ address.toNat ∧ address.toNat ≤ 0x7fff
  · rw [(mbc.control_latch value inside).1, keeps.armed]
    simp only [LatchesClock, inside, Bool.and_eq_true, decide_eq_true_eq, and_self, true_and,
      and_comm]
  · have stays : ¬ LatchesClock address value history := fun latches => inside latches.1
    rw [(mbc.control_elsewhere value inside).1, if_neg stays]

theorem KeepsClock.control (keeps : mbc.KeepsClock history) (address : UInt16) (value : UInt8) :
    (mbc.control address value).KeepsClock (.control address value :: history) where
  registers := keeps.registers.control address value
  held register bound := by
    rw [clock_control]
    exact keeps.held register bound
  latched register bound := by
    rw [keeps.latched_control, clockLatched_control]
    split
    · exact keeps.held register bound
    · exact keeps.latched register bound
  armed := by
    simp only [lastLatchCommand, lastCommand]
    split
    · rename_i inside
      exact (mbc.control_latch value inside).2
    · rename_i outside
      exact (mbc.control_elsewhere value outside).2.trans keeps.armed

/-! ## Stores -/

/-- A store reaches the clock only through a window that shows one of its registers. -/
theorem KeepsClock.store_elsewhere (keeps : mbc.KeepsClock history) (address : UInt16)
    (value : UInt8) (hidden : clockShown? history = none) :
    mbc.KeepsClock (.store address value :: history) where
  registers := ⟨keeps.registers.rom, keeps.registers.select, keeps.registers.opened⟩
  held register bound := by
    rw [keeps.held register bound, clockHeld.eq_3, hidden, if_neg (by simp)]
  latched := keeps.latched
  armed := keeps.armed

theorem KeepsClock.store_clock (keeps : mbc.KeepsClock history) (address : UInt16) (value : UInt8)
    {shown : Nat} (inside : shown < 5) (shows : clockShown? history = some shown) :
    { mbc with clock := mbc.clock.write shown value }.KeepsClock
      (.store address value :: history) where
  registers := ⟨keeps.registers.rom, keeps.registers.select, keeps.registers.opened⟩
  held register bound := by
    rw [Block.read_write _ _ inside, clockHeld.eq_3, shows, keeps.held register bound]
    simp only [Option.some.injEq]
  latched := keeps.latched
  armed := keeps.armed

end Mbc3

theorem clockShown_lt {register : Nat} (shows : clockShown? history = some register) :
    register < 5 := by
  unfold clockShown? at shows
  grind

/-! ## The board along a history -/

namespace Board

/-- The controller is MBC3, with what the history has left in its registers. -/
def KeepsClock (board : Board) (history : List Access) : Prop :=
  ∃ mbc : Mbc3, board.controller = .mbc3 mbc ∧ mbc.KeepsClock history

variable {board : Board}

theorem KeepsClock.window (keeps : board.KeepsClock history) :
    board.controller.window =
      if Kind.mbc3.ramOpen history then
        if selectedNumber history ≤ 3 then .bank (selectedNumber history)
        else if 8 ≤ selectedNumber history ∧ selectedNumber history ≤ 12 then
          .clock (selectedNumber history - 8)
        else .closed
      else .closed := by
  obtain ⟨mbc, is, keeps⟩ := keeps
  rw [is]
  exact keeps.registers.window

theorem KeepsClock.window_eq_clock_iff (keeps : board.KeepsClock history) (register : Nat) :
    board.controller.window = .clock register ↔ clockShown? history = some register := by
  rw [keeps.window, clockShown?]
  grind

theorem KeepsClock.clockShown_eq_none (keeps : board.KeepsClock history)
    (other : ∀ register, board.controller.window ≠ .clock register) :
    clockShown? history = none :=
  Option.eq_none_iff_forall_ne_some.mpr fun register shows =>
    other register ((keeps.window_eq_clock_iff register).mpr shows)

/-- The step for a store, to the clock, to the RAM or to nowhere. -/
theorem KeepsClock.store (keeps : board.KeepsClock history) (address : UInt16) (value : UInt8) :
    (board.writeRam address value).KeepsClock (.store address value :: history) := by
  have other (elsewhere : ∀ register, board.controller.window ≠ .clock register) :
      board.KeepsClock (.store address value :: history) := by
    have hidden := keeps.clockShown_eq_none elsewhere
    obtain ⟨mbc, is, keeps⟩ := keeps
    exact ⟨mbc, is, keeps.store_elsewhere address value hidden⟩
  obtain ⟨number, shown, stored⟩ | ⟨register, shown, stored⟩ | ⟨shown, stored⟩ :=
    board.writeRam_cases address value
  all_goals rw [stored]
  · exact other fun register => by simp [shown]
  · have shows := (keeps.window_eq_clock_iff register).mp shown
    obtain ⟨mbc, is, keeps⟩ := keeps
    exact ⟨_, congrArg (·.writeClock register value) is,
      keeps.store_clock address value (clockShown_lt shows) shows⟩
  · exact other fun register => by simp [shown]

/-- The run: after any history the clock is what the history makes of it. -/
theorem keepsClock_after (rom ram : Bytes) (history : List Access) :
    ((Kind.mbc3.board rom ram).after history).KeepsClock history := by
  induction history with
  | nil => exact ⟨{}, rfl, Mbc3.keepsClock_fresh⟩
  | cons access earlier ih =>
    cases access with
    | control address value =>
      obtain ⟨mbc, is, keeps⟩ := ih
      exact ⟨mbc.control address value, congrArg (·.control address value) is,
        keeps.control address value⟩
    | store address value => exact ih.store address value

/-- An open window that shows a clock register reads what the last latch copied from it. -/
theorem KeepsClock.readRam_clock (keeps : board.KeepsClock history) (address : UInt16)
    {register : Nat} (shows : clockShown? history = some register) :
    board.readRam address = clockLatched register history := by
  have shown := (keeps.window_eq_clock_iff register).mpr shows
  obtain ⟨mbc, is, keeps⟩ := keeps
  rw [readRam, shown, is]
  exact keeps.latched register (clockShown_lt shows)

/-- A store goes to the clock or to the RAM, not to both: each keeps its bytes while the other's
number is selected. -/
theorem KeepsClock.writeRam_apart (keeps : board.KeepsClock history) (address : UInt16)
    (value : UInt8) :
    (8 ≤ selectedNumber history → (board.writeRam address value).ram = board.ram) ∧
      (selectedNumber history ≤ 3 →
        (board.writeRam address value).controller = board.controller) := by
  rw [writeRam, keeps.window]
  constructor
  · intro clock
    grind
  · intro bank
    grind

/-- Numbers that stand for no bank and no clock register leave the window closed. -/
theorem KeepsClock.window_unused (keeps : board.KeepsClock history)
    (unused : 4 ≤ selectedNumber history ∧ selectedNumber history ≤ 7 ∨
      13 ≤ selectedNumber history) : board.controller.window = .closed := by
  rw [keeps.window]
  grind

end Board

/-- The clock follows the latch: on an MBC3 board with an image and a RAM of any size, after any
history.
`contents`: each of the five registers holds the byte last stored to it, and its copy what it held
at the most recent latch. `shown`: with its number selected and the window open, the copy is what
is read. `clock`, `bank`: while the number of a clock register is selected no store reaches the
RAM, and while that of a bank is selected none reaches the controller. `unused`: any other number
reads ones and takes no store. -/
theorem clock_follows_latch (rom ram : Bytes) (history : List Access) :
    let board := (Kind.mbc3.board rom ram).after history
    let number := selectedNumber history
    (∃ mbc : Mbc3, board.controller = .mbc3 mbc ∧ ∀ register < 5,
        mbc.clock.read register = clockHeld register history ∧
          mbc.latched.read register = clockLatched register history) ∧
      (∀ register < 5, Kind.mbc3.ramOpen history = true → number = 8 + register →
        ∀ address, 0xa000 ≤ address ∧ address < 0xc000 →
          board.read address = clockLatched register history) ∧
      (8 ≤ number → ∀ address value, (board.writeRam address value).ram = board.ram) ∧
      (number ≤ 3 → ∀ address value,
        (board.writeRam address value).controller = board.controller) ∧
      (4 ≤ number ∧ number ≤ 7 ∨ 13 ≤ number →
        (∀ address, 0xa000 ≤ address ∧ address < 0xc000 → board.read address = 0xff) ∧
          ∀ address value, board.writeRam address value = board) := by
  intro board number
  have keeps : board.KeepsClock history := keepsClock_after rom ram history
  refine ⟨?contents, ?shown, ?clock, ?bank, ?unused⟩
  case contents =>
    obtain ⟨mbc, is, kept⟩ := keeps
    exact ⟨mbc, is, fun register bound => ⟨kept.held register bound, kept.latched register bound⟩⟩
  case shown =>
    intro register bound opened selected address window
    have shows : clockShown? history = some register := by
      have inside : 8 ≤ selectedNumber history ∧ selectedNumber history ≤ 12 := by omega
      have behind : selectedNumber history - 8 = register := by omega
      rw [clockShown?, if_pos ⟨opened, inside⟩, behind]
    rw [board.read_window window, keeps.readRam_clock address shows]
  case clock => exact fun clock address value => (keeps.writeRam_apart address value).1 clock
  case bank => exact fun bank address value => (keeps.writeRam_apart address value).2 bank
  case unused =>
    intro unused
    have closed := keeps.window_unused unused
    refine ⟨fun address window => ?_, fun address value => ?_⟩
    · rw [board.read_window window, readRam, closed]
    · rw [writeRam, closed]

/-- The minutes are stored, latched with commands to other ranges between the two of the latch, and
stored again: the first byte is read, the second held, and the RAM is as it was. -/
theorem clock_follows_latch_minutes :
    let history := [.store 0xa000 0x3b, .control 0x6000 0x01, .control 0x2000 0x05,
      .control 0x7fff 0x00, .store 0xbfff 0x2a, .control 0x4000 0x09, .control 0x0000 0x0a]
    let board := (Kind.mbc3.board #[] #[0x11]).after history
    Kind.mbc3.ramOpen history = true ∧ selectedNumber history = 9 ∧
      board.read 0xa123 = 0x2a ∧ clockHeld 1 history = 0x3b ∧
      (board.writeRam 0xa000 0x77).ram = board.ram := by
  intro history board
  have opened : Kind.mbc3.ramOpen history = true := by decide
  have selected : selectedNumber history = 9 := by decide
  obtain ⟨_, shown, clock, _⟩ := clock_follows_latch #[] #[0x11] history
  have minutes : clockLatched 1 history = 0x2a := by decide
  refine ⟨opened, selected, ?_, by decide, clock (by rw [selected]; decide) 0xa000 0x77⟩
  exact (shown 1 (by decide) opened selected 0xa123 (by decide)).trans minutes

end Handheld
