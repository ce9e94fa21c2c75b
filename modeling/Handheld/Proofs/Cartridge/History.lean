import Handheld.Cartridge.Board
import Handheld.Word

/-!
# Boards and what has been written to them

Two kinds of write reach a board: those into the ROM window are commands to the controller, those
into the RAM window are data. What a controller has selected is told here from the commands alone:
each register answers to the last command within its range of addresses. `Controller.Follows` says
so for each kind of board, and holds after any history.
-/
namespace Handheld

namespace Board

/-- A write to a board. -/
inductive Access where
  | control (address : UInt16) (value : UInt8)
  | store (address : UInt16) (value : UInt8)
  deriving DecidableEq, Repr

/-- The board after a write. -/
def perform (board : Board) : Access → Board
  | .control address value => board.control address value
  | .store address value => board.writeRam address value

/-- The board after a history, of which the latest access comes first. -/
def after (board : Board) : List Access → Board
  | [] => board
  | access :: earlier => (board.after earlier).perform access

/-- The byte of the last command to an address of the range, or `start` if there was none. -/
def lastCommand (first last : Nat) (start : UInt8) : List Access → UInt8
  | [] => start
  | .control address value :: earlier =>
    if first ≤ address.toNat ∧ address.toNat ≤ last then value
    else lastCommand first last start earlier
  | .store _ _ :: earlier => lastCommand first last start earlier

end Board

open Board

/-! ## Bytes as registers take them -/

theorem opensRam_iff (value : UInt8) : opensRam value = true ↔ value.toNat % 16 = 10 := by
  have low : (value &&& 0x0f).toNat = value.toNat % 16 := byte_toNat_and_mask value 4 rfl
  rw [opensRam, decide_eq_true_iff, ← UInt8.toNat_inj, low]
  rfl

theorem lowestBit_ne_zero_iff (value : UInt8) :
    (value &&& 0x01 != 0) = true ↔ value.toNat % 2 = 1 := by
  have low : (value &&& 0x01).toNat = value.toNat % 2 := byte_toNat_and_mask value 1 rfl
  rw [bne_iff_ne, ne_eq, ← UInt8.toNat_inj, low]
  change ¬ value.toNat % 2 = 0 ↔ _
  omega

/-! ## Registers -/

/-- The registers hold what the commands so far have left in them. Each is told by the last command
to its own range of addresses. -/
structure Mbc1.Follows (mbc : Mbc1) (history : List Access) : Prop where
  low : mbc.lowBank = nonzeroBank (lastCommand 0x2000 0x3fff 1 history &&& 0x1f)
  high : mbc.highBank = lastCommand 0x4000 0x5fff 0 history &&& 0x03
  opened : mbc.ramOpen = opensRam (lastCommand 0 0x1fff 0 history)
  wide : mbc.wide = (lastCommand 0x6000 0x7fff 0 history &&& 0x01 != 0)

/-- Each rung of the address ranges belongs to one register, and the others keep their command. -/
theorem Mbc1.Follows.control {mbc : Mbc1} {history : List Access} (follows : mbc.Follows history)
    (address : UInt16) (value : UInt8) :
    (mbc.control address value).Follows (.control address value :: history) := by
  obtain ⟨low, high, opened, wide⟩ := follows
  simp only [Mbc1.control, UInt16.lt_iff_toNat_lt]
  repeat' split
  all_goals constructor <;> grind [lastCommand]

/-- Of the seven registers those that select a bank; the clock is no matter of commands alone and is
followed elsewhere. -/
structure Mbc3.Follows (mbc : Mbc3) (history : List Access) : Prop where
  rom : mbc.romBank = nonzeroBank (lastCommand 0x2000 0x3fff 1 history &&& 0x7f)
  select : mbc.select = lastCommand 0x4000 0x5fff 0 history &&& 0x0f
  opened : mbc.ramOpen = opensRam (lastCommand 0 0x1fff 0 history)

theorem Mbc3.Follows.control {mbc : Mbc3} {history : List Access} (follows : mbc.Follows history)
    (address : UInt16) (value : UInt8) :
    (mbc.control address value).Follows (.control address value :: history) := by
  obtain ⟨rom, select, opened⟩ := follows
  simp only [Mbc3.control, UInt16.lt_iff_toNat_lt]
  repeat' split
  all_goals constructor <;> grind [lastCommand]

/-- A bank of nine bits, by its low byte and the byte whose lowest bit is its highest. -/
def nineBits (low high : UInt8) : UInt16 :=
  (if high &&& 0x01 = 0 then 0 else 0x100) ||| low.toUInt16

theorem nineBits_parts (low high : UInt8) :
    nineBits low high &&& 0xff = low.toUInt16 ∧
      nineBits low high &&& 0x100 = if high &&& 0x01 = 0 then 0 else 0x100 := by
  have table (byte : UInt8) (top : UInt16) : top = 0 ∨ top = 0x100 →
      (top ||| byte.toUInt16) &&& 0xff = byte.toUInt16 ∧
        (top ||| byte.toUInt16) &&& 0x100 = top := by
    rintro (rfl | rfl)
    all_goals
      revert byte
      refine forall_byte ?_
      decide +kernel
  unfold nineBits
  split
  · exact table low 0 (.inl rfl)
  · exact table low 0x100 (.inr rfl)

theorem toNat_nineBits (low high : UInt8) :
    (nineBits low high).toNat = low.toNat + 256 * (high.toNat % 2) := by
  have odd : (high &&& 0x01).toNat = high.toNat % 2 := byte_toNat_and_mask high 1 rfl
  have table (byte : UInt8) : (0x100 ||| byte.toUInt16).toNat = byte.toNat + 256 := by
    revert byte
    refine forall_byte ?_
    decide +kernel
  unfold nineBits
  split
  · rename_i clear
    have even : high.toNat % 2 = 0 := by rw [← odd, clear]; rfl
    simp [even]
  · rename_i set
    have uneven : high.toNat % 2 ≠ 0 := fun zero => set (UInt8.toNat_inj.mp (odd.trans zero))
    rw [table]
    omega

/-- The bank of the image is put together from two ranges here, and no rule takes zero as one. -/
structure Mbc5.Follows (mbc : Mbc5) (history : List Access) : Prop where
  rom : mbc.romBank =
    nineBits (lastCommand 0x2000 0x2fff 1 history) (lastCommand 0x3000 0x3fff 0 history)
  ram : mbc.ramBank = lastCommand 0x4000 0x5fff 0 history &&& 0x0f
  opened : mbc.ramOpen = opensRam (lastCommand 0 0x1fff 0 history)

theorem Mbc5.Follows.control {mbc : Mbc5} {history : List Access} (follows : mbc.Follows history)
    (address : UInt16) (value : UInt8) :
    (mbc.control address value).Follows (.control address value :: history) := by
  obtain ⟨rom, ram, opened⟩ := follows
  obtain ⟨low, high⟩ := nineBits_parts (lastCommand 0x2000 0x2fff 1 history)
    (lastCommand 0x3000 0x3fff 0 history)
  simp only [Mbc5.control, UInt16.lt_iff_toNat_lt, rom, low, high, UInt16.or_comm _ (ite _ _ _)]
  repeat' split
  all_goals constructor <;> grind [lastCommand, nineBits]

/-! ## Controllers -/

namespace Controller

/-- The four kinds of board. -/
inductive Kind where
  | fixed | mbc1 | mbc3 | mbc5
  deriving DecidableEq, Repr

/-- The controller of this kind in its power-on state. -/
def Kind.fresh : Kind → Controller
  | fixed => .fixed
  | mbc1 => .mbc1 {}
  | mbc3 => .mbc3 {}
  | mbc5 => .mbc5 {}

/-- A board of this kind at power-on, with whatever its RAM holds then. -/
def Kind.board (kind : Kind) (rom ram : Bytes) : Board := { rom, ram, controller := kind.fresh }

/-- A controller of this kind whose registers hold what the commands so far have left there. A fixed
board has none. -/
inductive Follows (history : List Access) : Kind → Controller → Prop
  | fixed : Follows history .fixed .fixed
  | mbc1 {mbc : Mbc1} (registers : mbc.Follows history) : Follows history .mbc1 (.mbc1 mbc)
  | mbc3 {mbc : Mbc3} (registers : mbc.Follows history) : Follows history .mbc3 (.mbc3 mbc)
  | mbc5 {mbc : Mbc5} (registers : mbc.Follows history) : Follows history .mbc5 (.mbc5 mbc)

variable {kind : Kind} {controller : Controller} {history : List Access}

theorem follows_fresh (kind : Kind) : Follows [] kind kind.fresh := by
  cases kind
  case fixed => exact .fixed
  case mbc1 => exact .mbc1 ⟨rfl, rfl, rfl, rfl⟩
  case mbc3 => exact .mbc3 ⟨rfl, rfl, rfl⟩
  case mbc5 => exact .mbc5 ⟨rfl, rfl, rfl⟩

theorem Follows.control (follows : Follows history kind controller) (address : UInt16)
    (value : UInt8) :
    Follows (.control address value :: history) kind (controller.control address value) := by
  cases follows with
  | fixed => exact .fixed
  | mbc1 registers => exact .mbc1 (registers.control address value)
  | mbc3 registers => exact .mbc3 (registers.control address value)
  | mbc5 registers => exact .mbc5 (registers.control address value)

/-- Data are no commands. -/
theorem Follows.store (follows : Follows history kind controller) (address : UInt16)
    (value : UInt8) : Follows (.store address value :: history) kind controller := by
  cases follows with
  | fixed => exact .fixed
  | mbc1 registers => exact .mbc1 ⟨registers.low, registers.high, registers.opened, registers.wide⟩
  | mbc3 registers => exact .mbc3 ⟨registers.rom, registers.select, registers.opened⟩
  | mbc5 registers => exact .mbc5 ⟨registers.rom, registers.ram, registers.opened⟩

theorem Follows.writeClock (follows : Follows history kind controller) (register : Nat)
    (value : UInt8) : Follows history kind (controller.writeClock register value) := by
  cases follows with
  | fixed => exact .fixed
  | mbc1 registers => exact .mbc1 registers
  | mbc3 registers => exact .mbc3 ⟨registers.rom, registers.select, registers.opened⟩
  | mbc5 registers => exact .mbc5 registers

end Controller

namespace Board

open Controller

/-- A write of data goes to the RAM, to a clock register, or nowhere. -/
theorem writeRam_cases (board : Board) (address : UInt16) (value : UInt8) :
    (∃ number, board.controller.window = .bank number ∧
      board.writeRam address value =
        { board with ram := board.ram.write (ramCell board.ram.size number address) value }) ∨
    (∃ register, board.controller.window = .clock register ∧
      board.writeRam address value =
        { board with controller := board.controller.writeClock register value }) ∨
    (board.controller.window = .closed ∧ board.writeRam address value = board) := by
  unfold writeRam
  cases shown : board.controller.window with
  | bank number => exact .inl ⟨number, rfl, rfl⟩
  | clock register => exact .inr (.inl ⟨register, rfl, rfl⟩)
  | closed => exact .inr (.inr ⟨rfl, rfl⟩)

theorem follows_perform {board : Board} {kind : Kind} {history : List Access}
    (follows : Follows history kind board.controller) (access : Access) :
    Follows (access :: history) kind (board.perform access).controller := by
  cases access with
  | control address value => exact follows.control address value
  | store address value =>
    obtain ⟨number, _, stored⟩ | ⟨register, _, stored⟩ | ⟨_, stored⟩ :=
      board.writeRam_cases address value
    all_goals rw [perform, stored]
    · exact follows.store address value
    · exact (follows.writeClock register value).store address value
    · exact follows.store address value

/-- The run: after any history the controller is what the commands have made of it. -/
theorem follows_after (kind : Kind) (rom ram : Bytes) (history : List Access) :
    Follows history kind ((kind.board rom ram).after history).controller := by
  induction history with
  | nil => exact follows_fresh kind
  | cons access earlier ih => exact follows_perform ih access

/-- The image and the size of the RAM are fixed. -/
theorem fixed_perform (board : Board) (access : Access) :
    (board.perform access).rom = board.rom ∧
      (board.perform access).ram.size = board.ram.size := by
  cases access with
  | control address value => exact ⟨rfl, rfl⟩
  | store address value =>
    obtain ⟨number, _, stored⟩ | ⟨register, _, stored⟩ | ⟨_, stored⟩ :=
      board.writeRam_cases address value
    all_goals rw [perform, stored]
    · exact ⟨rfl, board.ram.size_write _ value⟩
    · exact ⟨rfl, rfl⟩
    · exact ⟨rfl, rfl⟩

theorem fixed_after (board : Board) (history : List Access) :
    (board.after history).rom = board.rom ∧ (board.after history).ram.size = board.ram.size := by
  induction history with
  | nil => exact ⟨rfl, rfl⟩
  | cons access earlier ih =>
    obtain ⟨rom, size⟩ := (board.after earlier).fixed_perform access
    exact ⟨rom.trans ih.1, size.trans ih.2⟩

end Board

end Handheld
