import Handheld.Proofs.Cartridge.History

/-!
# The image in the ROM window

The ROM window has two halves of 0x4000 bytes. A banked controller chooses the bank of the image
that each half shows, counted around when the image has fewer. `read_image` gives the byte read at
any address of the window after any history of writes, for an image of any size.
-/
namespace Handheld

open Board

namespace Controller.Kind

/-- The bank that the lower half shows, before it is counted around. -/
def lowerBank : Kind → List Access → Nat
  | mbc1, history =>
    if (lastCommand 0x6000 0x7fff 0 history).toNat % 2 = 1 then
      32 * ((lastCommand 0x4000 0x5fff 0 history).toNat % 4)
    else 0
  | _, _ => 0

/-- The bank that the upper half shows, before it is counted around. -/
def upperBank : Kind → List Access → Nat
  | fixed, _ => 1
  | mbc1, history =>
    32 * ((lastCommand 0x4000 0x5fff 0 history).toNat % 4) +
      max 1 ((lastCommand 0x2000 0x3fff 1 history).toNat % 32)
  | mbc3, history => max 1 ((lastCommand 0x2000 0x3fff 1 history).toNat % 128)
  | mbc5, history =>
    (lastCommand 0x2000 0x2fff 1 history).toNat +
      256 * ((lastCommand 0x3000 0x3fff 0 history).toNat % 2)

end Controller.Kind

open Controller (Kind)

/-! ## Registers and banks -/

variable {history : List Access}

/-- The mode of MBC1 decides whether its upper bits reach the lower half. -/
theorem Mbc1.Follows.lowerBank {mbc : Mbc1} (follows : mbc.Follows history) :
    mbc.lowerBank = Kind.mbc1.lowerBank history := by
  have bits : (lastCommand 0x4000 0x5fff 0 history &&& 0x03).toNat =
      (lastCommand 0x4000 0x5fff 0 history).toNat % 4 := byte_toNat_and_mask _ 2 rfl
  simp only [Mbc1.lowerBank, Kind.lowerBank, follows.wide, lowestBit_ne_zero_iff, follows.high,
    bits]

theorem Mbc1.Follows.upperBank {mbc : Mbc1} (follows : mbc.Follows history) :
    mbc.upperBank = Kind.mbc1.upperBank history := by
  have high : (lastCommand 0x4000 0x5fff 0 history &&& 0x03).toNat =
      (lastCommand 0x4000 0x5fff 0 history).toNat % 4 := byte_toNat_and_mask _ 2 rfl
  have low : (lastCommand 0x2000 0x3fff 1 history &&& 0x1f).toNat =
      (lastCommand 0x2000 0x3fff 1 history).toNat % 32 := byte_toNat_and_mask _ 5 rfl
  rw [Mbc1.upperBank, Kind.upperBank, follows.high, follows.low, toNat_nonzeroBank, high, low]

theorem Mbc3.Follows.upperBank {mbc : Mbc3} (follows : mbc.Follows history) :
    mbc.romBank.toNat = Kind.mbc3.upperBank history := by
  have bits : (lastCommand 0x2000 0x3fff 1 history &&& 0x7f).toNat =
      (lastCommand 0x2000 0x3fff 1 history).toNat % 128 := byte_toNat_and_mask _ 7 rfl
  rw [Kind.upperBank, follows.rom, toNat_nonzeroBank, bits]

theorem Mbc5.Follows.upperBank {mbc : Mbc5} (follows : mbc.Follows history) :
    mbc.romBank.toNat = Kind.mbc5.upperBank history := by
  rw [Kind.upperBank, follows.rom, toNat_nineBits]

/-- The bank that the half around an address shows. -/
def Controller.Kind.bankAt (kind : Kind) (history : List Access) (address : UInt16) : Nat :=
  if address < 0x4000 then kind.lowerBank history else kind.upperBank history

namespace Controller

variable {kind : Kind} {controller : Controller}

theorem Follows.romCell (follows : Follows history kind controller) (banked : kind ≠ .fixed)
    (size : Nat) (address : UInt16) :
    controller.romCell size address =
      kind.bankAt history address % max 1 (size / 0x4000) * 0x4000 + address.toNat % 0x4000 := by
  have offset : (address &&& 0x3fff).toNat = address.toNat % 0x4000 :=
    word_toNat_and_mask address 14 rfl
  cases follows with
  | fixed => exact absurd rfl banked
  | mbc1 registers =>
    rw [Controller.romCell, registers.lowerBank, registers.upperBank, offset]
    rfl
  | mbc3 registers =>
    rw [Controller.romCell, registers.upperBank, offset]
    rfl
  | mbc5 registers =>
    rw [Controller.romCell, registers.upperBank, offset]
    rfl

/-- The rule that takes zero as one keeps bank 0 out of the upper half, except on MBC5. -/
theorem Kind.upperBank_pos (kind : Kind) (history : List Access) (rule : kind ≠ .mbc5) :
    0 < kind.upperBank history := by
  cases kind <;> simp only [Kind.upperBank] <;> first | omega | exact absurd rfl rule

end Controller

/-! ## Reading the image -/

/-- After any history of a banked board, the ROM window shows the image at the bank that the
commands so far have selected, counted around to the banks that the image has, and ones past its
end. An image without a whole bank counts as one. Before it is counted around, the bank of the upper
half is never 0 on MBC1 and MBC3. -/
theorem read_image (kind : Kind) (banked : kind ≠ .fixed) (rom ram : Bytes)
    (history : List Access) {address : UInt16} (window : address < 0x8000) :
    let bank := kind.bankAt history address % max 1 (rom.size / 0x4000)
    ((kind.board rom ram).after history).read address =
        rom.getD (bank * 0x4000 + address.toNat % 0x4000) 0xff ∧
      (kind = .mbc1 ∨ kind = .mbc3 → 0 < kind.upperBank history) := by
  intro bank
  have follows := follows_after kind rom ram history
  obtain ⟨image, _⟩ := (kind.board rom ram).fixed_after history
  refine ⟨?read, ?zero⟩
  case read =>
    rw [Board.read, if_pos window, follows.romCell banked, image]
    rfl
  case zero =>
    rintro (rfl | rfl)
    · exact Kind.upperBank_pos .mbc1 history (by decide)
    · exact Kind.upperBank_pos .mbc3 history (by decide)

/-- Bank 33 of an image of five bytes: zero is taken as one in the low part of the bank only, and
the image counts as one bank. -/
theorem read_image_short :
    let history := [.control 0x3fff 0x00, .store 0xa000 0x2a, .control 0x4000 0x05]
    let board := (Kind.mbc1.board #[1, 2, 3, 4, 5] #[]).after history
    Kind.mbc1.bankAt history 0x4003 = 33 ∧ board.read 0x4003 = 4 ∧ board.read 0x4005 = 0xff := by
  intro history board
  have banked : Kind.mbc1 ≠ .fixed := by decide
  obtain ⟨inside, _⟩ := read_image .mbc1 banked #[1, 2, 3, 4, 5] #[] history
    (by decide : (0x4003 : UInt16) < 0x8000)
  obtain ⟨past, _⟩ := read_image .mbc1 banked #[1, 2, 3, 4, 5] #[] history
    (by decide : (0x4005 : UInt16) < 0x8000)
  exact ⟨by decide, inside.trans (by decide), past.trans (by decide)⟩

end Handheld
