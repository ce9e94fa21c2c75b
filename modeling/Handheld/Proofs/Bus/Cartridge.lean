import Handheld.Proofs.Bus.Actions
import Handheld.Proofs.Cartridge.Make
import Handheld.Proofs.Rig.Events

/-!
# The cartridge on the bus

Of all that happens to a bus only stores into the two windows of the cartridge reach it: one is a
command to its controller, the other a store to its RAM. It stays of the same make, and power-on
does not touch it at all.
-/
namespace Handheld.Bus

variable (bus : Bus) (address : UInt16) (value : UInt8)

theorem cartridge_writeIo : (bus.writeIo address value).cartridge = bus.cartridge := by
  by_cases serial : address = 0xff02
  · subst serial
    obtain ⟨io, sent, interrupts, shifted⟩ := (bus.setIo serialControl value).sendSerial_frame
    have stored : bus.writeIo 0xff02 value =
        if value &&& 0x81 = 0x81 then (bus.setIo serialControl value).sendSerial
        else bus.setIo serialControl value := rfl
    rw [stored, shifted]
    split <;> rfl
  · obtain ⟨_, _, _, _, _, _, _, _, _, _, _, _, _, stored⟩ := bus.writeIo_frame value serial
    rw [stored]

/-- What a store does to the cartridge. -/
theorem cartridge_write :
    (bus.write address value).cartridge =
      match Region.ofAddress address with
      | .rom => bus.cartridge.perform (.access (.control address value))
      | .cartridgeRam => bus.cartridge.perform (.access (.store address value))
      | _ => bus.cartridge := by
  unfold write
  cases Region.ofAddress address <;> dsimp only
  case io => exact bus.cartridge_writeIo address value
  all_goals rfl

theorem make_write : (bus.write address value).cartridge.make = bus.cartridge.make := by
  rw [cartridge_write]
  split
  · exact bus.cartridge.make_perform _
  · exact bus.cartridge.make_perform _
  · rfl

/-- The cartridge stays what it is, whatever runs on it. -/
theorem kept_make (make : Cartridge.Make) : Kept fun bus => bus.cartridge.make = make where
  write bus address value same := (bus.make_write address value).trans same
  setIo _ _ _ same := same
  copyLineBlock bus same := by
    obtain ⟨videoRam, io, copyActive, copied⟩ := bus.copyLineBlock_frame
    rw [copied]
    exact same
  setDevices bus devices same holds := (congrArg Cartridge.make same).trans holds
  loadRam bus saved same := (bus.cartridge.make_loadRam saved).trans same

/-- The start-up program leaves the cartridge alone. -/
theorem cartridge_powerOn (cartridge : Cartridge) (color : Bool) :
    (powerOn cartridge color).cartridge = cartridge := by
  have elsewhere : startupWrites.all fun byte =>
      Region.ofAddress byte.1 ≠ .rom ∧ Region.ofAddress byte.1 ≠ .cartridgeRam := by
    decide
  obtain ⟨started, same, on⟩ := powerOn_induction (motive := fun bus => bus.cartridge = cartridge)
    cartridge color rfl fun bus byte member same => by
      obtain ⟨rom, ram⟩ := of_decide_eq_true (List.all_eq_true.mp elsewhere byte member)
      rw [cartridge_write]
      split
      · exact absurd ‹_› rom
      · exact absurd ‹_› ram
      · exact same
  rw [on]
  exact same

end Handheld.Bus
