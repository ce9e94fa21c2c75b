import Handheld.Proofs.Bus.Devices
import Handheld.Proofs.Bus.Selection
import Handheld.Proofs.Lcd.Frame
import Handheld.Proofs.Strict.Rig

/-!
# Everything that can happen to a rig

A host may ask a rig for its operations, request interrupts and set the processor as it likes.
Whatever happens, the bus changes in five ways only: a byte is stored, a cell of the I/O page is
set, a line's block is copied, devices with registers of their own move on, or the RAM of the
cartridge is filled. `Bus.Kept` names what an invariant of the bus owes for these five, and then
everything keeps it.
-/
namespace Handheld

namespace Rig

/-- What a host may do to a rig. Its requests and its changes of the processor need not come from
any operation. -/
inductive Event where
  | operate (operation : Operation)
  | request (mask : UInt8)
  | setProcessor (cpu : Processor)

/-- The rig after an event. What the event answers is told apart, by `answer?`. -/
def handle (rig : Rig) : Event → Rig
  | .operate operation => rig.perform operation
  | .request mask => rig.setBus (rig.machine.bus.requestMask mask)
  | .setProcessor cpu => { rig with machine := { rig.machine with cpu } }

/-- The rig after a list of events, in their order. -/
def handleAll (rig : Rig) (events : List Event) : Rig := events.foldl handle rig

end Rig

namespace Bus

/-- An invariant that everything keeps that can happen to a bus. The fields are the five changes;
all operations of the processor, the LCD and a host are made of these. -/
structure Kept (invariant : Bus → Prop) : Prop where
  write (bus : Bus) (address : UInt16) (value : UInt8) (holds : invariant bus) :
    invariant (bus.write address value)
  setIo (bus : Bus) (cell : Nat) (value : UInt8) (holds : invariant bus) :
    invariant (bus.setIo cell value)
  copyLineBlock (bus : Bus) (holds : invariant bus) : invariant bus.copyLineBlock
  setDevices (bus : Bus) (devices : Devices) (same : devices.cartridge = bus.cartridge)
    (holds : invariant bus) : invariant (bus.setDevices devices)
  loadRam (bus : Bus) (saved : Bytes) (holds : invariant bus) : invariant (bus.loadRam saved)

namespace Kept

variable {invariant : Bus → Prop} (kept : Kept invariant)
include kept

/-! ## Stores and devices -/

theorem stores (bus : Bus) (bytes : List (UInt16 × UInt8)) (holds : invariant bus) :
    invariant (bus.stores bytes) :=
  stores_induction bytes (fun bus byte _ => kept.write bus byte.1 byte.2) bus holds

/-- Power-on stores its bytes and sets one cell, so that an invariant need only hold of blank
memory. -/
theorem powerOn (cartridge : Cartridge) (color : Bool) (blank : invariant { cartridge, color }) :
    invariant (powerOn cartridge color) :=
  kept.setIo _ _ _ (kept.stores _ startupWrites blank)

theorem writeAll (bus : Bus) (address : UInt16) (values : List UInt8) (holds : invariant bus) :
    invariant (bus.writeAll address values) := by
  induction values generalizing bus address with
  | nil => exact holds
  | cons value rest ih => exact ih _ _ (kept.write bus address value holds)

theorem storeIo (bus : Bus) (address : UInt16) (value : UInt8) (holds : invariant bus) :
    invariant (bus.storeIo address value) := by
  unfold Bus.storeIo
  split
  · exact kept.setIo bus _ value holds
  · exact holds

/-- The devices apart, the operation must leave the cartridge; the memory it cannot reach. -/
theorem onDevices {operation : Bus → Bus} (alone : OnDevices operation) (bus : Bus)
    (same : (operation bus).cartridge = bus.cartridge) (holds : invariant bus) :
    invariant (operation bus) := by
  obtain ⟨change, changed⟩ := alone
  rw [changed] at same ⊢
  exact kept.setDevices bus _ same holds

/-- A tick moves the timer and its request. Like the four lemmas that follow, it is an operation of
the devices. -/
theorem tick (bus : Bus) (clocks : Nat) (holds : invariant bus) : invariant (bus.tick clocks) :=
  kept.onDevices (onDevices_tick clocks) bus (bus.cartridge_tick clocks) holds

theorem press (bus : Bus) (key : Key) (holds : invariant bus) : invariant (bus.press key) :=
  kept.onDevices (onDevices_press key) bus (bus.cartridge_press key) holds

theorem release (bus : Bus) (key : Key) (holds : invariant bus) : invariant (bus.release key) :=
  kept.onDevices (onDevices_release key) bus rfl holds

theorem requestMask (bus : Bus) (mask : UInt8) (holds : invariant bus) :
    invariant (bus.requestMask mask) :=
  kept.onDevices (onDevices_requestMask mask) bus rfl holds

theorem switchSpeed (bus : Bus) (holds : invariant bus) : invariant bus.switchSpeed.2 :=
  kept.onDevices onDevices_switchSpeed bus bus.cartridge_switchSpeed holds

/-! ## The processor -/

/-- An instruction reaches the bus through its stores and the switch of the speed. -/
theorem step (machine : Machine) (holds : invariant machine.bus) :
    invariant machine.step.2.bus := by
  obtain ⟨_, switched⟩ | stored := machine.bus_step
  · rw [switched]
    exact kept.switchSpeed _ holds
  · rw [stored]
    exact kept.stores _ _ holds

theorem service (machine : Machine) (holds : invariant machine.bus) :
    invariant machine.service.2.bus := by
  obtain ⟨_, same, _⟩ | ⟨source, _, _, _, _, entered⟩ := machine.service_cases
  · rw [same]
    exact holds
  · rw [entered]
    exact kept.stores _ _ (kept.onDevices (onDevices_acknowledge source) _ rfl holds)

/-! ## The LCD -/

theorem showLine (lcd : Lcd) (bus : Bus) (holds : invariant bus) :
    invariant (lcd.showLine bus).bus := by
  have shown := kept.setIo bus Bus.line (UInt8.ofNat lcd.line) holds
  unfold Lcd.showLine
  dsimp only
  split <;> exact kept.setIo _ _ _ shown

theorem nextLine (lcd : Lcd) (bus : Bus) (holds : invariant bus) :
    invariant (lcd.nextLine bus).bus := by
  unfold Lcd.nextLine
  dsimp only
  split <;> exact kept.showLine _ bus holds

theorem showMode (lcd : Lcd) (bus : Bus) (holds : invariant bus) :
    invariant (lcd.showMode bus).bus := by
  unfold Lcd.showMode
  dsimp only
  split
  · exact holds
  · refine kept.setIo _ _ _ ?_
    split
    · exact kept.copyLineBlock bus holds
    · exact holds

theorem move (lcd : Lcd) (clocks : Nat) (bus : Bus) (holds : invariant bus) :
    invariant (lcd.move clocks bus).bus := by
  unfold Lcd.move
  dsimp only
  split
  · exact kept.showMode _ _ (kept.nextLine _ bus holds)
  · exact kept.showMode _ bus holds

theorem run (lcd : Lcd) (clocks : Nat) (bus : Bus) (requests : UInt8) (holds : invariant bus) :
    invariant (lcd.run clocks bus requests).bus := by
  fun_induction Lcd.run lcd clocks bus requests with
  | case1 lcd clocks bus requests _ part moved ih => exact ih (kept.move lcd part bus holds)
  | case2 lcd clocks bus requests => exact holds

/-- On or off, the unit does no more to the bus than `Kept` names. -/
theorem lcdStep (lcd : Lcd) (clocks : Nat) (bus : Bus) (holds : invariant bus) :
    invariant (lcd.step clocks bus).bus := by
  unfold Lcd.step
  split
  · exact kept.setIo _ _ _ (kept.setIo bus _ _ holds)
  · exact kept.run lcd clocks bus 0 holds

/-! ## Events -/

theorem perform (rig : Rig) (operation : Rig.Operation) (holds : invariant rig.machine.bus) :
    invariant (rig.perform operation).machine.bus := by
  cases operation <;> dsimp only [Rig.perform, Rig.setBus, Rig.setVideo]
  case step => exact kept.step rig.machine holds
  case service => exact kept.service rig.machine holds
  case read | readWord => exact holds
  case write address value => exact kept.write _ address value holds
  case writeWord address value => exact kept.write _ _ _ (kept.write _ address _ holds)
  case writeAll address values => exact kept.writeAll _ address values holds
  case storeIo address value => exact kept.storeIo _ address value holds
  case tick clocks => exact kept.tick _ clocks holds
  case copyLineBlock => exact kept.copyLineBlock _ holds
  case switchSpeed => exact kept.switchSpeed _ holds
  case press key => exact kept.press _ key holds
  case release key => exact kept.release _ key holds
  case loadRam saved => exact kept.loadRam _ saved holds
  case video clocks => exact kept.lcdStep rig.lcd clocks _ holds

theorem handle (rig : Rig) (event : Rig.Event) (holds : invariant rig.machine.bus) :
    invariant (rig.handle event).machine.bus := by
  cases event with
  | operate operation => exact kept.perform rig operation holds
  | request mask => exact kept.requestMask _ mask holds
  | setProcessor cpu => exact holds

/-- What holds of a blank bus holds of every bus that is reached from power-on. -/
theorem handleAll (rig : Rig) (events : List Rig.Event) (holds : invariant rig.machine.bus) :
    invariant (rig.handleAll events).machine.bus := by
  induction events generalizing rig with
  | nil => exact holds
  | cons event rest ih => exact ih _ (kept.handle rig event holds)

end Kept

/-! ## The selection -/

/-- On a monochrome machine no store moves a bank or starts a copy; on a colour machine the
selections stay in range. -/
theorem kept_fits (color : Bool) : Kept fun bus => bus.selection.Fits color where
  write bus address value fits := by
    rw [selection_write]
    exact fits.store address value
  setIo _ _ _ fits := fits
  copyLineBlock bus fits := by
    obtain same | ⟨_, released⟩ := bus.selection_copyLineBlock
    · rw [same]
      exact fits
    · rw [released]
      exact fits.release
  setDevices _ _ _ fits := fits
  loadRam _ _ fits := fits

end Bus

namespace Rig

theorem fits_powerOn (cartridge : Cartridge) (color : Bool) :
    (powerOn cartridge color).machine.bus.selection.Fits color :=
  (Bus.kept_fits color).powerOn cartridge color
    ⟨rfl, (by decide : (0 : UInt8) ≤ 1), (by decide : (1 : UInt8) ≤ 1 ∧ (1 : UInt8) ≤ 7),
      fun _ => ⟨rfl, rfl, rfl⟩⟩

theorem fits_handleAll (cartridge : Cartridge) (color : Bool) (events : List Event) :
    ((powerOn cartridge color).handleAll events).machine.bus.selection.Fits color :=
  (Bus.kept_fits color).handleAll _ events (fits_powerOn cartridge color)

end Rig

end Handheld
