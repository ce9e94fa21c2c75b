import Handheld.Bus

/-!
# Devices with registers of their own

Cartridge, keys, timer, interrupts and the speed switch keep their state beside the memories and the
I/O page. Much of what happens to a bus happens to them alone: it depends on nothing else but the
mode of the machine, and leaves everything else as it was.
-/
namespace Handheld

/-- The state of the devices, apart from the memories and the page of ports. -/
structure Devices where
  cartridge : Cartridge
  joypad : Joypad
  doubleSpeed : Bool
  speedArmed : Bool
  timer : Timer
  interrupts : Interrupts

namespace Bus

/-- The devices of a bus. -/
def devices (bus : Bus) : Devices where
  cartridge := bus.cartridge
  joypad := bus.joypad
  doubleSpeed := bus.doubleSpeed
  speedArmed := bus.speedArmed
  timer := bus.timer
  interrupts := bus.interrupts

/-- The bus with other devices. -/
def setDevices (bus : Bus) (devices : Devices) : Bus :=
  { bus with
    cartridge := devices.cartridge
    joypad := devices.joypad
    doubleSpeed := devices.doubleSpeed
    speedArmed := devices.speedArmed
    timer := devices.timer
    interrupts := devices.interrupts }

/-- An operation on the devices alone. -/
def OnDevices (operation : Bus → Bus) : Prop :=
  ∃ change : Bool → Devices → Devices,
    ∀ bus, operation bus = bus.setDevices (change bus.color bus.devices)

theorem onDevices_tick (clocks : Nat) : OnDevices fun bus => bus.tick clocks := by
  refine ⟨fun _ devices =>
    let (overflowed, timer) := devices.timer.tick clocks
    { devices with
      timer
      interrupts :=
        if overflowed then devices.interrupts.request .timer else devices.interrupts },
    fun bus => ?_⟩
  rcases ticked : bus.timer.tick clocks with ⟨overflowed, timer⟩
  cases overflowed <;> simp [tick, setDevices, devices, ticked]

theorem onDevices_press (key : Key) : OnDevices fun bus => bus.press key := by
  refine ⟨fun _ devices =>
    let (fresh, joypad) := devices.joypad.press key
    { devices with
      joypad
      interrupts := if fresh then devices.interrupts.request .joypad else devices.interrupts },
    fun bus => ?_⟩
  rcases pressed : bus.joypad.press key with ⟨fresh, joypad⟩
  cases fresh <;> simp [press, setDevices, devices, pressed]

theorem onDevices_release (key : Key) : OnDevices fun bus => bus.release key :=
  ⟨fun _ devices => { devices with joypad := devices.joypad.release key }, fun _ => rfl⟩

theorem onDevices_loadRam (saved : Bytes) : OnDevices fun bus => bus.loadRam saved :=
  ⟨fun _ devices => { devices with cartridge := devices.cartridge.loadRam saved }, fun _ => rfl⟩

theorem onDevices_requestMask (mask : UInt8) : OnDevices fun bus => bus.requestMask mask :=
  ⟨fun _ devices => { devices with interrupts := devices.interrupts.requestMask mask },
    fun _ => rfl⟩

theorem onDevices_acknowledge (source : Interrupt) :
    OnDevices fun bus => { bus with interrupts := bus.interrupts.acknowledge source } :=
  ⟨fun _ devices => { devices with interrupts := devices.interrupts.acknowledge source },
    fun _ => rfl⟩

/-- A switch of the speed also looks at the mode of the machine, which is why operations on devices
may depend on it. -/
theorem onDevices_switchSpeed : OnDevices fun bus => bus.switchSpeed.2 := by
  refine ⟨fun color devices =>
    if color && devices.speedArmed then
      { devices with
        speedArmed := false
        doubleSpeed := !devices.doubleSpeed
        timer := devices.timer.resetDivider }
    else devices, fun bus => ?_⟩
  cases prepared : bus.color && bus.speedArmed <;>
    simp [switchSpeed, setDevices, devices, prepared]

/-! Time, keys and the speed switch are no matter of the cartridge. -/

theorem cartridge_tick (bus : Bus) (clocks : Nat) :
    (bus.tick clocks).cartridge = bus.cartridge := by
  unfold tick
  split <;> rfl

theorem cartridge_press (bus : Bus) (key : Key) : (bus.press key).cartridge = bus.cartridge := by
  unfold press
  split <;> rfl

theorem cartridge_switchSpeed (bus : Bus) : bus.switchSpeed.2.cartridge = bus.cartridge := by
  unfold switchSpeed
  split <;> rfl

/-- Whether a switch of the speed was prepared is up to the devices too. -/
theorem switched_eq (bus : Bus) : bus.switchSpeed.1 = (bus.color && bus.devices.speedArmed) := by
  unfold switchSpeed
  cases prepared : bus.color && bus.speedArmed <;> exact prepared.symm

end Bus

end Handheld
