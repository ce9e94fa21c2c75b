import Handheld.Proofs.Cartridge.Program
import Handheld.Proofs.Strict.Execute
import Handheld.Proofs.Strict.Lcd

/-!
# A machine and its LCD, in any order of operations

A rig is a machine with the LCD timing beside it and nobody to decide what happens next: the
operations of both may be asked for in any order, with any addresses, bytes and clock counts. Two
readings of each operation stand side by side: `perform` answers always, `perform?` refuses what
leaves a range. `run_in_range` says that from power-on the two agree, whatever cartridge was loaded.
The two exceptions are counters that only the caller can keep in range: the clocks given to the
timer at once, and the number of pictures.
-/
namespace Handheld

/-- A machine and the LCD timing beside it. Nothing ties the clocks of the one to those of the
other. -/
structure Rig where
  machine : Machine
  lcd : Lcd := {}

namespace Rig

/-- What may be asked of a rig: the operations of the machine, of its bus and of the LCD, each with
any argument. -/
inductive Operation where
  | step
  | service
  | read (address : UInt16)
  | readWord (address : UInt16)
  | write (address : UInt16) (value : UInt8)
  | writeWord (address : UInt16) (value : UInt16)
  | writeAll (address : UInt16) (values : List UInt8)
  | storeIo (address : UInt16) (value : UInt8)
  | tick (clocks : Nat)
  | copyLineBlock
  | switchSpeed
  | press (key : Key)
  | release (key : Key)
  | loadRam (saved : Bytes)
  | video (clocks : Nat)

def setBus (rig : Rig) (bus : Bus) : Rig := { rig with machine := { rig.machine with bus } }

/-- The rig after a step of the LCD, which may have changed memory. -/
def setVideo (rig : Rig) (stepped : VideoStep Lcd) : Rig :=
  { machine := { rig.machine with bus := stepped.bus }, lcd := stepped.unit }

/-- The operation with its own arithmetic, which answers always. What it requests or reads is left
out. -/
def perform (rig : Rig) : Operation → Rig
  | .step => { rig with machine := rig.machine.step.2 }
  | .service => { rig with machine := rig.machine.service.2 }
  | .read _ | .readWord _ => rig
  | .write address value => rig.setBus (rig.machine.bus.write address value)
  | .writeWord address value => rig.setBus (rig.machine.bus.writeWord address value)
  | .writeAll address values => rig.setBus (rig.machine.bus.writeAll address values)
  | .storeIo address value => rig.setBus (rig.machine.bus.storeIo address value)
  | .tick clocks => rig.setBus (rig.machine.bus.tick clocks)
  | .copyLineBlock => rig.setBus rig.machine.bus.copyLineBlock
  | .switchSpeed => rig.setBus rig.machine.bus.switchSpeed.2
  | .press key => rig.setBus (rig.machine.bus.press key)
  | .release key => rig.setBus (rig.machine.bus.release key)
  | .loadRam saved => rig.setBus (rig.machine.bus.loadRam saved)
  | .video clocks => rig.setVideo (rig.lcd.step clocks rig.machine.bus)

/-- An operation that gives nothing if it leaves a range. Speed switches and keys cannot. -/
def perform? (rig : Rig) : Operation → Option Rig
  | .step => do
    let (_, machine) ← rig.machine.step?
    some { rig with machine }
  | .service => do
    let (_, machine) ← rig.machine.service?
    some { rig with machine }
  | .read address => do
    let _ ← rig.machine.bus.read? address
    some rig
  | .readWord address => do
    let _ ← rig.machine.bus.readWord? address
    some rig
  | .write address value => (rig.machine.bus.write? address value).map rig.setBus
  | .writeWord address value => (rig.machine.bus.writeWord? address value).map rig.setBus
  | .writeAll address values => (rig.machine.bus.writeAll? address values).map rig.setBus
  | .storeIo address value => (rig.machine.bus.storeIo? address value).map rig.setBus
  | .tick clocks => (rig.machine.bus.tick? clocks).map rig.setBus
  | .copyLineBlock => rig.machine.bus.copyLineBlock?.map rig.setBus
  | .loadRam saved => (rig.machine.bus.loadRam? saved).map rig.setBus
  | .video clocks => (rig.lcd.step? clocks rig.machine.bus).map rig.setVideo
  | .switchSpeed => some (rig.setBus rig.machine.bus.switchSpeed.2)
  | .press key => some (rig.setBus (rig.machine.bus.press key))
  | .release key => some (rig.setBus (rig.machine.bus.release key))

/-- The rig after a list of operations, in their order. -/
def after (rig : Rig) (operations : List Operation) : Rig := operations.foldl perform rig

/-- The list is refused if one of its operations is. -/
def after? (rig : Rig) : List Operation → Option Rig
  | [] => some rig
  | operation :: rest => do
    let rig ← rig.perform? operation
    rig.after? rest

def powerOn (cartridge : Cartridge) (color : Bool) : Rig := { machine := .powerOn cartridge color }

/-- Power-on stores in memory, and so may be refused in itself. -/
def powerOn? (cartridge : Cartridge) (color : Bool) : Option Rig := do
  let bus ← Bus.powerOn? cartridge color
  some { machine := ⟨.powerOn color, bus⟩ }

/-- Every register that selects a cell or counts clocks is in its range. It is the invariant of all
operations, and what each strict operation asks for. -/
structure Sound (rig : Rig) : Prop where
  bus : rig.machine.bus.Sound
  lcd : rig.lcd.Sound

/-! ## What an operation keeps -/

variable {rig : Rig}

theorem Sound.setMachine (sound : rig.Sound) {machine : Machine} (bus : machine.bus.Sound) :
    Sound { rig with machine } := ⟨bus, sound.lcd⟩

/-- The step of the invariant. No hypothesis about clocks or pictures is needed for it: a counter
may grow too large, but it selects nothing. -/
theorem Sound.perform (sound : rig.Sound) (operation : Operation) :
    (rig.perform operation).Sound := by
  have bus := sound.bus
  have lcd := sound.lcd
  cases operation <;> dsimp only [Rig.perform, setBus, setVideo]
  case step => exact sound.setMachine bus.step
  case service => exact sound.setMachine bus.service
  case read | readWord => exact ⟨bus, lcd⟩
  case write address value => exact ⟨bus.write address value, lcd⟩
  case writeWord address value => exact ⟨(bus.write _ _).write _ _, lcd⟩
  case writeAll address values => exact ⟨bus.writeAll address values, lcd⟩
  case storeIo address value => exact ⟨bus.storeIo address value, lcd⟩
  case tick clocks => exact ⟨bus.tick clocks, lcd⟩
  case copyLineBlock => exact ⟨bus.copyLineBlock, lcd⟩
  case switchSpeed => exact ⟨bus.switchSpeed, lcd⟩
  case press key => exact ⟨bus.press key, lcd⟩
  case release key => exact ⟨bus.of_same rfl, lcd⟩
  case loadRam saved => exact ⟨bus.of_same rfl, lcd⟩
  case video clocks => exact ⟨lcd.bus_step clocks bus, lcd.step clocks _⟩

theorem Sound.after (sound : rig.Sound) (operations : List Operation) :
    (rig.after operations).Sound := by
  induction operations generalizing rig with
  | nil => exact sound
  | cons operation rest ih => exact ih (sound.perform operation)

/-- Pictures are counted up only, so that a bound at the end of a run holds all along it. -/
theorem frames_perform (sound : rig.Sound) (operation : Operation) :
    rig.lcd.frames ≤ (rig.perform operation).lcd.frames := by
  cases operation with
  | video clocks => exact sound.lcd.frames_step clocks _
  | _ => exact Nat.le_refl _

/-- Pictures are never uncounted. -/
theorem frames_after (sound : rig.Sound) (operations : List Operation) :
    rig.lcd.frames ≤ (rig.after operations).lcd.frames := by
  induction operations generalizing rig with
  | nil => exact Nat.le_refl _
  | cons operation rest ih =>
    exact Nat.le_trans (frames_perform sound operation) (ih (sound.perform operation))

/-! ## The strict operations succeed -/

theorem perform?_eq (sound : rig.Sound) (operation : Operation)
    (tick : ∀ clocks, operation = .tick clocks → rig.machine.bus.timer.enabled = true →
      rig.machine.bus.timer.elapsed + clocks < 2 ^ 32)
    (frames : (rig.perform operation).lcd.frames < 2 ^ 64) :
    rig.perform? operation = some (rig.perform operation) := by
  have bus := sound.bus
  cases operation with
  | step =>
    simp only [perform?, Machine.step?_eq bus, Option.bind_eq_bind, Option.bind_some]
    rfl
  | service =>
    simp only [perform?, Machine.service?_eq bus, Option.bind_eq_bind, Option.bind_some]
    rfl
  | read address =>
    simp only [perform?, Bus.read?_eq bus, Option.bind_eq_bind, Option.bind_some]
    rfl
  | readWord address =>
    simp only [perform?, Bus.readWord?_eq bus, Option.bind_eq_bind, Option.bind_some]
    rfl
  | write address value =>
    rw [perform?, Bus.write?_eq bus]
    rfl
  | writeWord address value =>
    rw [perform?, Bus.writeWord?_eq bus]
    rfl
  | writeAll address values =>
    rw [perform?, Bus.writeAll?_eq bus]
    rfl
  | storeIo address value =>
    rw [perform?, Bus.storeIo?_eq]
    rfl
  | tick clocks =>
    rw [perform?, Bus.tick?_eq (tick clocks rfl)]
    rfl
  | copyLineBlock =>
    rw [perform?, Bus.copyLineBlock?_eq bus]
    rfl
  | loadRam saved =>
    rw [perform?, Bus.loadRam?_eq]
    rfl
  | video clocks =>
    rw [perform?, sound.lcd.step?_eq bus clocks frames]
    rfl
  | switchSpeed | press key | release key => rfl

/-- A run needs its hypothesis about ticks at each of them, in the state that the run before it has
left. -/
theorem after?_eq (sound : rig.Sound) (operations : List Operation)
    (ticks : ∀ before clocks later, operations = before ++ .tick clocks :: later →
      (rig.after before).machine.bus.timer.enabled = true →
        (rig.after before).machine.bus.timer.elapsed + clocks < 2 ^ 32)
    (frames : (rig.after operations).lcd.frames < 2 ^ 64) :
    rig.after? operations = some (rig.after operations) := by
  induction operations generalizing rig with
  | nil => rfl
  | cons operation rest ih =>
    have kept := sound.perform operation
    have tick : ∀ clocks, operation = .tick clocks → rig.machine.bus.timer.enabled = true →
        rig.machine.bus.timer.elapsed + clocks < 2 ^ 32 := by
      intro clocks same
      exact ticks [] clocks rest (by rw [same]; rfl)
    have counted : (rig.perform operation).lcd.frames < 2 ^ 64 :=
      Nat.lt_of_le_of_lt (frames_after kept rest) frames
    have later := ih kept
      (fun before clocks later split => ticks (operation :: before) clocks later (by simp [split]))
      frames
    simp only [after?, perform?_eq sound operation tick counted, Option.bind_eq_bind,
      Option.bind_some, later]
    rfl

/-- Any image that loads gives a controller within its ranges, and power-on keeps them. -/
theorem powerOn?_eq {image : Bytes} {cartridge : Cartridge}
    (loaded : Cartridge.load image = .ok cartridge) (color : Bool) :
    powerOn? cartridge color = some (powerOn cartridge color) ∧
      (powerOn cartridge color).Sound := by
  obtain ⟨_, controller⟩ := Cartridge.of_load loaded
  obtain ⟨started, sound⟩ := Bus.powerOn?_eq color controller
  refine ⟨?_, sound, ⟨(by decide : 0 < Lcd.lineClocks), (by decide : 0 < Lcd.lines)⟩⟩
  simp only [powerOn?, started, Option.bind_eq_bind, Option.bind_some]
  rfl

/-- From power-on with any cartridge that loads, no sequence of operations looks up a cell that is
not there or makes a sum or difference that does not fit, as long as each tick of a running timer
fits its 32 bits and the pictures are fewer than 64 bits can count. The header of the image is read
in range as well. Every state on the way is sound, whatever was asked for before; this last part
needs neither of the two bounds. -/
theorem run_in_range {image : Bytes} {cartridge : Cartridge}
    (loaded : Cartridge.load image = .ok cartridge) (color : Bool) (operations : List Operation)
    (ticks : ∀ before clocks later, operations = before ++ .tick clocks :: later →
      let timer := ((powerOn cartridge color).after before).machine.bus.timer
      timer.enabled = true → timer.elapsed + clocks < 2 ^ 32)
    (frames : ((powerOn cartridge color).after operations).lcd.frames < 2 ^ 64) :
    Header.inspect? image = some cartridge.header ∧
      (powerOn? cartridge color >>= fun rig => rig.after? operations) =
        some ((powerOn cartridge color).after operations) ∧
      ∀ before later, operations = before ++ later →
        ((powerOn cartridge color).after before).Sound := by
  obtain ⟨header, _⟩ := Cartridge.of_load loaded
  obtain ⟨started, sound⟩ := powerOn?_eq loaded color
  have ran := after?_eq sound operations ticks frames
  refine ⟨Header.inspect?_eq header, ?_, fun before _ _ => sound.after before⟩
  rw [started, Option.bind_eq_bind, Option.bind_some, ran]

/-- The smallest image that loads: a header that names a fixed board without RAM. -/
def leastImage : Bytes := Cartridge.programImage #[] #[]

/-- The cartridge that `leastImage` loads as. -/
def leastCartridge : Cartridge := .ofProgram #[] #[]

/-- The timer is started with its counter full. The tick that follows makes it overflow, with clocks
left over, and from then on it runs on. -/
def timerRun : List Operation :=
  [.write 0xff05 0xff, .write 0xff07 0x05, .tick 20, .step, .video 4]

/-- The hypothesis about ticks of a running timer is met where the one tick is: the timer is on, has
counted nothing, and is given four clocks more than a period. -/
theorem run_in_range_leastImage :
    let started := (powerOn leastCartridge false).after [.write 0xff05 0xff, .write 0xff07 0x05]
    let ticked := started.perform (.tick 20)
    Cartridge.load leastImage = .ok leastCartridge ∧ started.machine.bus.timer.enabled = true ∧
      (ticked.machine.bus.interrupts.flags &&& 0x04 = 0x04 ∧
        ticked.machine.bus.timer.elapsed = 4) ∧
      (powerOn? leastCartridge false >>= fun rig => rig.after? timerRun) =
        some ((powerOn leastCartridge false).after timerRun) := by
  intro started ticked
  have loaded : Cartridge.load leastImage = .ok leastCartridge :=
    Cartridge.load_ofProgram (by decide) (by decide)
  have runs : started.machine.bus.timer.enabled = true ∧
      started.machine.bus.timer.elapsed = 0 ∧
      ticked.machine.bus.interrupts.flags &&& 0x04 = 0x04 ∧
      ticked.machine.bus.timer.elapsed = 4 := by
    decide +kernel
  obtain ⟨enabled, fresh, overflows⟩ := runs
  refine ⟨loaded, enabled, overflows,
    (run_in_range loaded false timerRun ?_ (by decide +kernel)).2.1⟩
  intro before clocks later split timer _
  rcases before with _ | ⟨first, _ | ⟨second, _ | ⟨third, rest⟩⟩⟩
  · cases split
  · cases split
  · cases split
    have same : timer.elapsed = 0 := fresh
    rw [same]
    decide
  · have behind : Operation.tick clocks ∈ [Operation.step, .video 4] := by
      rw [(List.cons.inj (List.cons.inj (List.cons.inj split).2).2).2]
      simp
    simp at behind

end Rig

end Handheld
