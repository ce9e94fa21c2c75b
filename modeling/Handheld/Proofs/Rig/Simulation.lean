import Handheld.Proofs.Machine.Simulation
import Handheld.Proofs.Rig.Events

/-!
# Rigs that nothing can tell apart

What a simulation does for a machine it does for a whole rig: the LCD looks at the bus through
cells that can be read, and a host only asks for operations. Rigs with the same processor and LCD
on related buses give the same answers for ever.
-/
namespace Handheld

/-- The same outcome for the unit, on related buses. -/
structure VideoStep.Related (related : Bus → Bus → Prop) (left right : VideoStep Lcd) : Prop where
  unit : left.unit = right.unit
  requests : left.requests = right.requests
  bus : related left.bus right.bus

theorem VideoStep.Related.ask {related : Bus → Bus → Prop} {left right : VideoStep Lcd}
    (same : Related related left right) (more : UInt8) :
    Related related { left with requests := more ||| left.requests }
      { right with requests := more ||| right.requests } :=
  ⟨same.unit, congrArg (more ||| ·) same.requests, same.bus⟩

namespace Bus.Simulation

variable {related : Bus → Bus → Prop} (simulation : Simulation related)
include simulation

/-! ## The LCD -/

/-- The LCD looks at three cells of the I/O page, and all three can be read at their ports. -/
theorem lcd_cells {left right : Bus} (same : related left right) :
    left.io.read lcdControl = right.io.read lcdControl ∧
      left.io.read lcdStatus = right.io.read lcdStatus ∧
      left.io.read lineCompare = right.io.read lineCompare :=
  ⟨simulation.read same 0xff40, simulation.read same 0xff41, simulation.read same 0xff45⟩

section Lcds

variable {left right : Bus} (same : related left right)
include same

/-- The comparison of the line looks at a cell that both sides read alike. -/
theorem showLine (lcd : Lcd) : (lcd.showLine left).Related related (lcd.showLine right) := by
  have shown := simulation.setIo same line (UInt8.ofNat lcd.line)
  obtain ⟨_, status, compared⟩ := simulation.lcd_cells shown
  unfold Lcd.showLine
  dsimp only
  rw [status, compared]
  split
  · exact ⟨rfl, rfl, simulation.setIo shown _ _⟩
  · exact ⟨rfl, rfl, simulation.setIo shown _ _⟩

theorem nextLine (lcd : Lcd) : (lcd.nextLine left).Related related (lcd.nextLine right) := by
  unfold Lcd.nextLine
  dsimp only
  split
  · exact (simulation.showLine same _).ask Interrupt.vblank.bit
  · exact simulation.showLine same _

/-- An active copy moves its block on both sides, which the simulation allows for. -/
theorem showMode (lcd : Lcd) : (lcd.showMode left).Related related (lcd.showMode right) := by
  have copied : related (if lcd.modeAt = .hblank then left.copyLineBlock else left)
      (if lcd.modeAt = .hblank then right.copyLineBlock else right) := by
    split
    · exact simulation.copyLineBlock same
    · exact same
  obtain ⟨_, status, _⟩ := simulation.lcd_cells copied
  unfold Lcd.showMode
  dsimp only
  split
  · exact ⟨rfl, rfl, same⟩
  · rw [status]
    exact ⟨rfl, rfl, simulation.setIo copied _ _⟩

/-- The unit goes by its clock alone, so that it begins the same line or mode on both sides. -/
theorem move (lcd : Lcd) (clocks : Nat) :
    (lcd.move clocks left).Related related (lcd.move clocks right) := by
  unfold Lcd.move
  dsimp only
  split
  · obtain ⟨unit, requests, bus⟩ :=
      simulation.nextLine same { lcd with clock := lcd.clock + clocks }
    rw [unit, requests]
    exact (simulation.showMode bus _).ask _
  · exact simulation.showMode same _

/-- Part by part, over the recursion of the step itself: the parts are the same, as the units
are. -/
theorem run (lcd : Lcd) (clocks : Nat) (requests : UInt8) :
    (lcd.run clocks left requests).Related related (lcd.run clocks right requests) := by
  fun_induction Lcd.run lcd clocks left requests generalizing right with
  | case1 lcd clocks left requests more part moved =>
    rename_i ih
    obtain ⟨unit, asked, bus⟩ := simulation.move same lcd part
    have later := ih bus
    rw [Lcd.run.eq_def _ _ right, if_pos more]
    dsimp only
    rwa [unit, asked] at later ⊢
  | case2 lcd clocks left requests spent =>
    rw [Lcd.run.eq_def _ _ right, if_neg spent]
    exact ⟨rfl, rfl, same⟩

/-- Whether the unit is on is read from a cell that both sides have alike. -/
theorem lcdStep (lcd : Lcd) (clocks : Nat) :
    (lcd.step clocks left).Related related (lcd.step clocks right) := by
  obtain ⟨control, _, _⟩ := simulation.lcd_cells same
  unfold Lcd.step
  rw [control]
  split
  · have shown := simulation.setIo same line 0
    obtain ⟨_, status, _⟩ := simulation.lcd_cells shown
    unfold Lcd.park
    dsimp only
    rw [status]
    exact ⟨rfl, rfl, simulation.setIo shown _ _⟩
  · exact simulation.run same lcd clocks 0

end Lcds

end Bus.Simulation

/-! ## Rigs -/

namespace Rig

/-- What a rig gives back for an event. Most events give nothing; their effect shows in what later
ones give. -/
inductive Answer where
  | stepped (spent : Except UnassignedOpcode Nat)
  | served (spent : Option Nat)
  | byte (value : UInt8)
  | word (value : UInt16)
  | switched (changed : Bool)
  | requests (mask : UInt8)

/-- What the host is told of an event, before the rig moves on. -/
def answer? (rig : Rig) : Event → Option Answer
  | .operate .step => some (.stepped rig.machine.step.1)
  | .operate .service => some (.served rig.machine.service.1)
  | .operate (.read address) => some (.byte (rig.machine.bus.read address))
  | .operate (.readWord address) => some (.word (rig.machine.bus.readWord address))
  | .operate .switchSpeed => some (.switched rig.machine.bus.switchSpeed.1)
  | .operate (.video clocks) => some (.requests (rig.lcd.step clocks rig.machine.bus).requests)
  | _ => none

/-- What the host is told of a list of events. -/
def answers (rig : Rig) : List Event → List Answer
  | [] => []
  | event :: rest => (rig.answer? event).toList ++ (rig.handle event).answers rest

/-- The same processor and LCD on related buses. -/
structure Related (related : Bus → Bus → Prop) (left right : Rig) : Prop where
  machine : left.machine.Related related right.machine
  lcd : left.lcd = right.lcd

theorem Related.setMachine {related : Bus → Bus → Prop} {left right : Rig}
    (same : left.Related related right) {leftMachine rightMachine : Machine}
    (machine : leftMachine.Related related rightMachine) :
    Related related { left with machine := leftMachine } { right with machine := rightMachine } :=
  ⟨machine, same.lcd⟩

theorem Related.setBus {related : Bus → Bus → Prop} {left right : Rig}
    (same : left.Related related right) {leftBus rightBus : Bus} (bus : related leftBus rightBus) :
    (left.setBus leftBus).Related related (right.setBus rightBus) :=
  same.setMachine ⟨same.machine.cpu, bus⟩

end Rig

namespace Bus.Simulation

variable {related : Bus → Bus → Prop} (simulation : Simulation related)
include simulation

theorem writeAll {left right : Bus} (same : related left right) (address : UInt16)
    (values : List UInt8) :
    related (left.writeAll address values) (right.writeAll address values) := by
  induction values generalizing left right address with
  | nil => exact same
  | cons value rest ih => exact ih (simulation.write same address value) _

theorem storeIo {left right : Bus} (same : related left right) (address : UInt16) (value : UInt8) :
    related (left.storeIo address value) (right.storeIo address value) := by
  unfold Bus.storeIo
  split
  · exact simulation.setIo same _ value
  · exact same

variable {left right : Rig} (same : left.Related related right)
include same

theorem answer (event : Rig.Event) : left.answer? event = right.answer? event := by
  have bus := same.machine.bus
  cases event with
  | operate operation =>
    cases operation with
    | step => exact congrArg (some ∘ Rig.Answer.stepped) (simulation.step same.machine).1
    | service => exact congrArg (some ∘ Rig.Answer.served) (simulation.service same.machine).1
    | read address => exact congrArg (some ∘ Rig.Answer.byte) (simulation.read bus address)
    | readWord address => exact congrArg (some ∘ Rig.Answer.word) (simulation.readWord bus address)
    | switchSpeed => exact congrArg (some ∘ Rig.Answer.switched) (simulation.switched bus)
    | video clocks =>
      simp only [Rig.answer?, same.lcd, (simulation.lcdStep bus right.lcd clocks).requests]
    | _ => rfl
  | _ => rfl

theorem perform (operation : Rig.Operation) :
    (left.perform operation).Related related (right.perform operation) := by
  have bus := same.machine.bus
  cases operation <;> dsimp only [Rig.perform]
  case step => exact same.setMachine (simulation.step same.machine).2
  case service => exact same.setMachine (simulation.service same.machine).2
  case read | readWord => exact same
  case write address value => exact same.setBus (simulation.write bus address value)
  case writeWord address value =>
    exact same.setBus (simulation.write (simulation.write bus _ _) _ _)
  case writeAll address values => exact same.setBus (simulation.writeAll bus address values)
  case storeIo address value => exact same.setBus (simulation.storeIo bus address value)
  case tick clocks => exact same.setBus (simulation.onDevices (onDevices_tick clocks) bus)
  case copyLineBlock => exact same.setBus (simulation.copyLineBlock bus)
  case switchSpeed => exact same.setBus (simulation.onDevices onDevices_switchSpeed bus)
  case press key => exact same.setBus (simulation.onDevices (onDevices_press key) bus)
  case release key => exact same.setBus (simulation.onDevices (onDevices_release key) bus)
  case loadRam saved => exact same.setBus (simulation.onDevices (onDevices_loadRam saved) bus)
  case video clocks =>
    obtain ⟨unit, _, stepped⟩ := simulation.lcdStep bus right.lcd clocks
    rw [same.lcd]
    exact ⟨⟨same.machine.cpu, stepped⟩, unit⟩

theorem handle (event : Rig.Event) :
    (left.handle event).Related related (right.handle event) := by
  cases event with
  | operate operation => exact simulation.perform same operation
  | request mask =>
    exact same.setBus (simulation.onDevices (onDevices_requestMask mask) same.machine.bus)
  | setProcessor cpu => exact ⟨same.machine.setProcessor rfl, same.lcd⟩

/-- Related rigs give the same answers to the same events, however many there are. -/
theorem handleAll (events : List Rig.Event) :
    left.answers events = right.answers events ∧
      (left.handleAll events).Related related (right.handleAll events) := by
  induction events generalizing left right with
  | nil => exact ⟨rfl, same⟩
  | cons event rest ih =>
    obtain ⟨answers, after⟩ := ih (simulation.handle same event)
    refine ⟨?_, after⟩
    rw [Rig.answers, Rig.answers, simulation.answer same, answers]

end Bus.Simulation

end Handheld
