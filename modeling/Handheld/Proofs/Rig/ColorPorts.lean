import Handheld.Proofs.Bus.ColorPorts
import Handheld.Proofs.Rig.Simulation

/-!
# Colour ports are inert on a monochrome rig

What a host stores to the colour ports of a monochrome rig never shows, whether it is stored as a
byte, as part of a word or of a longer run of bytes, or past the registers. `visible` leaves of an
event what can show. Rigs whose events show alike give the same answers and stay alike for ever.
-/
namespace Handheld.Rig

open Bus (colorPorts)

/-- The bytes that `writeAll` stores. -/
def consecutive (address : UInt16) : List UInt8 → List (UInt16 × UInt8)
  | [] => []
  | value :: rest => (address, value) :: consecutive (address + 1) rest

/-- The stores of a host that reach no colour port, byte by byte. -/
def visibleStores (bytes : List (UInt16 × UInt8)) : List Event :=
  (bytes.filter fun byte => byte.1 ∉ colorPorts).map fun byte => .operate (.write byte.1 byte.2)

/-- An event without what it stores to colour ports. -/
def Event.visible : Event → List Event
  | .operate (.write address value) => visibleStores [(address, value)]
  | .operate (.writeWord address value) =>
    visibleStores [(address, lowByte value), (address + 1, highByte value)]
  | .operate (.writeAll address values) => visibleStores (consecutive address values)
  | .operate (.storeIo address value) =>
    if address ∈ colorPorts then [] else [.operate (.storeIo address value)]
  | event => [event]

/-- Rigs that differ at most in the cells of colour ports. Processor and LCD are the same to the
last register. -/
structure SameButPorts (left right : Rig) : Prop where
  cpu : left.machine.cpu = right.machine.cpu
  lcd : left.lcd = right.lcd
  bus : left.machine.bus.SameButPorts right.machine.bus

theorem handleAll_append (rig : Rig) (first second : List Event) :
    rig.handleAll (first ++ second) = (rig.handleAll first).handleAll second := by
  simp [handleAll]

theorem answers_append (rig : Rig) (first second : List Event) :
    rig.answers (first ++ second) = rig.answers first ++ (rig.handleAll first).answers second := by
  induction first generalizing rig with
  | nil => rfl
  | cons event rest ih =>
    simp only [List.cons_append, answers, ih, List.append_assoc]
    rfl

/-- A longer run of bytes is a list of stores at successive addresses, which may reach a colour port
anywhere in it. -/
theorem writeAll_eq_stores (bus : Bus) (address : UInt16) (values : List UInt8) :
    bus.writeAll address values = bus.stores (consecutive address values) := by
  induction values generalizing bus address with
  | nil => rfl
  | cons value rest ih => exact ih (bus.write address value) (address + 1)

/-! ## One event -/

variable {left right : Rig}

/-- Rigs of a monochrome machine that differ at most in the cells of colour ports. -/
abbrev Alike (left right : Rig) : Prop := left.Related Bus.SameMonochrome right

/-- Of the stores of a host only the visible ones make a difference. -/
theorem Alike.stores (same : left.Alike right) (bytes : List (UInt16 × UInt8)) :
    right.answers (visibleStores bytes) = [] ∧
      (left.setBus (left.machine.bus.stores bytes)).Alike
        (right.handleAll (visibleStores bytes)) := by
  induction bytes generalizing left right with
  | nil => exact ⟨rfl, same⟩
  | cons byte rest ih =>
    have bus := same.machine.bus
    by_cases port : byte.1 ∈ colorPorts
    · have hidden : visibleStores (byte :: rest) = visibleStores rest := by
        simp [visibleStores, port]
      rw [hidden]
      exact ih (same.setBus (bus.write_port port byte.2))
    · have shown : visibleStores (byte :: rest) =
          .operate (.write byte.1 byte.2) :: visibleStores rest := by
        simp [visibleStores, port]
      rw [shown]
      exact ih (same.setBus (bus.write byte.1 byte.2))

/-- The step of the theorem: an event on one side, and on the other what of it can show. -/
theorem Alike.handle_visible (same : left.Alike right) (event : Event) :
    right.answers event.visible = (left.answer? event).toList ∧
      (left.handle event).Alike (right.handleAll event.visible) := by
  have asked (event : Event) : right.answers [event] = (left.answer? event).toList ∧
      (left.handle event).Alike (right.handleAll [event]) := by
    obtain ⟨answers, after⟩ := Bus.simulation_sameMonochrome.handleAll same [event]
    exact ⟨answers.symm.trans (List.append_nil _), after⟩
  unfold Event.visible
  split
  · exact same.stores _
  · exact same.stores _
  · rename_i address values
    have stored := same.stores (consecutive address values)
    rwa [← writeAll_eq_stores] at stored
  · rename_i address value
    split
    · rename_i port
      exact ⟨rfl, same.setBus (same.machine.bus.storeIo_port port value)⟩
    · exact asked _
  · exact asked _

/-! ## Any events -/

/-- The run: the same for any number of events. -/
theorem Alike.handleAll_visible (same : left.Alike right) (events : List Event) :
    left.answers events = right.answers (events.flatMap Event.visible) ∧
      (left.handleAll events).Alike (right.handleAll (events.flatMap Event.visible)) := by
  induction events generalizing left right with
  | nil => exact ⟨rfl, same⟩
  | cons event rest ih =>
    obtain ⟨answer, handled⟩ := same.handle_visible event
    obtain ⟨answers, after⟩ := ih handled
    rw [List.flatMap_cons, answers_append, handleAll_append, answer]
    exact ⟨congrArg _ answers, after⟩

/-- Being alike compares the rigs outside some cells, so the sides may be exchanged. -/
theorem Alike.symm (same : left.Alike right) : right.Alike left := by
  obtain ⟨⟨cpu, color, idle, ports⟩, lcd⟩ := same
  refine ⟨⟨cpu.symm, ports.color.trans color, ?_, ports.symm⟩, lcd.symm⟩
  obtain ⟨io, other, page⟩ := ports
  rw [other]
  exact idle

theorem Alike.trans {middle : Rig} (first : left.Alike middle) (second : middle.Alike right) :
    left.Alike right :=
  ⟨⟨first.machine.cpu.trans second.machine.cpu, first.machine.bus.color, first.machine.bus.idle,
    first.machine.bus.ports.trans second.machine.bus.ports⟩, first.lcd.trans second.lcd⟩

/-- Two lists of events that leave the same when the colour ports are taken out of both. Each side
is compared with the rig that gets the visible events only. -/
theorem Alike.of_visible (same : left.Alike right) {events events' : List Event}
    (visible : events.flatMap Event.visible = events'.flatMap Event.visible) :
    left.answers events = right.answers events' ∧
      (left.handleAll events).Alike (right.handleAll events') := by
  obtain ⟨answers, after⟩ := same.handleAll_visible events
  obtain ⟨answers', after'⟩ := (same.symm.trans same).handleAll_visible events'
  rw [visible] at answers after
  exact ⟨answers.trans answers'.symm, after.trans after'.symm⟩

theorem SameButPorts.refl (rig : Rig) : SameButPorts rig rig := ⟨rfl, rfl, .refl _⟩

/-- From power-on a monochrome rig fits its mode, so that the weaker relation gives the stronger
one. -/
theorem SameButPorts.alike (same : SameButPorts left right)
    (fits : left.machine.bus.selection.Fits false) : left.Alike right :=
  ⟨⟨same.cpu, fits.mode, (fits.monochrome rfl).2.2, same.bus⟩, same.lcd⟩

theorem Alike.sameButPorts (same : left.Alike right) : SameButPorts left right :=
  ⟨same.machine.cpu, same.lcd, same.machine.bus.ports⟩

/-- Everything about two rigs that can be seen: the processor and the LCD, what addresses read, the
memories and colours that pictures are made of, the interrupts, what has gone out over the serial
line, and whether STOP would switch the speed. -/
structure LookAlike (left right : Rig) : Prop where
  cpu : left.machine.cpu = right.machine.cpu
  lcd : left.lcd = right.lcd
  read (address : UInt16) : left.machine.bus.read address = right.machine.bus.read address
  readWord (address : UInt16) :
    left.machine.bus.readWord address = right.machine.bus.readWord address
  videoRam : left.machine.bus.videoRam = right.machine.bus.videoRam
  objectRam : left.machine.bus.objectRam = right.machine.bus.objectRam
  interrupts : left.machine.bus.interrupts = right.machine.bus.interrupts
  sent : left.machine.bus.sent = right.machine.bus.sent
  background (number color : Nat) : left.machine.bus.background.color number color =
    right.machine.bus.background.color number color
  objects (number color : Nat) : left.machine.bus.objects.color number color =
    right.machine.bus.objects.color number color
  switched : left.machine.bus.switchSpeed.1 = right.machine.bus.switchSpeed.1

theorem Alike.lookAlike (same : left.Alike right) : LookAlike left right := by
  have bus := same.machine.bus
  have simulation := Bus.simulation_sameMonochrome
  have read := simulation.read bus
  have readWord := simulation.readWord bus
  have switched := simulation.switched bus
  obtain ⟨io, other, page⟩ := bus.ports
  constructor
  case cpu => exact same.machine.cpu
  case lcd => exact same.lcd
  case read => exact read
  case readWord => exact readWord
  case switched => exact switched
  all_goals
    rw [other]
    try exact fun _ _ => rfl

/-- On a monochrome machine the colour ports are inert.
Hosts that ask two fresh rigs for the same but for what they store to colour ports reach rigs that
differ in the cells of these ports at most. And rigs that differ in no more, however they were
reached from power-on, answer alike to any events that are the same but for what is stored to
colour ports, look alike after them, and still differ in no more. -/
theorem color_ports_inert :
    (∀ cartridge past past', past.flatMap Event.visible = past'.flatMap Event.visible →
      SameButPorts ((powerOn cartridge false).handleAll past)
        ((powerOn cartridge false).handleAll past')) ∧
    ∀ cartridge cartridge' past past',
      let left := (powerOn cartridge false).handleAll past
      let right := (powerOn cartridge' false).handleAll past'
      SameButPorts left right →
      ∀ future future', future.flatMap Event.visible = future'.flatMap Event.visible →
        left.answers future = right.answers future' ∧
          LookAlike (left.handleAll future) (right.handleAll future') ∧
          SameButPorts (left.handleAll future) (right.handleAll future') := by
  refine ⟨?reached, ?future⟩
  case reached =>
    intro cartridge past past' visible
    have fresh := (SameButPorts.refl _).alike (fits_powerOn cartridge false)
    obtain ⟨_, after⟩ := fresh.of_visible visible
    exact after.sameButPorts
  case future =>
    intro cartridge cartridge' past past' left right same future future' visible
    have alike := same.alike (fits_handleAll cartridge false past)
    obtain ⟨answers, after⟩ := alike.of_visible visible
    exact ⟨answers, after.lookAlike, after.sameButPorts⟩

/-- The store to a palette port stays in its cell, which no port shows. -/
theorem color_ports_inert_palette :
    let left := (powerOn leastCartridge false).handleAll [.operate (.write 0xff68 0x12)]
    let right := (powerOn leastCartridge false).handleAll []
    left.machine.bus.io.read 0x68 = 0x12 ∧ right.machine.bus.io.read 0x68 = 0 ∧
      left.answers [.operate (.read 0xff68)] =
        right.answers [.operate (.writeWord 0xff54 0x1234), .operate (.read 0xff68)] := by
  intro left right
  obtain ⟨reached, future⟩ := color_ports_inert
  have hiddenPast : [Event.operate (.write 0xff68 0x12)].flatMap Event.visible =
      [].flatMap Event.visible := by
    simp [Event.visible, visibleStores, colorPorts]
  have hiddenFuture : [Event.operate (.read 0xff68)].flatMap Event.visible =
      [Event.operate (.writeWord 0xff54 0x1234), .operate (.read 0xff68)].flatMap
        Event.visible := by
    simp [Event.visible, visibleStores, colorPorts]
  have same := reached leastCartridge _ _ hiddenPast
  refine ⟨?_, ?_, (future leastCartridge leastCartridge _ _ same _ _ hiddenFuture).1⟩
  · decide +kernel
  · decide +kernel

end Handheld.Rig
