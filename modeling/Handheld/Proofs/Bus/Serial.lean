import Handheld.Proofs.Bus.Requests
import Handheld.Proofs.Console.Frames

/-!
# What goes out over the serial line

A transfer shifts the data byte out and leaves ones in its place, so a byte that is not stored again
before the next transfer goes out once only. What has gone out is told here from all that happened
to the bus: `serial_output` says that it is this and nothing else, and that no run of a rig or a
console takes back a byte.
-/
namespace Handheld.Bus

/-! ## Output told from a history

Of a history the latest action comes first. -/

namespace Action

/-- Whether the action is a store that starts a transfer. -/
def sends : Action → Bool
  | .write address value => startsTransfer (address, value)
  | _ => false

/-- What the action leaves in the data register, if it changes it. -/
def dataLeft? : Action → Option UInt8
  | .write address value =>
    if address = 0xff01 then some value
    else if startsTransfer (address, value) then some 0xff
    else none
  | _ => none

end Action

/-- What the data register holds: the byte last stored to it, or ones if it has gone out since. -/
def dataAfter : List Action → UInt8
  | [] => 0
  | action :: earlier => action.dataLeft?.getD (dataAfter earlier)

/-- The bytes that have gone out, first to last: at each transfer what the data register held. -/
def transmitted : List Action → List UInt8
  | [] => []
  | action :: earlier =>
    if action.sends then transmitted earlier ++ [dataAfter earlier] else transmitted earlier

/-! ## Transfers -/

variable {address : UInt16} {bus : Bus}

/-- Behind a transfer the data register holds the ones that were shifted in. -/
theorem data_sendSerial (bus : Bus) : bus.sendSerial.io.read serialData = 0xff := by
  have later := read_setIo_of_ne
    (({ bus with sent := bus.sent.push (bus.io.read serialData) } : Bus).setIo serialData 0xff)
    (bus.io.read serialControl &&& 0x7f) (by decide : serialControl ≠ serialData)
  exact later.trans (Block.read_write_self bus.io 0xff (by decide))

theorem control_sendSerial (bus : Bus) :
    bus.sendSerial.io.read serialControl = bus.io.read serialControl &&& 0x7f :=
  Block.read_write_self (bus.io.write serialData 0xff) _ (by decide)

/-- The control register starts a transfer if both of its bits are set, and otherwise only
stores. -/
theorem write_serialControl (bus : Bus) (value : UInt8) :
    bus.write 0xff02 value =
      if startsTransfer (0xff02, value) then (bus.setIo serialControl value).sendSerial
      else bus.setIo serialControl value := by
  have stored : bus.write 0xff02 value =
      if value &&& 0x81 = 0x81 then (bus.setIo serialControl value).sendSerial
      else bus.setIo serialControl value := rfl
  simp only [stored, startsTransfer, true_and, decide_eq_true_eq]

theorem startsTransfer_of_ne (value : UInt8) (serial : address ≠ 0xff02) :
    startsTransfer (address, value) = false := by
  simp [startsTransfer, serial]

/-! ## Stores -/

theorem sent_write_of_ne (bus : Bus) (value : UInt8) (serial : address ≠ 0xff02) :
    (bus.write address value).sent = bus.sent := by
  unfold write
  cases Region.ofAddress address <;> dsimp only
  case io =>
    obtain ⟨_, _, _, _, _, _, _, _, _, _, _, _, _, stored⟩ := bus.writeIo_frame value serial
    rw [stored]
  all_goals rfl

/-- A store that starts a transfer sends the data byte, once; no other store sends any. -/
theorem sent_write (bus : Bus) (address : UInt16) (value : UInt8) :
    (bus.write address value).sent =
      if startsTransfer (address, value) then bus.sent.push (bus.io.read serialData)
      else bus.sent := by
  by_cases serial : address = 0xff02
  · subst serial
    have data : (bus.setIo serialControl value).io.read serialData = bus.io.read serialData :=
      bus.read_setIo_of_ne value (by decide)
    rw [write_serialControl, ← data]
    split <;> rfl
  · rw [bus.sent_write_of_ne value serial, startsTransfer_of_ne value serial]
    rfl

/-- What a store leaves in the data register: the byte itself, ones behind a transfer, or what was
there. -/
theorem data_write (bus : Bus) (address : UInt16) (value : UInt8) :
    (bus.write address value).io.read serialData =
      if address = 0xff01 then value
      else if startsTransfer (address, value) then 0xff
      else bus.io.read serialData := by
  by_cases data : address = 0xff01
  · subst data
    rw [if_pos rfl]
    exact Block.read_write_self bus.io value (by decide)
  · rw [if_neg data]
    by_cases serial : address = 0xff02
    · subst serial
      rw [write_serialControl]
      split
      · exact data_sendSerial _
      · exact bus.read_setIo_of_ne value (by decide)
    · rw [startsTransfer_of_ne value serial]
      exact bus.io_write_of_port value data (fun same => absurd same serial) fun _ => by decide

/-! ## Actions -/

theorem sent_copyLineBlock (bus : Bus) : bus.copyLineBlock.sent = bus.sent := by
  obtain ⟨videoRam, io, copyActive, copied⟩ := bus.copyLineBlock_frame
  rw [copied]

/-- The data register and the output are changed by stores only. -/
theorem serial_perform (bus : Bus) (action : Action) :
    (bus.perform action).sent =
        (if action.sends then bus.sent.push (bus.io.read serialData) else bus.sent) ∧
      (bus.perform action).io.read serialData =
        action.dataLeft?.getD (bus.io.read serialData) := by
  cases action with
  | write address value =>
    refine ⟨bus.sent_write address value, (bus.data_write address value).trans ?_⟩
    simp only [Action.dataLeft?]
    split_ifs <;> rfl
  | tick clocks =>
    obtain ⟨timer, interrupts, ticked⟩ := bus.tick_frame clocks
    rw [perform, ticked]
    exact ⟨rfl, rfl⟩
  | press key =>
    obtain ⟨joypad, interrupts, pressed⟩ := bus.press_frame key
    rw [perform, pressed]
    exact ⟨rfl, rfl⟩
  | release key => exact ⟨rfl, rfl⟩
  | switchSpeed =>
    obtain ⟨speedArmed, doubleSpeed, timer, switched⟩ := bus.switchSpeed_frame
    rw [perform, switched]
    exact ⟨rfl, rfl⟩
  | copyLineBlock => exact ⟨bus.sent_copyLineBlock, bus.io_copyLineBlock (by decide)⟩

/-- The bus keeps account: its output and its data register are those of the history. Both are
needed, as a transfer sends what the register holds. -/
structure KeepsSerial (bus : Bus) (history : List Action) : Prop where
  sent : bus.sent.toList = transmitted history
  data : bus.io.read serialData = dataAfter history

/-- The start-up program sends nothing and leaves the data register at zero. -/
theorem keepsSerial_powerOn (cartridge : Cartridge) (color : Bool) :
    (powerOn cartridge color).KeepsSerial [] := by
  have elsewhere : startupWrites.all fun byte => byte.1 ≠ 0xff01 ∧ byte.1 ≠ 0xff02 := by decide
  obtain ⟨started, keeps, on⟩ := powerOn_induction (motive := fun bus => bus.KeepsSerial [])
    cartridge color ⟨rfl, Block.read_filled 0 (by decide)⟩ fun bus byte member keeps => by
      obtain ⟨data, serial⟩ := of_decide_eq_true (List.all_eq_true.mp elsewhere byte member)
      refine ⟨?_, ?_⟩
      · rw [bus.sent_write_of_ne byte.2 serial, keeps.sent]
      · rw [data_write, if_neg data, startsTransfer_of_ne byte.2 serial]
        exact keeps.data
  rw [on]
  exact ⟨keeps.sent, (started.read_setIo_of_ne 0xff (by decide)).trans keeps.data⟩

theorem KeepsSerial.perform {history : List Action} (keeps : bus.KeepsSerial history)
    (action : Action) : (bus.perform action).KeepsSerial (action :: history) := by
  obtain ⟨sent, data⟩ := bus.serial_perform action
  refine ⟨?_, ?_⟩
  · rw [sent, transmitted]
    split
    · rw [Array.toList_push, keeps.sent, keeps.data]
    · exact keeps.sent
  · rw [data, dataAfter, keeps.data]

/-- The run: output and register are those of the history. -/
theorem keepsSerial_performAll (cartridge : Cartridge) (color : Bool) (history : List Action) :
    ((powerOn cartridge color).performAll history.reverse).KeepsSerial history := by
  induction history with
  | nil => exact keepsSerial_powerOn cartridge color
  | cons action earlier ih =>
    rw [List.reverse_cons, performAll_append]
    exact ih.perform action

/-! ## Runs -/

/-- What has gone out is never taken back. -/
theorem kept_sent (past : List UInt8) : Kept fun bus => past <+: bus.sent.toList where
  write bus address value grows := by
    rw [sent_write]
    split
    · rw [Array.toList_push]
      exact grows.trans (List.prefix_append _ _)
    · exact grows
  setIo _ _ _ grows := grows
  copyLineBlock bus grows := by
    rw [sent_copyLineBlock]
    exact grows
  setDevices _ _ _ grows := grows
  loadRam _ _ grows := grows

/-- The output is what was sent, on a machine of either mode after any history of stores, copies,
clocks, keys and switches of the speed.
`output`: it is the bytes that the data register held at each store that started a transfer, in
order. `data`: the register holds the byte last stored to it, ones since a transfer, zero before
both. `quiet`: no other action changes the output. `transfer`: a store with bits 7 and 0 of the
control port appends the byte, asks for the interrupt and leaves the port with bit 7 clear.
`rigs`, `consoles`: over any events of a rig and any frames of a console the output only grows at
its end. -/
theorem serial_output (cartridge : Cartridge) (color : Bool) (history : List Action) :
    let bus := (powerOn cartridge color).performAll history.reverse
    bus.sent.toList = transmitted history ∧
      bus.read 0xff01 = dataAfter history ∧
      (∀ action : Action, action.sends = false → (bus.perform action).sent = bus.sent) ∧
      (∀ value : UInt8, value &&& 0x81 = 0x81 →
        let after := bus.write 0xff02 value
        after.sent.toList = transmitted history ++ [dataAfter history] ∧
          after.requested .serial = true ∧ after.read 0xff02 &&& 0x80 = 0) ∧
      (∀ (rig : Rig) (events : List Rig.Event),
        rig.machine.bus.sent.toList <+: (rig.handleAll events).machine.bus.sent.toList) ∧
      ∀ (console : Console Lcd) (commands : List Command),
        console.machine.bus.sent.toList <+:
          (console.session commands).machine.bus.sent.toList := by
  intro bus
  have keeps : bus.KeepsSerial history := keepsSerial_performAll cartridge color history
  refine ⟨keeps.sent, keeps.data, ?quiet, ?transfer, ?rigs, ?consoles⟩
  case quiet =>
    intro action sends
    rw [(bus.serial_perform action).1, sends]
    rfl
  case transfer =>
    intro value bits after
    have starts : startsTransfer (0xff02, value) = true := by simp [startsTransfer, bits]
    have again := keeps.perform (.write 0xff02 value)
    refine ⟨?_, ?_, ?_⟩
    · exact again.sent.trans (if_pos starts)
    · rw [bus.requested_write value (by decide), starts]
      exact Bool.or_true _
    · have cleared (byte : UInt8) : (byte &&& 0x7f ||| 0x7e) &&& 0x80 = 0 := by
        revert byte
        refine forall_byte ?_
        decide +kernel
      have control : after.io.read serialControl =
          (bus.setIo serialControl value).io.read serialControl &&& 0x7f := by
        rw [← control_sendSerial]
        exact congrArg (·.io.read serialControl)
          ((bus.write_serialControl value).trans (if_pos starts))
      have shown : after.read 0xff02 = after.io.read serialControl ||| 0x7e := rfl
      rw [shown, control, cleared]
  case rigs =>
    intro rig events
    exact (kept_sent _).handleAll rig events (List.prefix_refl _)
  case consoles =>
    intro console commands
    rw [console.session_eq_performAll commands]
    exact Console.kept_performAll (kept_sent _) console _ (List.prefix_refl _)

/-- A word over both registers sends its low byte, and a second transfer sends the ones that came
in; a key and some clocks between them send nothing. -/
theorem serial_output_word :
    let history : List Action :=
      [.write 0xff02 0x81, .tick 8, .press .start, .write 0xff02 0x81, .write 0xff01 0x48]
    let word := (powerOn Rig.leastCartridge false).writeWord 0xff01 0x8148
    let bus := (powerOn Rig.leastCartridge false).performAll history.reverse
    bus = ((word.press .start).tick 8).write 0xff02 0x81 ∧
      bus.sent.toList = [0x48, 0xff] ∧ bus.read 0xff01 = 0xff ∧
      (Action.copyLineBlock).sends = false ∧ bus.copyLineBlock.sent = bus.sent ∧
      (0xc3 : UInt8) &&& 0x81 = 0x81 ∧
      (bus.write 0xff02 0xc3).sent.toList = [0x48, 0xff, 0xff] := by
  intro history word bus
  obtain ⟨output, data, quiet, transfer, _⟩ := serial_output Rig.leastCartridge false history
  have starts : (0xc3 : UInt8) &&& 0x81 = 0x81 := by decide
  exact ⟨rfl, output.trans (by decide), data.trans (by decide), rfl, quiet .copyLineBlock rfl,
    starts, (transfer 0xc3 starts).1.trans (by decide)⟩

end Handheld.Bus
