import Handheld.Proofs.Lcd.Batches

/-!
# What the LCD registers show

Each part of a step is told here by what it leaves in the line and status registers and by what it
asks for: the line and its comparison are shown when a line begins, the mode when it changes. The
bits of the status register that enable interrupts are the program's and stay as they are.
-/
namespace Handheld.Lcd

/-- The status bits that belong to the program. -/
abbrev enableMask : UInt8 := 0x78

/-- A block copy stores to its own registers only, so the line register keeps what the LCD shows in
it. -/
theorem line_not_copied : Bus.line ∉ Bus.copyRegisters := by decide

theorem status_not_copied : Bus.lcdStatus ∉ Bus.copyRegisters := by decide

variable (lcd : Lcd) (bus : Bus)

/-! ## A line begins -/

theorem line_showLine :
    (lcd.showLine bus).bus.io.read Bus.line = UInt8.ofNat lcd.line := by
  have stored : (bus.setIo Bus.line (UInt8.ofNat lcd.line)).io.read Bus.line =
      UInt8.ofNat lcd.line := Block.read_write_self _ _ (by decide)
  simp only [showLine]
  split
  · exact (Bus.read_setIo_of_ne _ _ (by decide)).trans stored
  · exact (Bus.read_setIo_of_ne _ _ (by decide)).trans stored

theorem compare_shown (line : UInt8) :
    (bus.setIo Bus.line line).io.read Bus.lineCompare = bus.io.read Bus.lineCompare :=
  bus.read_setIo_of_ne line (by decide)

theorem status_shown (line : UInt8) :
    (bus.setIo Bus.line line).io.read Bus.lcdStatus = bus.io.read Bus.lcdStatus :=
  bus.read_setIo_of_ne line (by decide)

/-- The outcome is a bit of its own, set or cleared. All other bits of the status stay. -/
theorem status_showLine :
    (lcd.showLine bus).bus.io.read Bus.lcdStatus =
      if UInt8.ofNat lcd.line = bus.io.read Bus.lineCompare then
        bus.io.read Bus.lcdStatus ||| 0x04
      else bus.io.read Bus.lcdStatus &&& ~~~0x04 := by
  simp only [showLine, compare_shown, status_shown]
  split <;> exact Block.read_write_self _ _ (by decide)

/-- A comparison that comes out asks for an interrupt if the program enabled that. -/
theorem requests_showLine :
    (lcd.showLine bus).requests =
      if UInt8.ofNat lcd.line = bus.io.read Bus.lineCompare ∧
          bus.io.read Bus.lcdStatus &&& 0x40 ≠ 0 then Interrupt.lcdStatus.bit
      else 0 := by
  have enable (byte : UInt8) : (byte ||| 0x04) &&& 0x40 = byte &&& 0x40 := by
    revert byte
    refine forall_byte ?_
    decide +kernel
  simp only [showLine, compare_shown, status_shown, enable]
  by_cases same : UInt8.ofNat lcd.line = bus.io.read Bus.lineCompare
  · rw [if_pos same]
    by_cases off : bus.io.read Bus.lcdStatus &&& 0x40 = 0 <;> simp [same, off]
  · rw [if_neg same, if_neg fun both => same both.1]

/-- The unit at the start of the line that follows. -/
def begun : Lcd :=
  { lcd with
    clock := 0
    line := (lcd.line + 1) % lines
    frames := if (lcd.line + 1) % lines = height then lcd.frames + 1 else lcd.frames }

/-- The next line shows itself. The vertical blank is asked for at the one line it begins with. -/
theorem nextLine_eq :
    lcd.nextLine bus =
      let shown := lcd.begun.showLine bus
      { shown with
        requests :=
          (if lcd.begun.line = height then Interrupt.vblank.bit else 0) ||| shown.requests } := by
  by_cases blank : (lcd.line + 1) % lines = height
  · simp only [nextLine, begun, if_pos blank]
  · simp only [nextLine, begun, if_neg blank, UInt8.zero_or]

/-! ## The mode changes -/

/-- A new mode, and the block that may go with it, leave the line register. -/
theorem line_showMode : (lcd.showMode bus).bus.io.read Bus.line = bus.io.read Bus.line := by
  simp only [showMode]
  split
  · rfl
  · rw [Bus.read_setIo_of_ne _ _ (by decide)]
    split
    · exact bus.io_copyLineBlock line_not_copied
    · rfl

/-- The block copy that goes with a line does not touch the status. -/
theorem status_before_mode :
    (if lcd.modeAt = .hblank then bus.copyLineBlock else bus).io.read Bus.lcdStatus =
      bus.io.read Bus.lcdStatus := by
  split
  · exact bus.io_copyLineBlock status_not_copied
  · rfl

theorem status_showMode :
    (lcd.showMode bus).bus.io.read Bus.lcdStatus =
      if lcd.modeAt = lcd.mode then bus.io.read Bus.lcdStatus
      else (bus.io.read Bus.lcdStatus &&& ~~~0x03) ||| lcd.modeAt.code := by
  simp only [showMode, status_before_mode]
  split
  · rfl
  · exact Block.read_write_self _ _ (by decide)

/-- A new mode asks for an interrupt if the program enabled that for it. A mode that stays asks for
none. -/
theorem requests_showMode :
    (lcd.showMode bus).requests =
      if lcd.modeAt ≠ lcd.mode ∧ bus.io.read Bus.lcdStatus &&& lcd.modeAt.enableBit ≠ 0 then
        Interrupt.lcdStatus.bit
      else 0 := by
  simp only [showMode, status_before_mode]
  by_cases agrees : lcd.modeAt = lcd.mode
  · rw [if_pos agrees, if_neg fun both => both.1 agrees]
  · rw [if_neg agrees]
    by_cases off : bus.io.read Bus.lcdStatus &&& lcd.modeAt.enableBit = 0 <;> simp [agrees, off]

/-! ## A move -/

theorem move_in_line {clocks : Nat} (inLine : lcd.clock + clocks ≠ lineClocks) :
    lcd.move clocks bus = (lcd.advance clocks).showMode bus := if_neg inLine

theorem move_line_end {clocks : Nat} (last : lcd.clock + clocks = lineClocks) :
    lcd.move clocks bus =
      let started := (lcd.advance clocks).nextLine bus
      let ready := started.unit.showMode started.bus
      { ready with requests := started.requests ||| ready.requests } := if_pos last

/-! ## The screen is off -/

/-- A parked unit shows the mode of rest and keeps the outcome of the last comparison. -/
theorem status_park :
    (lcd.park bus).bus.io.read Bus.lcdStatus = bus.io.read Bus.lcdStatus &&& ~~~0x03 := by
  have line : (bus.setIo Bus.line 0).io.read Bus.lcdStatus = bus.io.read Bus.lcdStatus :=
    status_shown bus 0
  rw [← line]
  exact Block.read_write_self _ _ (by decide)

/-! ## What the program chose -/

/-- The line that the program compares with and the interrupts that it enabled are the same. A step
leaves them, and so what it asks for can be told from the bus that it starts on. -/
structure SameChoices (bus later : Bus) : Prop where
  compare : later.io.read Bus.lineCompare = bus.io.read Bus.lineCompare
  enables : later.io.read Bus.lcdStatus &&& enableMask = bus.io.read Bus.lcdStatus &&& enableMask

/-- The relation is reflexive and transitive, and so goes from the parts of a step to the step. -/
theorem SameChoices.refl : SameChoices bus bus := ⟨rfl, rfl⟩

theorem SameChoices.trans {bus later latest : Bus} (first : SameChoices bus later)
    (second : SameChoices later latest) : SameChoices bus latest :=
  ⟨second.compare.trans first.compare, second.enables.trans first.enables⟩

theorem compare_not_stored : Bus.lineCompare ∉ storedCells := by decide

/-- The outcome of a comparison is not among the bits of the program. -/
theorem sameChoices_showLine : SameChoices bus (lcd.showLine bus).bus := by
  have raised (byte : UInt8) : (byte ||| 0x04) &&& enableMask = byte &&& enableMask := by
    revert byte
    refine forall_byte ?_
    decide +kernel
  have lowered (byte : UInt8) : (byte &&& ~~~0x04) &&& enableMask = byte &&& enableMask := by
    revert byte
    refine forall_byte ?_
    decide +kernel
  refine ⟨io_showLine compare_not_stored lcd bus, ?_⟩
  rw [status_showLine]
  split
  · exact raised _
  · exact lowered _

theorem sameChoices_showMode : SameChoices bus (lcd.showMode bus).bus := by
  have shown (mode : Mode) (byte : UInt8) :
      ((byte &&& ~~~0x03) ||| mode.code) &&& enableMask = byte &&& enableMask := by
    revert byte
    refine forall_byte ?_
    cases mode <;> decide +kernel
  refine ⟨io_showMode compare_not_stored lcd bus, ?_⟩
  rw [status_showMode]
  split
  · rfl
  · exact shown _ _

theorem sameChoices_nextLine : SameChoices bus (lcd.nextLine bus).bus := by
  rw [nextLine_eq]
  exact lcd.begun.sameChoices_showLine bus

theorem sameChoices_move (clocks : Nat) : SameChoices bus (lcd.move clocks bus).bus := by
  simp only [move]
  split
  · exact (sameChoices_nextLine _ bus).trans (sameChoices_showMode _ _)
  · exact sameChoices_showMode _ bus

end Handheld.Lcd
