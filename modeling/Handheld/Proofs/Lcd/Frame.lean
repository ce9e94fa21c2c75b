import Handheld.Lcd
import Handheld.Proofs.Bus.Frame

/-!
# What the parts of an LCD step change

A step of the LCD is made of showing the line, going to the next one and making the mode agree with
the position. What each leaves in the unit does not depend on the bus, and the bus changes in video
RAM, the I/O page and the copy in progress only.
-/
namespace Handheld.Lcd

/-! ## The unit -/

theorem unit_showLine (lcd : Lcd) (bus : Bus) : (lcd.showLine bus).unit = lcd := by
  simp only [showLine]
  split <;> rfl

/-- The counters of the unit go on by themselves: neither the line nor the picture is read from the
bus. -/
theorem unit_nextLine (lcd : Lcd) (bus : Bus) :
    (lcd.nextLine bus).unit =
      { lcd with
        clock := 0
        line := (lcd.line + 1) % lines
        frames := if (lcd.line + 1) % lines = height then lcd.frames + 1 else lcd.frames } := by
  simp only [nextLine]
  split <;> simp only [unit_showLine]

/-- The mode becomes that of the position, whether it is a new one or not. -/
theorem unit_showMode (lcd : Lcd) (bus : Bus) :
    (lcd.showMode bus).unit = { lcd with mode := lcd.modeAt } := by
  simp only [showMode]
  split
  · rename_i agrees
    rw [agrees]
  · rfl

/-- What a part of a step leaves of the unit, from the unit and the clocks alone. -/
theorem unit_move (lcd : Lcd) (clocks : Nat) (bus : Bus) :
    (lcd.move clocks bus).unit =
      let moved : Lcd := { lcd with clock := lcd.clock + clocks }
      let placed := if moved.clock = lineClocks then (moved.nextLine bus).unit else moved
      { placed with mode := placed.modeAt } := by
  simp only [move]
  split <;> simp only [unit_showMode]

/-! ## The bus -/

theorem showLine_frame (lcd : Lcd) (bus : Bus) :
    ∃ io, (lcd.showLine bus).bus = { bus with io } := by
  simp only [showLine]
  split <;> exact ⟨_, rfl⟩

theorem nextLine_frame (lcd : Lcd) (bus : Bus) :
    ∃ io, (lcd.nextLine bus).bus = { bus with io } := by
  simp only [nextLine]
  split <;> exact showLine_frame _ bus

/-- A new mode may let a block be copied, and that is all it does outside the page. -/
theorem showMode_frame (lcd : Lcd) (bus : Bus) :
    ∃ videoRam io copyActive,
      (lcd.showMode bus).bus = { bus with videoRam, io, copyActive } := by
  simp only [showMode]
  split
  · exact ⟨bus.videoRam, bus.io, bus.copyActive, rfl⟩
  · split
    · obtain ⟨videoRam, io, copyActive, copied⟩ := bus.copyLineBlock_frame
      rw [copied]
      exact ⟨videoRam, _, copyActive, rfl⟩
    · exact ⟨bus.videoRam, _, bus.copyActive, rfl⟩

theorem move_frame (lcd : Lcd) (clocks : Nat) (bus : Bus) :
    ∃ videoRam io copyActive,
      (lcd.move clocks bus).bus = { bus with videoRam, io, copyActive } := by
  simp only [move]
  split
  · obtain ⟨io, shown⟩ := nextLine_frame { lcd with clock := lcd.clock + clocks } bus
    rw [shown]
    exact showMode_frame _ _
  · exact showMode_frame _ bus

/-! ## The I/O page

Only the line, the status and the registers of the block copy are stored to; the other cells keep
what programs left in them. -/

/-- The cells that a step of the LCD may store to. -/
def storedCells : List Nat := Bus.line :: Bus.lcdStatus :: Bus.copyRegisters

section

variable {cell : Nat} (untouched : cell ∉ storedCells)
include untouched

theorem io_showLine (lcd : Lcd) (bus : Bus) :
    (lcd.showLine bus).bus.io.read cell = bus.io.read cell := by
  have line : Bus.line ≠ cell := fun same => untouched (same ▸ by decide)
  have status : Bus.lcdStatus ≠ cell := fun same => untouched (same ▸ by decide)
  simp only [showLine]
  split
  · rw [Bus.read_setIo_of_ne _ _ status, Bus.read_setIo_of_ne _ _ line]
  · rw [Bus.read_setIo_of_ne _ _ status, Bus.read_setIo_of_ne _ _ line]

theorem io_nextLine (lcd : Lcd) (bus : Bus) :
    (lcd.nextLine bus).bus.io.read cell = bus.io.read cell := by
  simp only [nextLine]
  split
  · exact io_showLine untouched _ bus
  · exact io_showLine untouched _ bus

/-- A mode stores to the status and, through a block, to the registers of the copy. -/
theorem io_showMode (lcd : Lcd) (bus : Bus) :
    (lcd.showMode bus).bus.io.read cell = bus.io.read cell := by
  have status : Bus.lcdStatus ≠ cell := fun same => untouched (same ▸ by decide)
  have copy : cell ∉ Bus.copyRegisters :=
    fun member => untouched (List.mem_cons_of_mem _ (List.mem_cons_of_mem _ member))
  simp only [showMode]
  split
  · rfl
  · rw [Bus.read_setIo_of_ne _ _ status]
    split
    · exact bus.io_copyLineBlock copy
    · rfl

theorem io_move (lcd : Lcd) (clocks : Nat) (bus : Bus) :
    (lcd.move clocks bus).bus.io.read cell = bus.io.read cell := by
  simp only [move]
  split
  · exact (io_showMode untouched _ _).trans (io_nextLine untouched _ bus)
  · exact io_showMode untouched _ bus

end

end Handheld.Lcd
