import Handheld.Proofs.Lcd.Position
import Handheld.Proofs.Strict.Write

/-!
# LCD steps without a step out of range

The unit goes from boundary to boundary by what is missing to the next one, which is a difference of
clocks that must not go below zero. It never does, since the boundary is chosen by the mode that
belongs to the clock. The count of pictures has 64 bits; as long as it fits, no part of a step is
refused.
-/
namespace Handheld.Lcd

/-! ## The strict step -/

/-- The line is put into its register and compared with the one asked for. The three cells are those
of ports, which always exist. -/
def showLine? (lcd : Lcd) (bus : Bus) : Option (VideoStep Lcd) := do
  let line := UInt8.ofNat lcd.line
  let bus ← bus.setIo? Bus.line line
  let status ← bus.io.read? Bus.lcdStatus
  let compared ← bus.io.read? Bus.lineCompare
  if line = compared then do
    let status := status ||| 0x04
    let bus ← bus.setIo? Bus.lcdStatus status
    some
      { unit := lcd, bus
        requests := if status &&& 0x40 = 0 then 0 else Interrupt.lcdStatus.bit }
  else do
    let bus ← bus.setIo? Bus.lcdStatus (status &&& ~~~0x04)
    some { unit := lcd, bus, requests := 0 }

/-- The next line, counted in a byte and taken back to the top behind the last. The first line below
the picture counts a picture. -/
def nextLine? (lcd : Lcd) (bus : Bus) : Option (VideoStep Lcd) := do
  let next ← sum? 8 lcd.line 1
  let line ← remainder? next lines
  if line = height then do
    let frames ← sum? 64 lcd.frames 1
    let shown ← showLine? { lcd with clock := 0, line, frames } bus
    some { shown with requests := Interrupt.vblank.bit ||| shown.requests }
  else
    showLine? { lcd with clock := 0, line } bus

/-- The mode of the clock, shown in the status if it is a new one. At the end of a line an active
copy moves its block. -/
def showMode? (lcd : Lcd) (bus : Bus) : Option (VideoStep Lcd) :=
  let mode := lcd.modeAt
  if mode = lcd.mode then
    some { unit := lcd, bus, requests := 0 }
  else do
    let bus ← if mode = .hblank then bus.copyLineBlock? else some bus
    let status ← bus.io.read? Bus.lcdStatus
    let bus ← bus.setIo? Bus.lcdStatus ((status &&& ~~~0x03) ||| mode.code)
    some
      { unit := { lcd with mode }, bus
        requests := if status &&& mode.enableBit = 0 then 0 else Interrupt.lcdStatus.bit }

/-- One part of a step, up to the boundary at most: the clock is counted on, and what begins there
begins. -/
def move? (lcd : Lcd) (clocks : Nat) (bus : Bus) : Option (VideoStep Lcd) := do
  let clock ← sum? 32 lcd.clock clocks
  let moved : Lcd := { lcd with clock }
  if moved.clock = lineClocks then do
    let atLine ← moved.nextLine? bus
    let atMode ← atLine.unit.showMode? atLine.bus
    some { atMode with requests := atLine.requests ||| atMode.requests }
  else
    moved.showMode? bus

/-- A part of no clocks is refused as well: it would be repeated for ever. -/
def run? (lcd : Lcd) (clocks : Nat) (bus : Bus) (requests : UInt8) : Option (VideoStep Lcd) :=
  if _left : 0 < clocks then
    match difference? lcd.boundary lcd.clock with
    | none => none
    | some room =>
      if _more : room = 0 then none
      else
        match lcd.move? (min clocks room) bus, _taken : difference? clocks (min clocks room) with
        | some moved, some rest =>
          moved.unit.run? rest moved.bus (requests ||| moved.requests)
        | _, _ => none
  else
    some { unit := lcd, bus, requests }
termination_by clocks
decreasing_by
  exact lt_of_difference? _taken (by omega) (Nat.min_le_left _ _)

/-- A unit that is switched off goes back to the top of the picture. -/
def park? (lcd : Lcd) (bus : Bus) : Option (VideoStep Lcd) := do
  let bus ← bus.setIo? Bus.line 0
  let status ← bus.io.read? Bus.lcdStatus
  let bus ← bus.setIo? Bus.lcdStatus (status &&& ~~~0x03)
  some { unit := { lcd with clock := 0, line := 0, mode := .hblank }, bus, requests := 0 }

/-- A unit that is on runs, one that is off parks. -/
def step? (lcd : Lcd) (clocks : Nat) (bus : Bus) : Option (VideoStep Lcd) := do
  let control ← bus.io.read? Bus.lcdControl
  if control &&& 0x80 = 0 then lcd.park? bus else lcd.run? clocks bus 0

/-! ## What a step keeps -/

variable {lcd : Lcd} {bus : Bus}

/-- A move stores in ports and may copy a block, neither of which takes a selection out of its
range. -/
theorem sound_bus_move (lcd : Lcd) (clocks : Nat) (sound : bus.Sound) :
    (lcd.move clocks bus).bus.Sound := by
  obtain ⟨videoRam, io, copyActive, moved⟩ := lcd.move_frame clocks bus
  rw [moved]
  exact sound.of_same rfl

theorem Sound.bus_step (sound : lcd.Sound) (clocks : Nat) (kept : bus.Sound) :
    (lcd.step clocks bus).bus.Sound := by
  unfold Lcd.step
  split
  · exact kept.of_same rfl
  · exact (sound.run_induction (motive := fun _ bus => bus.Sound)
      (fun later _ clocks _ _ kept => later.sound_bus_move clocks kept) clocks 0 kept).1

/-! ## The strict step succeeds -/

theorem showLine?_eq (lcd : Lcd) (bus : Bus) : lcd.showLine? bus = some (lcd.showLine bus) := by
  have status : Bus.lcdStatus < 0x80 := by decide
  have line : Bus.line < 0x80 := by decide
  have compared : Bus.lineCompare < 0x80 := by decide
  simp only [showLine?, Bus.setIo?_eq _ _ line, Bus.setIo?_eq _ _ status, Block.read?_eq _ status,
    Block.read?_eq _ compared, Option.bind_eq_bind, Option.bind_some, showLine]
  split <;> rfl

/-- The sum of the line fits because the unit is within a picture, and the count of pictures by the
hypothesis. -/
theorem nextLine?_eq (lcd : Lcd) (inPicture : lcd.line < lines) (bus : Bus)
    (counted : (lcd.nextLine bus).unit.frames < 2 ^ 64) :
    lcd.nextLine? bus = some (lcd.nextLine bus) := by
  have fits : lcd.line + 1 < 2 ^ 8 := Nat.lt_of_le_of_lt inPicture (by decide)
  have next := sum?_eq fits
  have wrapped : remainder? (lcd.line + 1) lines = some ((lcd.line + 1) % lines) :=
    remainder?_eq (by decide)
  rw [unit_nextLine] at counted
  simp only [nextLine?, next, wrapped, showLine?_eq, Option.bind_eq_bind, Option.bind_some,
    nextLine]
  split
  · rename_i blank
    rw [if_pos blank] at counted
    simp only [sum?_eq counted, Option.bind_some]
  · rfl

/-- Only the block of an active copy asks the bus for more than the cells of ports. -/
theorem showMode?_eq (lcd : Lcd) (sound : bus.Sound) :
    lcd.showMode? bus = some (lcd.showMode bus) := by
  have status : Bus.lcdStatus < 0x80 := by decide
  unfold showMode? showMode
  dsimp only
  split
  · rfl
  · split
    · simp only [Bus.copyLineBlock?_eq sound, Block.read?_eq _ status, Bus.setIo?_eq _ _ status,
        Option.bind_eq_bind, Option.bind_some]
    · simp only [Block.read?_eq _ status, Bus.setIo?_eq _ _ status, Option.bind_eq_bind,
        Option.bind_some]

/-- A part reaches the boundary at most, and so the clock of the line stays far below 32 bits. -/
theorem Sound.move?_eq (sound : lcd.Sound) (kept : bus.Sound) {clocks : Nat}
    (part : clocks ≤ lcd.boundary - lcd.clock)
    (counted : (lcd.move clocks bus).unit.frames < 2 ^ 64) :
    lcd.move? clocks bus = some (lcd.move clocks bus) := by
  have within := sound.clock_lt_boundary
  have bound : lcd.boundary ≤ 456 := lcd.boundary_le
  have fits : lcd.clock + clocks < 2 ^ 32 := by omega
  have clock := sum?_eq fits
  rw [unit_move] at counted
  dsimp only at counted
  simp only [move?, clock, Option.bind_eq_bind, Option.bind_some, Lcd.move]
  split
  · rename_i ended
    rw [if_pos ended] at counted
    have atLine :=
      nextLine?_eq { lcd with clock := lcd.clock + clocks } sound.line bus counted
    obtain ⟨io, shown⟩ := nextLine_frame { lcd with clock := lcd.clock + clocks } bus
    have keptLine : (nextLine { lcd with clock := lcd.clock + clocks } bus).bus.Sound := by
      rw [shown]
      exact kept.of_same rfl
    simp only [atLine, showMode?_eq _ keptLine, Option.bind_some]
  · exact showMode?_eq _ kept

/-- Part by part, as the clocks to go get fewer with each. The count of pictures is asked about at
the end only, since it never goes down on the way. -/
theorem Sound.run?_eq (sound : lcd.Sound) (kept : bus.Sound) (clocks : Nat) (requests : UInt8)
    (counted : (lcd.run clocks bus requests).unit.frames < 2 ^ 64) :
    lcd.run? clocks bus requests = some (lcd.run clocks bus requests) := by
  induction clocks using Nat.strongRecOn generalizing lcd bus requests with
  | _ clocks ih =>
    rcases Nat.eq_zero_or_pos clocks with rfl | left
    · rw [run?, run_zero]
      rfl
    · have room := sound.clock_lt_boundary
      have within := Nat.min_le_right clocks (lcd.boundary - lcd.clock)
      have next := sound.move bus within
      have keptNext := lcd.sound_bus_move (min clocks (lcd.boundary - lcd.clock)) kept
      rw [sound.run_eq left] at counted ⊢
      dsimp only at counted ⊢
      have later := Nat.lt_of_le_of_lt (next.frames_run _ _ _) counted
      have rest := ih _ (by omega) next keptNext _ counted
      rw [run?, dif_pos left, difference?_eq (Nat.le_of_lt room)]
      dsimp only
      rw [dif_neg (by omega), sound.move?_eq kept within later,
        difference?_eq (Nat.min_le_left _ _)]
      exact rest

theorem park?_eq (lcd : Lcd) (bus : Bus) : lcd.park? bus = some (lcd.park bus) := by
  have line : Bus.line < 0x80 := by decide
  have status : Bus.lcdStatus < 0x80 := by decide
  simp only [park?, Bus.setIo?_eq _ _ line, Block.read?_eq _ status, Bus.setIo?_eq _ _ status,
    Option.bind_eq_bind, Option.bind_some]
  rfl

/-- The two hypotheses that stay are about the start and about the count of pictures. -/
theorem Sound.step?_eq (sound : lcd.Sound) (kept : bus.Sound) (clocks : Nat)
    (counted : (lcd.step clocks bus).unit.frames < 2 ^ 64) :
    lcd.step? clocks bus = some (lcd.step clocks bus) := by
  have control := bus.io.read?_eq (by decide : Bus.lcdControl < 0x80)
  unfold Lcd.step at counted ⊢
  simp only [step?, control, park?_eq, Option.bind_eq_bind, Option.bind_some]
  by_cases off : bus.io.read Bus.lcdControl &&& 0x80 = 0
  · rw [if_pos off, if_pos off]
  · rw [if_neg off] at counted ⊢
    rw [if_neg off]
    exact sound.run?_eq kept clocks 0 counted

end Handheld.Lcd
