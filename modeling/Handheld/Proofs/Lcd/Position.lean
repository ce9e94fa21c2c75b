import Handheld.Proofs.Lcd.Frame

/-!
# Positions in the picture

A position is a line and a clock within it. The boundary that a run goes to next is chosen by the
mode that belongs to the clock, so it always lies ahead and a run never stands still. What every
part of a run keeps, the run keeps; `Sound.run_induction` says so once for all of them.
-/
namespace Handheld.Lcd

/-- The position is one of the picture. -/
structure Sound (lcd : Lcd) : Prop where
  clock : lcd.clock < lineClocks
  line : lcd.line < lines

/-- A position of the picture under the mode that belongs to it. The unit starts so, and stays so
for as long as the screen is on. -/
structure Settled (lcd : Lcd) : Prop extends lcd.Sound where
  mode : lcd.mode = lcd.modeAt

theorem settled_start : ({} : Lcd).Settled :=
  ⟨⟨by decide, by decide⟩, rfl⟩

variable {lcd : Lcd} {bus : Bus}

theorem boundary_le (lcd : Lcd) : lcd.boundary ≤ lineClocks := by
  unfold boundary
  split <;> decide

/-- The clock has not reached the boundary of its own mode. -/
theorem Sound.clock_lt_boundary (sound : lcd.Sound) : lcd.clock < lcd.boundary := by
  have clock := sound.clock
  unfold boundary modeAt
  by_cases blank : height ≤ lcd.line
  · rw [if_pos blank]
    exact clock
  · rw [if_neg blank]
    by_cases scanning : lcd.clock < scanEnd
    · rw [if_pos scanning]
      exact scanning
    · rw [if_neg scanning]
      by_cases moving : lcd.clock < transferEnd
      · rw [if_pos moving]
        exact moving
      · rw [if_neg moving]
        exact clock

/-- Clocks up to the boundary lead to a position of the picture again: the end of a line is the
start of the next one. -/
theorem Sound.move (sound : lcd.Sound) {clocks : Nat} (bus : Bus)
    (part : clocks ≤ lcd.boundary - lcd.clock) : (lcd.move clocks bus).unit.Sound := by
  have line := sound.line
  have within := sound.clock_lt_boundary
  have bound := lcd.boundary_le
  rw [unit_move]
  dsimp only
  split
  · rw [unit_nextLine]
    exact ⟨(by decide : 0 < lineClocks), Nat.mod_lt _ (by decide)⟩
  · rename_i inLine
    have clock : lcd.clock + clocks < lineClocks := by
      have reached : lcd.clock + clocks ≠ lineClocks := inLine
      omega
    exact ⟨clock, line⟩

/-- Whatever the mode was before, a move leaves the one that belongs to the new position. -/
theorem mode_move (lcd : Lcd) (clocks : Nat) (bus : Bus) :
    (lcd.move clocks bus).unit.mode = (lcd.move clocks bus).unit.modeAt := by
  rw [unit_move]
  rfl

/-- The move also makes the mode agree, whether it did before or not. -/
theorem Settled.move (settled : lcd.Settled) {clocks : Nat} (bus : Bus)
    (part : clocks ≤ lcd.boundary - lcd.clock) : (lcd.move clocks bus).unit.Settled :=
  ⟨settled.toSound.move bus part, lcd.mode_move clocks bus⟩

theorem frames_nextLine (lcd : Lcd) (bus : Bus) :
    lcd.frames ≤ (lcd.nextLine bus).unit.frames := by
  rw [unit_nextLine]
  dsimp only
  split <;> omega

theorem frames_move (lcd : Lcd) (clocks : Nat) (bus : Bus) :
    lcd.frames ≤ (lcd.move clocks bus).unit.frames := by
  rw [unit_move]
  dsimp only
  split
  · exact frames_nextLine { lcd with clock := lcd.clock + clocks } bus
  · exact Nat.le_refl _

/-- One part of a run, and the run that is left. -/
theorem Sound.run_eq (sound : lcd.Sound) {clocks : Nat} (left : 0 < clocks) (bus : Bus)
    (requests : UInt8) :
    lcd.run clocks bus requests =
      let moved := lcd.move (min clocks (lcd.boundary - lcd.clock)) bus
      moved.unit.run (clocks - min clocks (lcd.boundary - lcd.clock)) moved.bus
        (requests ||| moved.requests) := by
  rw [run, if_pos ⟨left, sound.clock_lt_boundary⟩]

theorem run_zero (lcd : Lcd) (bus : Bus) (requests : UInt8) :
    lcd.run 0 bus requests = { unit := lcd, bus, requests } := by
  rw [run, if_neg (by omega)]

/-- What every part of a run keeps, the run keeps. -/
theorem Sound.run_induction {motive : Lcd → Bus → Prop} (sound : lcd.Sound)
    (part : ∀ lcd bus clocks, lcd.Sound → clocks ≤ lcd.boundary - lcd.clock → motive lcd bus →
      motive (lcd.move clocks bus).unit (lcd.move clocks bus).bus)
    (clocks : Nat) (requests : UInt8) (holds : motive lcd bus) :
    motive (lcd.run clocks bus requests).unit (lcd.run clocks bus requests).bus ∧
      (lcd.run clocks bus requests).unit.Sound := by
  induction clocks using Nat.strongRecOn generalizing lcd bus requests with
  | _ clocks ih =>
    rcases Nat.eq_zero_or_pos clocks with none | some
    · rw [none, run_zero]
      exact ⟨holds, sound⟩
    · have room := sound.clock_lt_boundary
      have within := Nat.min_le_right clocks (lcd.boundary - lcd.clock)
      have next := part lcd bus _ sound within holds
      rw [sound.run_eq some]
      exact ih _ (by omega) (sound.move bus within) _ next

theorem Sound.run (sound : lcd.Sound) (clocks : Nat) (bus : Bus) (requests : UInt8) :
    (lcd.run clocks bus requests).unit.Sound :=
  (sound.run_induction (motive := fun _ _ => True) (fun _ _ _ _ _ _ => trivial) clocks requests
    trivial).2

/-- A run from a mode that agrees ends in one. Without clocks there is no part to make it agree, so
the start must. -/
theorem Settled.run (settled : lcd.Settled) (clocks : Nat) (bus : Bus) (requests : UInt8) :
    (lcd.run clocks bus requests).unit.Settled := by
  have kept : (lcd.run clocks bus requests).unit.mode = (lcd.run clocks bus requests).unit.modeAt :=
    (settled.run_induction (motive := fun later _ => later.mode = later.modeAt)
      (fun later bus clocks _ _ _ => later.mode_move clocks bus) clocks requests settled.mode).1
  exact ⟨settled.toSound.run clocks bus requests, kept⟩

/-- A parked unit is at the top of the picture; a running one is covered by the run. -/
theorem Sound.step (sound : lcd.Sound) (clocks : Nat) (bus : Bus) :
    (lcd.step clocks bus).unit.Sound := by
  unfold Lcd.step
  split
  · exact ⟨(by decide : 0 < lineClocks), (by decide : 0 < lines)⟩
  · exact sound.run clocks bus 0

theorem Sound.frames_run (sound : lcd.Sound) (clocks : Nat) (bus : Bus) (requests : UInt8) :
    lcd.frames ≤ (lcd.run clocks bus requests).unit.frames :=
  (sound.run_induction (motive := fun later _ => lcd.frames ≤ later.frames)
    (fun later bus clocks _ _ counted => Nat.le_trans counted (later.frames_move clocks bus))
    clocks requests (Nat.le_refl _)).1

theorem Sound.frames_step (sound : lcd.Sound) (clocks : Nat) (bus : Bus) :
    lcd.frames ≤ (lcd.step clocks bus).unit.frames := by
  unfold Lcd.step
  split
  · exact Nat.le_refl _
  · exact sound.frames_run clocks bus 0

end Handheld.Lcd
