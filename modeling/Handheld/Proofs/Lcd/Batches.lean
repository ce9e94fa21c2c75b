import Mathlib.Algebra.Ring.Nat
import Handheld.Proofs.Cartridge.Program
import Handheld.Proofs.Lcd.Position

/-!
# Clocks in batches

The scheduler hands clocks to the LCD in parts of any size: an instruction's at a time, a service's,
or the four of a halted processor. A run goes from boundary to boundary, so a part may end inside a
mode, on a boundary, or go over many lines. `step_independent_of_batches` says that nothing depends
on it: what passes in parts leaves the same unit and the same bus as what passes at once, and the
parts ask for the same interrupts together.
-/
namespace Handheld.Lcd

/-- Lets clocks pass in several steps, one after the other, and gathers the requests. -/
def steps (lcd : Lcd) (bus : Bus) : List Nat → VideoStep Lcd
  | [] => { unit := lcd, bus, requests := 0 }
  | clocks :: rest =>
    let first := lcd.step clocks bus
    let later := first.unit.steps first.bus rest
    { later with requests := first.requests ||| later.requests }

variable {lcd : Lcd} {bus : Bus}

/-! ## Clocks that reach no boundary -/

/-- The position some clocks later in the same line. -/
def advance (lcd : Lcd) (clocks : Nat) : Lcd := { lcd with clock := lcd.clock + clocks }

theorem modeAt_advance {clocks : Nat} (within : lcd.clock + clocks < lcd.boundary) :
    (lcd.advance clocks).modeAt = lcd.modeAt := by
  unfold boundary at within
  unfold modeAt advance at *
  dsimp only
  by_cases blank : height ≤ lcd.line
  · rw [if_pos blank, if_pos blank]
  · simp only [if_neg blank] at within ⊢
    by_cases scanning : lcd.clock < scanEnd
    · simp only [if_pos scanning] at within ⊢
      rw [if_pos within]
    · simp only [if_neg scanning] at within ⊢
      rw [if_neg (by omega)]
      by_cases moving : lcd.clock < transferEnd
      · simp only [if_pos moving] at within ⊢
        rw [if_pos within]
      · rw [if_neg moving, if_neg (by omega)]

theorem boundary_advance {clocks : Nat} (within : lcd.clock + clocks < lcd.boundary) :
    (lcd.advance clocks).boundary = lcd.boundary := by
  rw [boundary, boundary, modeAt_advance within]

theorem Settled.advance (settled : lcd.Settled) {clocks : Nat}
    (within : lcd.clock + clocks < lcd.boundary) : (lcd.advance clocks).Settled := by
  have bound := lcd.boundary_le
  have clock : lcd.clock + clocks < lineClocks := by omega
  exact ⟨⟨clock, settled.line⟩, settled.mode.trans (modeAt_advance within).symm⟩

/-- Without a boundary nothing happens but that the clock moves on. -/
theorem Settled.move_within (settled : lcd.Settled) {clocks : Nat}
    (within : lcd.clock + clocks < lcd.boundary) (bus : Bus) :
    lcd.move clocks bus = { unit := lcd.advance clocks, bus, requests := 0 } := by
  have bound := lcd.boundary_le
  have inLine : lcd.clock + clocks ≠ lineClocks := by omega
  have agrees : (lcd.advance clocks).modeAt = lcd.mode :=
    (modeAt_advance within).trans settled.mode.symm
  unfold Lcd.move
  dsimp only
  rw [if_neg inLine]
  exact if_pos agrees

theorem move_advance (lcd : Lcd) (first second : Nat) (bus : Bus) :
    (lcd.advance first).move second bus = lcd.move (first + second) bus := by
  unfold move advance
  dsimp only
  rw [Nat.add_assoc]

/-- A run that reaches no boundary is one move in which nothing begins. -/
theorem Settled.run_within (settled : lcd.Settled) {clocks : Nat}
    (within : lcd.clock + clocks < lcd.boundary) (bus : Bus) (requests : UInt8) :
    lcd.run clocks bus requests = { unit := lcd.advance clocks, bus, requests } := by
  rcases Nat.eq_zero_or_pos clocks with rfl | left
  · exact run_zero lcd bus requests
  · have whole : min clocks (lcd.boundary - lcd.clock) = clocks := by omega
    rw [settled.run_eq left, whole, settled.move_within within]
    dsimp only
    rw [Nat.sub_self, run_zero, UInt8.or_zero]

/-- A run may be started where its first clocks lead. -/
theorem Settled.run_advance (settled : lcd.Settled) {first : Nat}
    (within : lcd.clock + first < lcd.boundary) (second : Nat) (bus : Bus) (requests : UInt8) :
    (lcd.advance first).run second bus requests = lcd.run (first + second) bus requests := by
  have ahead := settled.advance within
  rcases Nat.eq_zero_or_pos second with rfl | left
  · rw [run_zero]
    exact (settled.run_within within bus requests).symm
  · have room : (lcd.advance first).boundary - (lcd.advance first).clock =
        lcd.boundary - lcd.clock - first := by
      rw [boundary_advance within]
      exact Nat.sub_add_eq _ _ _
    have part : first + min second (lcd.boundary - lcd.clock - first) =
        min (first + second) (lcd.boundary - lcd.clock) := by omega
    have rest : second - min second (lcd.boundary - lcd.clock - first) =
        first + second - min (first + second) (lcd.boundary - lcd.clock) := by omega
    rw [ahead.run_eq left, settled.run_eq (by omega), room, move_advance, part, rest]

/-! ## Runs in two parts -/

/-- By induction on the clocks of the first part: if they stop short of the boundary, the run may be
started again there, and otherwise both runs begin with the same part, up to the boundary. -/
theorem Settled.run_add (settled : lcd.Settled) (first second : Nat) (bus : Bus)
    (requests : UInt8) :
    lcd.run (first + second) bus requests =
      let stopped := lcd.run first bus requests
      stopped.unit.run second stopped.bus stopped.requests := by
  induction first using Nat.strongRecOn generalizing lcd bus requests with
  | _ first ih =>
    have ahead := settled.clock_lt_boundary
    by_cases within : lcd.clock + first < lcd.boundary
    · rw [settled.run_within within]
      exact (settled.run_advance within second bus requests).symm
    · have part : min first (lcd.boundary - lcd.clock) = lcd.boundary - lcd.clock := by omega
      have partWhole : min (first + second) (lcd.boundary - lcd.clock) =
          lcd.boundary - lcd.clock := by omega
      have rest : first + second - (lcd.boundary - lcd.clock) =
          first - (lcd.boundary - lcd.clock) + second := by omega
      have next := settled.move bus (Nat.le_refl (lcd.boundary - lcd.clock))
      rw [settled.run_eq (by omega), settled.run_eq (by omega), part, partWhole, rest]
      exact ih _ (by omega) next _ _

/-- The requests made before a run are handed through. -/
theorem Sound.run_requests (sound : lcd.Sound) (clocks : Nat) (bus : Bus) (requests : UInt8) :
    lcd.run clocks bus requests =
      let plain := lcd.run clocks bus 0
      { plain with requests := requests ||| plain.requests } := by
  induction clocks using Nat.strongRecOn generalizing lcd bus requests with
  | _ clocks ih =>
    rcases Nat.eq_zero_or_pos clocks with rfl | left
    · simp only [run_zero, UInt8.or_zero]
    · have ahead := sound.clock_lt_boundary
      have within := Nat.min_le_right clocks (lcd.boundary - lcd.clock)
      have next := sound.move bus within
      have later := ih (clocks - min clocks (lcd.boundary - lcd.clock)) (by omega) next
        (lcd.move (min clocks (lcd.boundary - lcd.clock)) bus).bus
      rw [sound.run_eq left, sound.run_eq left]
      dsimp only
      rw [later, later (0 ||| _), UInt8.zero_or]
      simp only [UInt8.or_assoc]

/-! ## Steps while the screen is on -/

/-- Whether the screen is on. -/
def On (bus : Bus) : Prop := bus.io.read Bus.lcdControl &&& 0x80 ≠ 0

theorem step_of_on (lcd : Lcd) (on : On bus) (clocks : Nat) :
    lcd.step clocks bus = lcd.run clocks bus 0 := if_neg on

/-- A step does not turn the screen off. -/
theorem Sound.on_step (sound : lcd.Sound) (on : On bus) (clocks : Nat) :
    On (lcd.step clocks bus).bus := by
  have untouched : Bus.lcdControl ∉ storedCells := by decide
  have kept : (lcd.run clocks bus 0).bus.io.read Bus.lcdControl = bus.io.read Bus.lcdControl :=
    (sound.run_induction
      (motive := fun _ later => later.io.read Bus.lcdControl = bus.io.read Bus.lcdControl)
      (fun later bus clocks _ _ same => (io_move untouched later clocks bus).trans same)
      clocks 0 rfl).1
  unfold On
  rw [step_of_on lcd on, kept]
  exact on

theorem Settled.step (settled : lcd.Settled) (on : On bus) (clocks : Nat) :
    (lcd.step clocks bus).unit.Settled := by
  rw [step_of_on lcd on]
  exact settled.run clocks bus 0

theorem Settled.step_add (settled : lcd.Settled) (on : On bus) (first second : Nat) :
    lcd.step (first + second) bus =
      let stopped := lcd.step first bus
      let final := stopped.unit.step second stopped.bus
      { final with requests := stopped.requests ||| final.requests } := by
  have still := settled.on_step on first
  have stopped := settled.step on first
  dsimp only
  rw [step_of_on _ still, ← stopped.run_requests, step_of_on lcd on, step_of_on lcd on]
  exact settled.run_add first second bus 0

/-- Any number of steps for one, by induction on the list of parts. -/
theorem Settled.steps_eq (settled : lcd.Settled) (on : On bus) (batches : List Nat) :
    lcd.steps bus batches = lcd.step batches.sum bus := by
  induction batches generalizing lcd bus with
  | nil => rw [List.sum_nil, step_of_on lcd on, run_zero, steps]
  | cons clocks rest ih =>
    have later := ih (settled.step on clocks) (settled.on_step on clocks)
    rw [steps, List.sum_cons, settled.step_add on, later]

/-- While the screen is on, clocks may be handed over in parts of any size: the unit, the whole bus
and the requests taken together are those of one step, for two parts, for any number of them, and
for single clocks. Parts of no clocks are allowed. What programs do between two steps is not part of
this. -/
theorem step_independent_of_batches (settled : lcd.Settled) (on : On bus) :
    (∀ first second,
      let stopped := lcd.step first bus
      let final := stopped.unit.step second stopped.bus
      let whole := lcd.step (first + second) bus
      final.unit = whole.unit ∧ final.bus = whole.bus ∧
        stopped.requests ||| final.requests = whole.requests) ∧
      (∀ batches, lcd.steps bus batches = lcd.step batches.sum bus) ∧
      ∀ clocks, lcd.steps bus (List.replicate clocks 1) = lcd.step clocks bus := by
  refine ⟨?two, settled.steps_eq on, ?single⟩
  case two =>
    intro first second
    dsimp only
    rw [settled.step_add on first second]
    exact ⟨rfl, rfl, rfl⟩
  case single =>
    intro clocks
    rw [settled.steps_eq on, List.sum_replicate_nat, Nat.mul_one]

/-- A screen that is on and asks for all its interrupts, over a copy of one block per line. -/
def copying : Bus where
  cartridge := .ofProgram (Array.replicate 0x100 0x5a) #[]
  color := true
  io := ((Block.filled 0x80 0).write Bus.lcdControl 0x80).write Bus.lcdStatus 0x78
  copyActive := true

/-- Split inside a mode, on the boundary where a block is copied, on the last clock of the picture's
last line and beyond it. -/
theorem step_independent_of_batches_copying :
    let last : Lcd := { clock := 250, line := 143, mode := .transfer }
    last.Settled ∧ On copying ∧
      last.steps copying [1, 1, 203, 1, 3] = last.step 209 copying := by
  intro last
  have settled : last.Settled := ⟨⟨by decide, by decide⟩, by decide⟩
  have on : On copying := by
    have shown : copying.io.read Bus.lcdControl &&& 0x80 = 0x80 := by decide +kernel
    unfold On
    rw [shown]
    decide
  obtain ⟨_, batches, _⟩ := step_independent_of_batches settled on
  exact ⟨settled, on, batches [1, 1, 203, 1, 3]⟩

end Handheld.Lcd
