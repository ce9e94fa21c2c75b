import Mathlib.Algebra.Order.Interval.Finset.SuccPred
import Mathlib.Data.Nat.SuccPred
import Mathlib.Order.Interval.Finset.Nat
import Handheld.Proofs.Bus.Requests
import Handheld.Proofs.Lcd.Registers

/-!
# A step in closed form

Moments are counted from the start of a picture and on through the pictures that follow. A step goes
over the moments after the one it starts at, and what it leaves can be told from those alone: where
it ends, how many vertical blanks began, and which interrupts were asked for. A step of many clocks
is as many steps of one clock, so one clock is enough to look at.
-/
namespace Handheld.Lcd

/-- The clocks of one picture, the vertical blank included. -/
abbrev frameClocks : Nat := lines * lineClocks

/-- The moment, within the picture, that the unit is at. -/
def position (lcd : Lcd) : Nat := lcd.line * lineClocks + lcd.clock

/-- At this moment the given line of some picture reaches the given clock. Moments go on past the
end of a picture, so that long steps need no counting around. -/
def IsAt (line clock moment : Nat) : Prop := moment % frameClocks = line * lineClocks + clock

instance (line clock : Nat) : DecidablePred (IsAt line clock) :=
  fun moment => inferInstanceAs (Decidable (moment % frameClocks = line * lineClocks + clock))

/-- The program enabled an interrupt of the status register. -/
def Enabled (bus : Bus) (bit : UInt8) : Prop := bus.io.read Bus.lcdStatus &&& bit ≠ 0

/-- An enabled reason to interrupt comes up at this moment: the line compared with begins, a line
of the picture begins, the vertical blank begins, or a line of the picture comes to rest. -/
def Asks (bus : Bus) (moment : Nat) : Prop :=
  (Enabled bus 0x40 ∧ IsAt (bus.io.read Bus.lineCompare).toNat 0 moment) ∨
    (Enabled bus 0x20 ∧ ∃ line < height, IsAt line 0 moment) ∨
    (Enabled bus 0x10 ∧ IsAt height 0 moment) ∨
    (Enabled bus 0x08 ∧ ∃ line < height, IsAt line transferEnd moment)

variable {lcd : Lcd} {bus : Bus}

/-! ## Moments -/

theorem Sound.position_lt (sound : lcd.Sound) : lcd.position < frameClocks := by
  have clock : lcd.clock < 456 := sound.clock
  have line : lcd.line < 154 := sound.line
  show lcd.line * 456 + lcd.clock < 154 * 456
  omega

theorem Sound.isAt_position (sound : lcd.Sound) {line clock : Nat} (inLine : clock < lineClocks) :
    IsAt line clock lcd.position ↔ lcd.line = line ∧ lcd.clock = clock := by
  have place : lcd.clock < 456 := sound.clock
  have bound : clock < 456 := inLine
  rw [IsAt, Nat.mod_eq_of_lt sound.position_lt]
  show lcd.line * 456 + lcd.clock = line * 456 + clock ↔ lcd.line = line ∧ lcd.clock = clock
  omega

theorem isAt_mod (line clock moment : Nat) :
    IsAt line clock (moment % frameClocks) ↔ IsAt line clock moment := by
  rw [IsAt, IsAt, Nat.mod_mod]

theorem asks_mod (bus : Bus) (moment : Nat) :
    Asks bus (moment % frameClocks) ↔ Asks bus moment := by
  simp only [Asks, isAt_mod]

/-- The four reasons, from the unit's own counters. -/
theorem Sound.asks_position (sound : lcd.Sound) (bus : Bus) :
    Asks bus lcd.position ↔
      (Enabled bus 0x40 ∧ lcd.line = (bus.io.read Bus.lineCompare).toNat ∧ lcd.clock = 0) ∨
        (Enabled bus 0x20 ∧ lcd.line < height ∧ lcd.clock = 0) ∨
        (Enabled bus 0x10 ∧ lcd.line = height ∧ lcd.clock = 0) ∨
        (Enabled bus 0x08 ∧ lcd.line < height ∧ lcd.clock = transferEnd) := by
  have within {clock : Nat} (inLine : clock < lineClocks) :
      (∃ line < height, IsAt line clock lcd.position) ↔ lcd.line < height ∧ lcd.clock = clock := by
    simp only [sound.isAt_position inLine]
    grind
  have start : 0 < lineClocks := by decide
  rw [Asks, within start, within (by decide), sound.isAt_position start, sound.isAt_position start]

/-! ## One clock -/

/-- What a step stores in the status is none of the program's choices. -/
theorem SameChoices.enabled {later : Bus} (same : SameChoices bus later) {bit : UInt8}
    (own : enableMask &&& bit = bit) : Enabled later bit ↔ Enabled bus bit := by
  unfold Enabled
  rw [← own, ← UInt8.and_assoc, ← UInt8.and_assoc, same.enables]

theorem SameChoices.asks {later : Bus} (same : SameChoices bus later) (moment : Nat) :
    Asks later moment ↔ Asks bus moment := by
  unfold Asks
  rw [same.compare, same.enabled (by decide), same.enabled (by decide), same.enabled (by decide),
    same.enabled (by decide)]

/-- At least one clock is left to the boundary, so that one clock is a single part. -/
theorem Sound.one_le (sound : lcd.Sound) : 1 ≤ lcd.boundary - lcd.clock :=
  Nat.sub_pos_of_lt sound.clock_lt_boundary

theorem Settled.step_one (settled : lcd.Settled) (on : On bus) :
    lcd.step 1 bus = lcd.move 1 bus := by
  rw [step_of_on lcd on, settled.run_eq (by decide), Nat.min_eq_left settled.one_le]
  dsimp only
  rw [run_zero, UInt8.zero_or]

theorem Sound.position_move_one (sound : lcd.Sound) (bus : Bus) :
    (lcd.move 1 bus).unit.position = (lcd.position + 1) % frameClocks := by
  have clock : lcd.clock < 456 := sound.clock
  have line : lcd.line < 154 := sound.line
  rw [unit_move]
  dsimp only
  by_cases last : lcd.clock + 1 = 456
  · rw [if_pos last, unit_nextLine]
    show (lcd.line + 1) % 154 * 456 + 0 = (lcd.line * 456 + lcd.clock + 1) % (154 * 456)
    omega
  · rw [if_neg last]
    show lcd.line * 456 + (lcd.clock + 1) = (lcd.line * 456 + lcd.clock + 1) % (154 * 456)
    omega

/-- These are the requests of a stretch in which a vertical blank began or did not, and the status
asked or did not. -/
structure StandsFor (requests : UInt8) (blank asked : Prop) : Prop where
  vblank : Interrupt.vblank.isIn requests = true ↔ blank
  lcdStatus : Interrupt.lcdStatus.isIn requests = true ↔ asked
  other : requests &&& ~~~(Interrupt.vblank.bit ||| Interrupt.lcdStatus.bit) = 0

namespace StandsFor

variable {first second : UInt8} {blank asked blank' asked' : Prop}

theorem congr (requested : StandsFor first blank asked) (blanks : blank ↔ blank')
    (asks : asked ↔ asked') : StandsFor first blank' asked' :=
  ⟨requested.vblank.trans blanks, requested.lcdStatus.trans asks, requested.other⟩

theorem or (left : StandsFor first blank asked) (right : StandsFor second blank' asked') :
    StandsFor (first ||| second) (blank ∨ blank') (asked ∨ asked') := by
  refine ⟨?vblank, ?lcdStatus, ?other⟩
  case vblank => rw [Interrupt.isIn_or, Bool.or_eq_true, left.vblank, right.vblank]
  case lcdStatus => rw [Interrupt.isIn_or, Bool.or_eq_true, left.lcdStatus, right.lcdStatus]
  case other => rw [or_and_byte, left.other, right.other, UInt8.or_zero]

theorem none : StandsFor 0 False False := by
  constructor <;> decide

theorem ite_vblank (holds : Prop) [Decidable holds] :
    StandsFor (if holds then Interrupt.vblank.bit else 0) holds False := by
  have bit : StandsFor Interrupt.vblank.bit True False := by constructor <;> decide
  by_cases it : holds
  · rw [if_pos it]
    exact bit.congr (iff_of_true trivial it) Iff.rfl
  · rw [if_neg it]
    exact none.congr (iff_of_false id it) Iff.rfl

theorem ite_lcdStatus (holds : Prop) [Decidable holds] :
    StandsFor (if holds then Interrupt.lcdStatus.bit else 0) False holds := by
  have bit : StandsFor Interrupt.lcdStatus.bit False True := by constructor <;> decide
  by_cases it : holds
  · rw [if_pos it]
    exact bit.congr Iff.rfl (iff_of_true trivial it)
  · rw [if_neg it]
    exact none.congr Iff.rfl (iff_of_false id it)

end StandsFor

/-- Within a line, the mode that begins asks only where the line comes to rest. -/
theorem Settled.rest_asks (settled : lcd.Settled) (bus : Bus) :
    ((lcd.advance 1).modeAt ≠ lcd.mode ∧ Enabled bus (lcd.advance 1).modeAt.enableBit) ↔
      Enabled bus 0x08 ∧ lcd.line < height ∧ lcd.clock + 1 = transferEnd := by
  have none : ¬ Enabled bus 0 := by simp [Enabled]
  rw [settled.mode]
  unfold modeAt Lcd.advance
  dsimp only
  by_cases blank : height ≤ lcd.line
  · simp [blank]
  · simp only [if_neg blank]
    by_cases scanning : lcd.clock + 1 < scanEnd
    · have before : lcd.clock < scanEnd := by omega
      simp only [if_pos scanning, if_pos before]
      grind
    · by_cases moving : lcd.clock + 1 < transferEnd
      · grind [Mode.enableBit]
      · grind [Mode.enableBit]

/-- Within a line neither a line nor a blank begins, so the mode alone may ask. -/
theorem Settled.standsFor_in_line (settled : lcd.Settled) (bus : Bus)
    (inLine : lcd.clock + 1 < lineClocks) :
    StandsFor (lcd.move 1 bus).requests (IsAt height 0 (lcd.move 1 bus).unit.position)
      (Asks bus (lcd.move 1 bus).unit.position) := by
  have moved := lcd.move_in_line bus (Nat.ne_of_lt inLine)
  have sound : (lcd.advance 1).Sound := ⟨inLine, settled.line⟩
  have place : (lcd.move 1 bus).unit.position = (lcd.advance 1).position := by
    rw [moved, unit_showMode]
    rfl
  have asked := StandsFor.ite_lcdStatus ((lcd.advance 1).modeAt ≠ (lcd.advance 1).mode ∧
    bus.io.read Bus.lcdStatus &&& (lcd.advance 1).modeAt.enableBit ≠ 0)
  rw [← requests_showMode, ← moved] at asked
  rw [place, sound.isAt_position (by decide), sound.asks_position]
  have late : (lcd.advance 1).clock ≠ 0 := Nat.succ_ne_zero lcd.clock
  refine asked.congr ?_ ?_
  · simp only [late, and_false]
  · simp only [late, and_false, false_or]
    exact settled.rest_asks bus

/-- At the start of a line, the mode that begins asks in the picture and at its end. -/
theorem Settled.start_asks (settled : lcd.Settled) (last : lcd.clock + 1 = lineClocks) (bus : Bus) :
    let begun := (lcd.advance 1).begun
    (begun.modeAt ≠ lcd.mode ∧ Enabled bus begun.modeAt.enableBit) ↔
      (Enabled bus 0x20 ∧ begun.line < height) ∨ (Enabled bus 0x10 ∧ begun.line = height) := by
  intro begun
  have line : lcd.line < 154 := settled.line
  have next : begun.line = (lcd.line + 1) % 154 := rfl
  have clock : lcd.clock = 455 := Nat.succ.inj last
  have ended : ¬ lcd.clock < transferEnd := clock ▸ by decide
  have scanned : ¬ lcd.clock < scanEnd := clock ▸ by decide
  have before : lcd.mode = if 144 ≤ lcd.line then .vblank else .hblank := by
    rw [settled.mode, modeAt, if_neg scanned, if_neg ended]
  have after : begun.modeAt = if 144 ≤ begun.line then .vblank else .objectScan := by
    have start : begun.clock < scanEnd := (by decide : 0 < scanEnd)
    rw [modeAt, if_pos start]
  rw [before, after]
  by_cases inPicture : begun.line < 144
  · have later : begun.line ≠ 144 := Nat.ne_of_lt inPicture
    rw [if_neg (Nat.not_le.mpr inPicture)]
    split <;> simp [Mode.enableBit, inPicture, later]
  · rw [if_pos (Nat.not_lt.mp inPicture)]
    by_cases drawn : lcd.line = 143
    · have blank : begun.line = 144 := by omega
      simp [Mode.enableBit, drawn, blank]
    · have already : 144 ≤ lcd.line := by omega
      have past : begun.line ≠ 144 := by omega
      simp [already, past, inPicture]

/-- At the end of a line the comparison and the mode that begins may ask, and the vertical blank
asks in front of the line that it begins with. -/
theorem standsFor_line_end (lcd : Lcd) (bus : Bus) (last : lcd.clock + 1 = lineClocks) :
    let begun := (lcd.advance 1).begun
    StandsFor (lcd.move 1 bus).requests (begun.line = height)
      ((Enabled bus 0x40 ∧ begun.line = (bus.io.read Bus.lineCompare).toNat) ∨
        (begun.modeAt ≠ lcd.mode ∧ Enabled bus begun.modeAt.enableBit)) := by
  intro begun
  have number : begun.line < 154 := Nat.mod_lt _ (by decide)
  have own : enableMask &&& begun.modeAt.enableBit = begun.modeAt.enableBit := by
    cases begun.modeAt <;> rfl
  have compared : (UInt8.ofNat begun.line = bus.io.read Bus.lineCompare ∧ Enabled bus 0x40) ↔
      Enabled bus 0x40 ∧ begun.line = (bus.io.read Bus.lineCompare).toNat := by
    rw [← UInt8.toNat_inj, UInt8.toNat_ofNat', Nat.mod_eq_of_lt (by omega)]
    exact and_comm
  have enabled := (begun.sameChoices_showLine bus).enabled own
  have parts := ((StandsFor.ite_vblank (begun.line = height)).or
    (StandsFor.ite_lcdStatus (UInt8.ofNat begun.line = bus.io.read Bus.lineCompare ∧
      bus.io.read Bus.lcdStatus &&& 0x40 ≠ 0))).or
    (StandsFor.ite_lcdStatus (begun.modeAt ≠ begun.mode ∧
      (begun.showLine bus).bus.io.read Bus.lcdStatus &&& begun.modeAt.enableBit ≠ 0))
  rw [← requests_showLine, ← requests_showMode] at parts
  rw [move_line_end lcd bus last, nextLine_eq]
  dsimp only
  rw [unit_showLine]
  refine parts.congr (by simp only [or_false]) ?_
  rw [false_or]
  exact or_congr compared (and_congr_right fun _ => enabled)

/-- The requests at the start of a line, put together from the comparison, the mode and the blank.
Behind the picture the mode is new only in the line that follows its last one. -/
theorem Settled.standsFor_line_start (settled : lcd.Settled) (bus : Bus)
    (last : lcd.clock + 1 = lineClocks) :
    StandsFor (lcd.move 1 bus).requests (IsAt height 0 (lcd.move 1 bus).unit.position)
      (Asks bus (lcd.move 1 bus).unit.position) := by
  have sound := (settled.move bus settled.one_le).toSound
  have line : (lcd.move 1 bus).unit.line = (lcd.advance 1).begun.line := by
    rw [move_line_end lcd bus last, nextLine_eq]
    dsimp only
    rw [unit_showMode, unit_showLine]
  have clock : (lcd.move 1 bus).unit.clock = 0 := by
    rw [move_line_end lcd bus last, nextLine_eq]
    dsimp only
    rw [unit_showMode, unit_showLine]
    rfl
  have early : 0 ≠ transferEnd := by decide
  rw [sound.isAt_position (by decide), sound.asks_position, line, clock]
  refine (lcd.standsFor_line_end bus last).congr (by simp only [and_true]) ?_
  simp only [early, and_true, and_false, or_false]
  exact or_congr_right (settled.start_asks last bus)

/-- One clock asks for what the moment that it reaches asks for. -/
theorem Settled.standsFor_move_one (settled : lcd.Settled) (bus : Bus) :
    StandsFor (lcd.move 1 bus).requests (IsAt height 0 (lcd.position + 1))
      (Asks bus (lcd.position + 1)) := by
  rw [← isAt_mod, ← asks_mod, ← settled.position_move_one bus]
  rcases Nat.lt_or_eq_of_le settled.clock with inLine | last
  · exact settled.standsFor_in_line bus inLine
  · exact settled.standsFor_line_start bus last

theorem Sound.frames_move_one (sound : lcd.Sound) (bus : Bus) :
    (lcd.move 1 bus).unit.frames =
      lcd.frames + if IsAt height 0 (lcd.position + 1) then 1 else 0 := by
  have clock : lcd.clock < 456 := sound.clock
  have line : lcd.line < 154 := sound.line
  have begins : IsAt height 0 (lcd.position + 1) ↔
      lcd.clock + 1 = 456 ∧ (lcd.line + 1) % 154 = 144 := by
    show (lcd.line * 456 + lcd.clock + 1) % (154 * 456) = 144 * 456 + 0 ↔ _
    omega
  rw [unit_move]
  dsimp only
  by_cases last : lcd.clock + 1 = 456
  · rw [if_pos last, unit_nextLine]
    dsimp only
    by_cases blank : (lcd.line + 1) % 154 = 144
    · rw [if_pos blank, if_pos (begins.mpr ⟨last, blank⟩)]
    · rw [if_neg blank, if_neg fun both => blank (begins.mp both).2]
      rfl
  · rw [if_neg last, if_neg fun both => last (begins.mp both).1]
    rfl

/-- The line register shows the line that the unit is in. -/
def Shown (lcd : Lcd) (bus : Bus) : Prop := bus.io.read Bus.line = UInt8.ofNat lcd.line

theorem shown_showMode (shown : Shown lcd bus) :
    Shown (lcd.showMode bus).unit (lcd.showMode bus).bus := by
  rw [Shown, line_showMode, unit_showMode]
  exact shown

theorem shown_nextLine (lcd : Lcd) (bus : Bus) :
    Shown (lcd.nextLine bus).unit (lcd.nextLine bus).bus := by
  rw [nextLine_eq]
  dsimp only
  rw [Shown, line_showLine, unit_showLine]

theorem shown_move (clocks : Nat) (shown : Shown lcd bus) :
    Shown (lcd.move clocks bus).unit (lcd.move clocks bus).bus := by
  simp only [move]
  split
  · exact shown_showMode (shown_nextLine _ bus)
  · exact shown_showMode shown

/-! ## Any number of clocks -/

/-- What the single clocks of a step keep, the step keeps. Each of them finds the unit where the
clocks before it led, and the program's choices as they were. -/
theorem Settled.step_induction {motive : Nat → VideoStep Lcd → Prop} (settled : lcd.Settled)
    (on : On bus) (start : motive 0 { unit := lcd, bus, requests := 0 })
    (next : ∀ clocks before, before.unit.Settled →
      before.unit.position = (lcd.position + clocks) % frameClocks → SameChoices bus before.bus →
      motive clocks before →
      motive (clocks + 1)
        (let moved := before.unit.move 1 before.bus
        { moved with requests := before.requests ||| moved.requests }))
    (clocks : Nat) :
    (lcd.step clocks bus).unit.position = (lcd.position + clocks) % frameClocks ∧
      SameChoices bus (lcd.step clocks bus).bus ∧ motive clocks (lcd.step clocks bus) := by
  induction clocks with
  | zero =>
    rw [step_of_on lcd on, run_zero]
    have place : (lcd.position + 0) % frameClocks = lcd.position := by
      rw [Nat.add_zero, Nat.mod_eq_of_lt settled.position_lt]
    exact ⟨place.symm, .refl bus, start⟩
  | succ clocks ih =>
    obtain ⟨place, same, holds⟩ := ih
    have between := settled.step on clocks
    have still := settled.on_step on clocks
    have one : lcd.step (clocks + 1) bus =
        let before := lcd.step clocks bus
        let moved := before.unit.move 1 before.bus
        { moved with requests := before.requests ||| moved.requests } := by
      rw [settled.step_add on clocks 1]
      dsimp only
      rw [between.step_one still]
    rw [one]
    refine ⟨?place, same.trans (sameChoices_move _ _ 1), next clocks _ between place same holds⟩
    dsimp only
    rw [between.position_move_one, place, Nat.mod_add_mod, Nat.add_assoc]

theorem passed_succ (start clocks : Nat) :
    Finset.Ioc start (start + (clocks + 1)) =
      insert (start + clocks + 1) (Finset.Ioc start (start + clocks)) :=
  (Finset.insert_Ioc_right_eq_Ioc_add_one (Nat.le_add_right start clocks)).symm

theorem exists_passed_succ (start clocks : Nat) (holds : Nat → Prop) :
    (∃ moment ∈ Finset.Ioc start (start + (clocks + 1)), holds moment) ↔
      (∃ moment ∈ Finset.Ioc start (start + clocks), holds moment) ∨
        holds (start + clocks + 1) := by
  rw [passed_succ, Finset.exists_mem_insert]
  exact or_comm

theorem Settled.frames_step_eq (settled : lcd.Settled) (on : On bus) (clocks : Nat) :
    (lcd.step clocks bus).unit.frames = lcd.frames +
      ((Finset.Ioc lcd.position (lcd.position + clocks)).filter (IsAt height 0)).card := by
  refine (settled.step_induction
    (motive := fun clocks after => after.unit.frames = lcd.frames +
      ((Finset.Ioc lcd.position (lcd.position + clocks)).filter (IsAt height 0)).card)
    on ?start ?next clocks).2.2
  case start => simp
  case next =>
    intro clocks before between place _ counted
    have ahead : lcd.position + clocks + 1 ∉
        (Finset.Ioc lcd.position (lcd.position + clocks)).filter (IsAt height 0) := by
      simp
    have moment : IsAt height 0 (before.unit.position + 1) ↔
        IsAt height 0 (lcd.position + clocks + 1) := by
      rw [place, ← isAt_mod, Nat.mod_add_mod, isAt_mod]
    dsimp only
    rw [between.frames_move_one, counted, passed_succ, Finset.filter_insert]
    by_cases blank : IsAt height 0 (lcd.position + clocks + 1)
    · rw [if_pos blank, if_pos (moment.mpr blank), Finset.card_insert_of_notMem ahead,
        Nat.add_assoc]
    · rw [if_neg blank, if_neg (blank ∘ moment.mp), Nat.add_zero]

/-- The run over the clocks of a step: what it asks for is what some moment on the way did. -/
theorem Settled.standsFor_step (settled : lcd.Settled) (on : On bus) (clocks : Nat) :
    StandsFor (lcd.step clocks bus).requests
      (∃ moment ∈ Finset.Ioc lcd.position (lcd.position + clocks), IsAt height 0 moment)
      (∃ moment ∈ Finset.Ioc lcd.position (lcd.position + clocks), Asks bus moment) := by
  refine (settled.step_induction
    (motive := fun clocks after => StandsFor after.requests
      (∃ moment ∈ Finset.Ioc lcd.position (lcd.position + clocks), IsAt height 0 moment)
      (∃ moment ∈ Finset.Ioc lcd.position (lcd.position + clocks), Asks bus moment))
    on ?start ?next clocks).2.2
  case start => exact StandsFor.none.congr (by simp) (by simp)
  case next =>
    intro clocks before between place same gathered
    have one := between.standsFor_move_one before.bus
    rw [same.asks, ← isAt_mod, ← asks_mod, place, Nat.mod_add_mod, isAt_mod, asks_mod] at one
    exact (gathered.or one).congr (exists_passed_succ _ _ _).symm (exists_passed_succ _ _ _).symm

/-- While the screen is on, a step of any number of clocks does what the moments it goes over say.
It ends at the last of them. It counts a picture for each vertical blank that begins, and asks for
that interrupt when there is one; it asks for the interrupt of the status register when one of the
moments has an enabled reason, and for no other interrupt. The line register stays right. The moment
that the step starts at is not among them, the one it ends at is. -/
theorem step_closed_form (settled : lcd.Settled) (on : On bus) (clocks : Nat) :
    let after := lcd.step clocks bus
    let passed := Finset.Ioc lcd.position (lcd.position + clocks)
    let blanks := passed.filter (IsAt height 0)
    after.unit.Settled ∧
      after.unit.position = (lcd.position + clocks) % frameClocks ∧
      after.unit.frames = lcd.frames + blanks.card ∧
      (Interrupt.vblank.isIn after.requests = true ↔ 0 < blanks.card) ∧
      (Interrupt.lcdStatus.isIn after.requests = true ↔ ∃ moment ∈ passed, Asks bus moment) ∧
      after.requests &&& ~~~(Interrupt.vblank.bit ||| Interrupt.lcdStatus.bit) = 0 ∧
      (Shown lcd bus → Shown after.unit after.bus) := by
  intro after passed blanks
  have requested := settled.standsFor_step on clocks
  have some_blank : 0 < blanks.card ↔ ∃ moment ∈ passed, IsAt height 0 moment := by
    rw [Finset.card_pos, Finset.filter_nonempty_iff]
  refine ⟨settled.step on clocks, ?position, settled.frames_step_eq on clocks,
    requested.vblank.trans some_blank.symm, requested.lcdStatus, requested.other, ?line⟩
  case position =>
    exact (settled.step_induction (motive := fun _ _ => True) on trivial
      (fun _ _ _ _ _ _ => trivial) clocks).1
  case line =>
    intro shown
    exact (settled.step_induction (motive := fun _ after => Shown after.unit after.bus) on shown
      (fun _ _ _ _ _ shown => shown_move 1 shown) clocks).2.2

/-- Over the end of the last line of the picture, where the line comes to rest on the way and then
the vertical blank begins. -/
theorem step_closed_form_copying :
    let last : Lcd := { clock := 250, line := 143, mode := .transfer }
    let after := last.step 209 copying
    last.Settled ∧ On copying ∧ after.unit.position = 144 * lineClocks + 3 ∧
      after.unit.frames = 1 ∧ Interrupt.vblank.isIn after.requests = true ∧
      Interrupt.lcdStatus.isIn after.requests = true := by
  intro last after
  have settled : last.Settled := ⟨⟨by decide, by decide⟩, by decide⟩
  have status : copying.io.read Bus.lcdStatus = 0x78 := by decide +kernel
  have on : On copying := by
    have shown : copying.io.read Bus.lcdControl &&& 0x80 = 0x80 := by decide +kernel
    unfold On
    rw [shown]
    decide
  have rests : Asks copying (143 * lineClocks + transferEnd) := by
    have enabled : Enabled copying 0x08 := by
      unfold Enabled
      rw [status]
      decide
    exact .inr (.inr (.inr ⟨enabled, 143, by decide, rfl⟩))
  have one :
      ((Finset.Ioc last.position (last.position + 209)).filter (IsAt height 0)).card = 1 := by
    decide +kernel
  obtain ⟨_, place, frames, blank, asked, _, _⟩ := step_closed_form settled on 209
  rw [one] at frames blank
  exact ⟨settled, on, place.trans (by decide +kernel), frames, blank.mpr (by decide),
    asked.mpr ⟨_, Finset.mem_Ioc.mpr (by decide), rests⟩⟩

end Handheld.Lcd
