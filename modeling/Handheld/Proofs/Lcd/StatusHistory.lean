import Mathlib.Data.List.Induction
import Handheld.Proofs.Lcd.Status

/-!
# The status register over whole runs

Programs store to the bus and clocks pass for the LCD, in any order. What the low bits of the status
register show after that depends on the run in two ways. The mode is shown once the unit has gone
from one mode to the next or has rested; the unit starts in the object scan, and the register does
not say so. The comparison is the one made when a line last began: from power-on to the first line
end there is none, and later changes of either line go unnoticed up to the next one.
-/
namespace Handheld

/-- The LCD and the bus it works on, without a processor: programs are told by what they store. -/
structure Screen where
  lcd : Lcd := {}
  bus : Bus

namespace Screen

/-- What happens to a screen: a program stores a byte, or clocks pass for the unit. -/
inductive Event where
  | store (address : UInt16) (value : UInt8)
  | pass (clocks : Nat)

/-- The screen after an event. The requests of a step are not followed here. -/
def perform (screen : Screen) : Event → Screen
  | .store address value => { screen with bus := screen.bus.write address value }
  | .pass clocks =>
    let stepped := screen.lcd.step clocks screen.bus
    { lcd := stepped.unit, bus := stepped.bus }

/-- The screen after a run. -/
def after (screen : Screen) (events : List Event) : Screen := events.foldl perform screen

/-- The screen as a machine is switched on. -/
def powerOn (cartridge : Cartridge) (color : Bool) : Screen := { bus := .powerOn cartridge color }

/-- The clocks that an event lets pass. -/
def Event.clocks : Event → Nat
  | store _ _ => 0
  | pass clocks => clocks

/-- Clocks passed in a run, whether the screen was on or not. -/
def clocksOf (events : List Event) : Nat := (events.map Event.clocks).sum

/-- The unit is stepped while the screen is off. -/
def Rests (screen : Screen) : Event → Prop
  | .store _ _ => False
  | .pass _ => ¬ Lcd.On screen.bus

/-- The clocks reach the end of the line. -/
def BeginsLine (screen : Screen) : Event → Prop
  | .store _ _ => False
  | .pass clocks => Lcd.On screen.bus ∧ Lcd.lineClocks ≤ screen.lcd.clock + clocks

/-- The line or the line to compare with may change without a comparison: a program stores to the
register of either, or a step finds the screen off and puts the line back to zero. -/
def Disturbs (screen : Screen) : Event → Prop
  | .store address _ => address = 0xff44 ∨ address = 0xff45
  | .pass _ => ¬ Lcd.On screen.bus

/-- Somewhere in the run there is an event of this kind. -/
def Happens (kind : Screen → Event → Prop) (screen : Screen) (events : List Event) : Prop :=
  ∃ before event later, events = before ++ event :: later ∧ kind (screen.after before) event

/-- What the screen was like when a line last began. -/
def LineBegan (screen : Screen) (events : List Event) (begun : Screen) : Prop :=
  ∃ before event later, events = before ++ event :: later ∧
    BeginsLine (screen.after before) event ∧ begun = screen.after (before ++ [event]) ∧
    ¬ Happens BeginsLine begun later

/-- The mode has changed, or the unit has rested. -/
def ModeRenewed (screen : Screen) (events : List Event) : Prop :=
  Happens Rests screen events ∨ Lcd.scanEnd ≤ clocksOf events

/-! ## Runs -/

variable {screen : Screen}

theorem after_append (screen : Screen) (first second : List Event) :
    screen.after (first ++ second) = (screen.after first).after second := by
  simp [after]

/-- Runs are taken from their end here, since the statements ask for the last event of some kind. -/
theorem after_snoc (screen : Screen) (events : List Event) (event : Event) :
    screen.after (events ++ [event]) = (screen.after events).perform event := by
  simp [after]

theorem clocksOf_append (first second : List Event) :
    clocksOf (first ++ second) = clocksOf first + clocksOf second := by
  simp [clocksOf]

/-- An event of a run with one event more is that one or one of those before. -/
theorem snoc_eq_split {events before later : List Event} {last event : Event}
    (split : events ++ [last] = before ++ event :: later) :
    (before = events ∧ event = last ∧ later = []) ∨
      ∃ rest, later = rest ++ [last] ∧ events = before ++ event :: rest := by
  rcases List.eq_nil_or_concat later with rfl | ⟨rest, final, rfl⟩
  · obtain ⟨front, back⟩ := List.append_inj' split rfl
    exact .inl ⟨front.symm, (List.singleton_inj.mp back).symm, rfl⟩
  · have regrouped : events ++ [last] = (before ++ event :: rest) ++ [final] := by simp [split]
    obtain ⟨front, back⟩ := List.append_inj' regrouped rfl
    exact .inr ⟨rest, by rw [List.singleton_inj.mp back, List.concat_eq_append], front⟩

theorem happens_snoc (kind : Screen → Event → Prop) (screen : Screen) (events : List Event)
    (event : Event) :
    Happens kind screen (events ++ [event]) ↔
      Happens kind screen events ∨ kind (screen.after events) event := by
  constructor
  · rintro ⟨before, found, later, split, holds⟩
    rcases snoc_eq_split split with ⟨rfl, rfl, _⟩ | ⟨rest, _, shorter⟩
    · exact .inr holds
    · exact .inl ⟨before, found, rest, shorter, holds⟩
  · rintro (⟨before, found, later, rfl, holds⟩ | holds)
    · exact ⟨before, found, later ++ [event], by simp, holds⟩
    · exact ⟨events, event, [], rfl, holds⟩

theorem not_happens_nil (kind : Screen → Event → Prop) (screen : Screen) :
    ¬ Happens kind screen [] := by
  rintro ⟨before, event, later, split, _⟩
  simp at split

theorem Happens.append {kind : Screen → Event → Prop} {first : List Event}
    (happens : Happens kind screen first) (second : List Event) :
    Happens kind screen (first ++ second) := by
  obtain ⟨before, event, later, rfl, holds⟩ := happens
  exact ⟨before, event, later ++ second, by simp, holds⟩

/-- The line that an event begins is the last one begun. An earlier line is not, as this event
begins one after it. -/
theorem lineBegan_of_begins {events : List Event} {event : Event}
    (begins : BeginsLine (screen.after events) event) (begun : Screen) :
    LineBegan screen (events ++ [event]) begun ↔ begun = screen.after (events ++ [event]) := by
  constructor
  · rintro ⟨before, found, later, split, _, rfl, last⟩
    rcases snoc_eq_split split with ⟨rfl, rfl, _⟩ | ⟨rest, rfl, rfl⟩
    · rfl
    · refine absurd ((happens_snoc _ _ _ _).mpr (.inr ?_)) last
      rw [← after_append, List.append_assoc]
      exact begins
  · rintro rfl
    exact ⟨events, event, [], rfl, begins, rfl, not_happens_nil _ _⟩

/-- An event that begins no line leaves it at the last one begun. -/
theorem lineBegan_of_not {events : List Event} {event : Event}
    (quiet : ¬ BeginsLine (screen.after events) event) (begun : Screen) :
    LineBegan screen (events ++ [event]) begun ↔ LineBegan screen events begun := by
  constructor
  · rintro ⟨before, found, later, split, begins, compared, last⟩
    rcases snoc_eq_split split with ⟨rfl, rfl, _⟩ | ⟨rest, rfl, rfl⟩
    · exact absurd begins quiet
    · exact ⟨before, found, rest, rfl, begins, compared, fun other => last (other.append _)⟩
  · rintro ⟨before, found, later, rfl, begins, rfl, last⟩
    refine ⟨before, found, later ++ [event], by simp, begins, rfl, ?_⟩
    rw [happens_snoc, ← after_append, List.append_assoc]
    exact not_or.mpr ⟨last, quiet⟩

/-! ## What one event does -/

theorem perform_pass_on (on : Lcd.On screen.bus) (clocks : Nat) :
    screen.perform (.pass clocks) =
      let ran := screen.lcd.run clocks screen.bus 0
      { lcd := ran.unit, bus := ran.bus } := by
  rw [perform, Lcd.step_of_on screen.lcd on]

theorem perform_pass_off (off : ¬ Lcd.On screen.bus) (clocks : Nat) :
    screen.perform (.pass clocks) =
      { lcd := (screen.lcd.park screen.bus).unit, bus := (screen.lcd.park screen.bus).bus } := by
  rw [perform, Lcd.step, if_pos (not_not.mp off)]

theorem sound_perform (sound : screen.lcd.Sound) (event : Event) :
    (screen.perform event).lcd.Sound := by
  cases event with
  | store address value => exact sound
  | pass clocks => exact sound.step clocks screen.bus

theorem sound_after (sound : screen.lcd.Sound) (events : List Event) :
    (screen.after events).lcd.Sound := by
  induction events using List.reverseRecOn with
  | nil => exact sound
  | append_singleton events event ih =>
    rw [after_snoc]
    exact sound_perform ih event

/-- A line that begins is compared. -/
theorem showsComparison_perform (sound : screen.lcd.Sound) {event : Event}
    (begins : BeginsLine screen event) : Lcd.ShowsComparison (screen.perform event).bus := by
  cases event with
  | store => exact begins.elim
  | pass clocks =>
    obtain ⟨on, ends⟩ := begins
    rw [perform_pass_on on]
    exact sound.showsComparison_run ends screen.bus 0

/-- Without a new line the outcome of the comparison stays. -/
theorem outcome_perform (sound : screen.lcd.Sound) {event : Event}
    (quiet : ¬ BeginsLine screen event) :
    (screen.perform event).bus.io.read Bus.lcdStatus &&& 0x04 =
      screen.bus.io.read Bus.lcdStatus &&& 0x04 := by
  cases event with
  | store address value => exact Lcd.status_write_part screen.bus address value (by decide)
  | pass clocks =>
    by_cases on : Lcd.On screen.bus
    · have inLine : screen.lcd.clock + clocks < Lcd.lineClocks := by
        by_contra ends
        exact quiet ⟨on, Nat.not_lt.mp ends⟩
      rw [perform_pass_on on]
      exact (sound.sameComparison_run inLine screen.bus 0).outcome
    · rw [perform_pass_off on]
      exact Lcd.outcome_park screen.lcd screen.bus

theorem showsComparison_perform_of_not_disturbs (sound : screen.lcd.Sound) {event : Event}
    (undisturbed : ¬ Disturbs screen event) (shows : Lcd.ShowsComparison screen.bus) :
    Lcd.ShowsComparison (screen.perform event).bus := by
  cases event with
  | store address value =>
    obtain ⟨line, compare⟩ := not_or.mp undisturbed
    exact (Lcd.sameComparison_write screen.bus value line compare).shows shows
  | pass clocks =>
    rw [perform_pass_on (not_not.mp undisturbed)]
    exact sound.showsComparison_run_of_shows shows clocks 0

theorem showsComparison_after (sound : screen.lcd.Sound) {events : List Event}
    (undisturbed : ¬ Happens Disturbs screen events) (shows : Lcd.ShowsComparison screen.bus) :
    Lcd.ShowsComparison (screen.after events).bus := by
  induction events using List.reverseRecOn with
  | nil => exact shows
  | append_singleton events event ih =>
    obtain ⟨before, last⟩ := not_or.mp (mt (happens_snoc _ _ _ _).mpr undisturbed)
    rw [after_snoc]
    exact showsComparison_perform_of_not_disturbs (sound_after sound events) last (ih before)

/-- The outcome shown is that of the comparison made when a line last began. -/
theorem outcome_after (sound : screen.lcd.Sound)
    (clear : screen.bus.io.read Bus.lcdStatus &&& 0x04 = 0) (events : List Event) :
    (screen.after events).bus.io.read Bus.lcdStatus &&& 0x04 ≠ 0 ↔
      ∃ begun, LineBegan screen events begun ∧
        begun.bus.io.read Bus.line = begun.bus.io.read Bus.lineCompare := by
  induction events using List.reverseRecOn with
  | nil =>
    refine iff_of_false (not_not_intro clear) ?_
    rintro ⟨_, ⟨before, event, later, split, _⟩, _⟩
    simp at split
  | append_singleton events event ih =>
    have reached := sound_after sound events
    by_cases begins : BeginsLine (screen.after events) event
    · simp only [lineBegan_of_begins begins, exists_eq_left]
      rw [after_snoc]
      exact showsComparison_perform reached begins
    · simp only [lineBegan_of_not begins]
      rw [after_snoc, outcome_perform reached begins]
      exact ih

/-! ## The first object scan -/

theorem settled_scanning {clock : Nat} (scanning : clock < Lcd.scanEnd) :
    ({ clock } : Lcd).Settled := by
  have inLine : clock < Lcd.lineClocks := Nat.lt_trans scanning (by decide)
  have mode : ({ clock } : Lcd).modeAt = .objectScan := by
    rw [Lcd.modeAt, if_neg (by decide : ¬ Lcd.height ≤ 0), if_pos scanning]
  exact ⟨⟨inLine, (by decide : 0 < Lcd.lines)⟩, mode.symm⟩

theorem boundary_scanning {clock : Nat} (scanning : clock < Lcd.scanEnd) :
    ({ clock } : Lcd).boundary = Lcd.scanEnd := by
  rw [Lcd.boundary, ← (settled_scanning scanning).mode]

/-- Clocks that do not reach the end of the scan move the clock and nothing else. -/
theorem run_scanning {clock clocks : Nat} (scanning : clock + clocks < Lcd.scanEnd) (bus : Bus)
    (requests : UInt8) :
    ({ clock } : Lcd).run clocks bus requests =
      { unit := { clock := clock + clocks }, bus, requests } := by
  have before : clock < Lcd.scanEnd := by omega
  exact (settled_scanning before).run_within (by rwa [boundary_scanning before]) bus requests

theorem showsMode_run_scanned {clock clocks : Nat} (scanning : clock < Lcd.scanEnd)
    (ends : Lcd.scanEnd ≤ clock + clocks) (bus : Bus) (requests : UInt8) :
    Lcd.ShowsMode (({ clock } : Lcd).run clocks bus requests).unit
      (({ clock } : Lcd).run clocks bus requests).bus := by
  have settled := settled_scanning scanning
  have boundary := boundary_scanning scanning
  have part : min clocks (({ clock } : Lcd).boundary - clock) = Lcd.scanEnd - clock := by
    rw [boundary]
    omega
  have reached : clock + (Lcd.scanEnd - clock) = Lcd.scanEnd := by omega
  have changed : (({ clock } : Lcd).move (Lcd.scanEnd - clock) bus).unit.mode ≠ .objectScan := by
    rw [Lcd.unit_move]
    dsimp only
    rw [reached, if_neg (by decide)]
    exact (by decide : ({ clock := Lcd.scanEnd } : Lcd).modeAt ≠ .objectScan)
  have within : Lcd.scanEnd - clock ≤ ({ clock } : Lcd).boundary - clock := by rw [boundary]
  rw [settled.run_eq (by omega), part]
  exact (settled.move bus within).showsMode_run (Lcd.showsMode_move _ (.inr changed)) _ _

/-- The unit is in the object scan it was started in, and the register does not say so. Power-on
leaves the screen like this, whatever the start-up program stored to the register. -/
structure FirstScan (screen : Screen) (clocks : Nat) : Prop where
  lcd : screen.lcd = { clock := clocks }
  hidden : screen.bus.io.read Bus.lcdStatus &&& 0x03 = 0

/-- In its first scan the register shows the mode of rest, which is another. -/
theorem FirstScan.not_showsMode {clocks : Nat} (first : FirstScan screen clocks) :
    ¬ Lcd.ShowsMode screen.lcd screen.bus := by
  rw [Lcd.ShowsMode, first.hidden, first.lcd]
  exact (by decide : (0 : UInt8) ≠ Mode.objectScan.code)

/-- Once the mode is shown it stays so: stores keep the low bits of the status, and a step shows
each new mode. -/
theorem showsMode_perform (sound : screen.lcd.Sound)
    (shows : Lcd.ShowsMode screen.lcd screen.bus) (event : Event) :
    Lcd.ShowsMode (screen.perform event).lcd (screen.perform event).bus := by
  cases event with
  | store address value => exact shows.write address value
  | pass clocks =>
    by_cases on : Lcd.On screen.bus
    · rw [perform_pass_on on]
      exact sound.showsMode_run shows clocks 0
    · rw [perform_pass_off on]
      exact Lcd.showsMode_park screen.lcd screen.bus

theorem showsMode_of_rests {event : Event} (rests : Rests screen event) :
    Lcd.ShowsMode (screen.perform event).lcd (screen.perform event).bus := by
  cases event with
  | store => exact rests.elim
  | pass clocks =>
    rw [perform_pass_off rests]
    exact Lcd.showsMode_park screen.lcd screen.bus

/-- The first scan goes on, or the mode is shown from here on. -/
theorem FirstScan.perform {passed : Nat} (first : FirstScan screen passed) {event : Event}
    (scanning : passed < Lcd.scanEnd) (awake : ¬ Rests screen event) :
    if Lcd.scanEnd ≤ passed + event.clocks then
      Lcd.ShowsMode (screen.perform event).lcd (screen.perform event).bus
    else FirstScan (screen.perform event) (passed + event.clocks) := by
  cases event with
  | store address value =>
    have kept : (screen.bus.write address value).io.read Bus.lcdStatus &&& 0x03 =
        screen.bus.io.read Bus.lcdStatus &&& 0x03 :=
      Lcd.status_write_part screen.bus address value (by decide)
    rw [Event.clocks, Nat.add_zero, if_neg (Nat.not_le.mpr scanning)]
    exact ⟨first.lcd, kept.trans first.hidden⟩
  | pass clocks =>
    rw [perform_pass_on (not_not.mp awake), Event.clocks, first.lcd]
    split
    case isTrue ends => exact showsMode_run_scanned scanning ends screen.bus 0
    case isFalse goesOn =>
      rw [run_scanning (Nat.not_le.mp goesOn)]
      exact ⟨rfl, first.hidden⟩

theorem ModeRenewed.append {first : List Event} (renewed : ModeRenewed screen first)
    (second : List Event) : ModeRenewed screen (first ++ second) := by
  refine renewed.imp (fun rests => rests.append second) fun scanned => ?_
  rw [clocksOf_append]
  omega

/-- Up to its first change the mode is hidden; after that it is shown. Still hidden, an event brings
the mode out if the unit rests or its scan ends. -/
theorem mode_after (first : FirstScan screen 0) (events : List Event) :
    (ModeRenewed screen events →
      Lcd.ShowsMode (screen.after events).lcd (screen.after events).bus) ∧
    (¬ ModeRenewed screen events → FirstScan (screen.after events) (clocksOf events)) := by
  have sound : screen.lcd.Sound := first.lcd ▸ Lcd.settled_start.toSound
  induction events using List.reverseRecOn with
  | nil =>
    refine ⟨fun renewed => absurd renewed ?_, fun _ => first⟩
    exact not_or.mpr ⟨not_happens_nil _ _, by decide⟩
  | append_singleton events event ih =>
    have clocks : clocksOf (events ++ [event]) = clocksOf events + event.clocks := by
      simp [clocksOf]
    rw [after_snoc]
    by_cases known : ModeRenewed screen events
    · have shows := showsMode_perform (sound_after sound events) (ih.1 known) event
      exact ⟨fun _ => shows, fun hidden => absurd (known.append [event]) hidden⟩
    · obtain ⟨_, scanning⟩ := not_or.mp known
      by_cases rests : Rests (screen.after events) event
      · have renewed : ModeRenewed screen (events ++ [event]) :=
          .inl ((happens_snoc _ _ _ _).mpr (.inr rests))
        exact ⟨fun _ => showsMode_of_rests rests, fun hidden => absurd renewed hidden⟩
      · have next := (ih.2 known).perform (Nat.not_le.mp scanning) rests
        have renewed : ModeRenewed screen (events ++ [event]) ↔
            Lcd.scanEnd ≤ clocksOf events + event.clocks := by
          have never := not_or.mpr ⟨(not_or.mp known).1, rests⟩
          rw [← happens_snoc] at never
          rw [ModeRenewed, clocks, or_iff_right never]
        rw [renewed, clocks]
        split at next
        case isTrue ends => exact ⟨fun _ => next, fun goesOn => absurd ends goesOn⟩
        case isFalse goesOn => exact ⟨fun ends => absurd ends goesOn, fun _ => next⟩

/-- From the first scan on, the mode is shown exactly if it was renewed. -/
theorem showsMode_iff (first : FirstScan screen 0) (events : List Event) :
    Lcd.ShowsMode (screen.after events).lcd (screen.after events).bus ↔
      ModeRenewed screen events := by
  obtain ⟨shown, hidden⟩ := mode_after first events
  refine ⟨fun shows => ?_, shown⟩
  by_contra never
  exact (hidden never).not_showsMode shows

/-- A line cannot begin before the first mode has ended. -/
theorem modeRenewed_of_begins (first : FirstScan screen 0) {events : List Event} {event : Event}
    (begins : BeginsLine (screen.after events) event) : ModeRenewed screen (events ++ [event]) := by
  by_cases known : ModeRenewed screen events
  · exact known.append [event]
  · have scanning := (mode_after first events).2 known
    cases event with
    | store => exact begins.elim
    | pass clocks =>
      have ends : Lcd.lineClocks ≤ clocksOf events + clocks := by
        have reached := begins.2
        rwa [scanning.lcd] at reached
      have order : Lcd.scanEnd ≤ Lcd.lineClocks := by decide
      refine .inr ?_
      rw [clocksOf_append]
      exact Nat.le_trans order ends

/-! ## From power-on -/

/-- The register at power-on shows none of its low bits, whatever was stored there. -/
theorem status_powerOn (cartridge : Cartridge) (color : Bool) :
    (powerOn cartridge color).bus.io.read Bus.lcdStatus &&& 0x07 = 0 := by
  have blank : (Block.filled 0x80 0).read Bus.lcdStatus &&& 0x07 = 0 := by decide
  obtain ⟨started, clear, shown⟩ := Bus.powerOn_induction
    (motive := fun bus => bus.io.read Bus.lcdStatus &&& 0x07 = 0) cartridge color blank
    (fun bus byte _ clear => (Lcd.status_write bus byte.1 byte.2).trans clear)
  have start : (powerOn cartridge color).bus = started.setIo Bus.copyControl 0xff := shown
  rw [start, Bus.read_setIo_of_ne _ _ (by decide)]
  exact clear

theorem firstScan_powerOn (cartridge : Cartridge) (color : Bool) :
    FirstScan (powerOn cartridge color) 0 := by
  have part : (0x07 : UInt8) &&& 0x03 = 0x03 := by decide
  refine ⟨rfl, ?_⟩
  rw [← part, ← UInt8.and_assoc, status_powerOn, UInt8.zero_and]

/-- What the status register shows after any run from power-on, whatever programs stored. Its mode
bits are right from the first change of mode or the first rest on, and not before. Its comparison
bit is the outcome as of when a line last began, and clear if none has begun. Both are right behind
the start of a line for as long as nothing has disturbed the comparison; that the mode bits are
right there needs no such condition, as no line begins in the first scan. -/
theorem status_after_run (cartridge : Cartridge) (color : Bool) (events : List Event) :
    let start := powerOn cartridge color
    let reached := start.after events
    let status := reached.bus.read 0xff41
    (status &&& 0x03 = reached.lcd.mode.code ↔ ModeRenewed start events) ∧
      (status &&& 0x04 ≠ 0 ↔
        ∃ begun, LineBegan start events begun ∧ begun.bus.read 0xff44 = begun.bus.read 0xff45) ∧
      ∀ before event later, events = before ++ event :: later →
        BeginsLine (start.after before) event →
        ¬ Happens Disturbs (start.after (before ++ [event])) later →
        status &&& 0x03 = reached.lcd.mode.code ∧
          (status &&& 0x04 ≠ 0 ↔ reached.bus.read 0xff44 = reached.bus.read 0xff45) := by
  intro start reached status
  have first : FirstScan start 0 := firstScan_powerOn cartridge color
  have sound : start.lcd.Sound := Lcd.settled_start.toSound
  have clear : start.bus.io.read Bus.lcdStatus &&& 0x04 = 0 := by
    have part : (0x07 : UInt8) &&& 0x04 = 0x04 := by decide
    rw [← part, ← UInt8.and_assoc, status_powerOn, UInt8.zero_and]
  have mode : status &&& 0x03 = reached.lcd.mode.code ↔ ModeRenewed start events :=
    showsMode_iff first events
  refine ⟨mode, outcome_after sound clear events, ?undisturbed⟩
  case undisturbed =>
    intro before event later split begins undisturbed
    have regrouped : events = (before ++ [event]) ++ later := by simp [split]
    have renewed : ModeRenewed start events := by
      rw [regrouped]
      exact (modeRenewed_of_begins first begins).append later
    have compared : Lcd.ShowsComparison (start.after (before ++ [event])).bus := by
      rw [after_snoc]
      exact showsComparison_perform (sound_after sound before) begins
    have shows : Lcd.ShowsComparison reached.bus := by
      have later := showsComparison_after (sound_after sound _) undisturbed compared
      rw [← after_append, ← regrouped] at later
      exact later
    exact ⟨mode.mpr renewed, shows⟩

/-- Four clocks after power-on the register shows the horizontal blank and two different lines,
while the unit scans objects in the line that is to be compared with. The clocks end before the
first boundary, so nothing has been stored to the register. -/
theorem status_wrong_at_start :
    let start := powerOn Lcd.copying.cartridge false
    let reached := start.after [.pass 4]
    Lcd.On start.bus ∧ reached.bus.read 0xff41 = 0x80 ∧
      reached.bus.read 0xff41 &&& 0x03 ≠ reached.lcd.mode.code ∧
      ¬ (reached.bus.read 0xff41 &&& 0x04 ≠ 0 ↔
        reached.bus.read 0xff44 = reached.bus.read 0xff45) := by
  intro start reached
  have on : Lcd.On start.bus := by
    unfold Lcd.On
    decide +kernel
  have moved : reached = { lcd := { clock := 4 }, bus := start.bus } := by
    have scanning : start.lcd.run 4 start.bus 0 =
        { unit := { clock := 4 }, bus := start.bus, requests := 0 } :=
      run_scanning (by decide) start.bus 0
    have one : reached = start.perform (.pass 4) := rfl
    rw [one, perform_pass_on on, scanning]
  have status : start.bus.read 0xff41 = 0x80 := by decide +kernel
  have same : start.bus.read 0xff44 = start.bus.read 0xff45 := by decide +kernel
  rw [moved]
  dsimp only
  rw [status, same]
  exact ⟨on, rfl, by decide, by decide⟩

end Screen

end Handheld
