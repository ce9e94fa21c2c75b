import Handheld.Proofs.Bus.Actions
import Handheld.Proofs.Lcd.Registers

/-!
# How long the status register stays right

The low bits of the status register are copies: of the mode, and of the outcome of a comparison. The
mode bits are stored when the mode changes and when the screen rests, the outcome when a line
begins. In between both keep what they hold, whatever programs store. So the mode bits are right
from the first change of mode on, but not before; and the outcome is that of the two lines as they
were when a line last began, however often either was stored to since.
-/
namespace Handheld.Lcd

/-- The mode bits are those of the mode. -/
def ShowsMode (lcd : Lcd) (bus : Bus) : Prop :=
  bus.io.read Bus.lcdStatus &&& 0x03 = lcd.mode.code

/-- The comparison bit tells whether the line is the one to compare with. -/
def ShowsComparison (bus : Bus) : Prop :=
  bus.io.read Bus.lcdStatus &&& 0x04 ≠ 0 ↔ bus.io.read Bus.line = bus.io.read Bus.lineCompare

/-- The line, the line to compare with and the outcome are the same. So the outcome is as right or
wrong as it was. -/
structure SameComparison (bus later : Bus) : Prop where
  line : later.io.read Bus.line = bus.io.read Bus.line
  compare : later.io.read Bus.lineCompare = bus.io.read Bus.lineCompare
  outcome : later.io.read Bus.lcdStatus &&& 0x04 = bus.io.read Bus.lcdStatus &&& 0x04

/-- The relation is reflexive and transitive, and so goes through the parts of a run that begin no
line. -/
theorem SameComparison.refl (bus : Bus) : SameComparison bus bus := ⟨rfl, rfl, rfl⟩

theorem SameComparison.trans {bus later latest : Bus} (first : SameComparison bus later)
    (second : SameComparison later latest) : SameComparison bus latest :=
  ⟨second.line.trans first.line, second.compare.trans first.compare,
    second.outcome.trans first.outcome⟩

theorem SameComparison.shows {bus later : Bus} (same : SameComparison bus later)
    (shows : ShowsComparison bus) : ShowsComparison later := by
  rw [ShowsComparison, same.line, same.compare, same.outcome]
  exact shows

variable {lcd : Lcd} {bus : Bus}

/-! ## Stores -/

/-- A store to the status register keeps the three bits of the unit. -/
theorem status_write (bus : Bus) (address : UInt16) (value : UInt8) :
    (bus.write address value).io.read Bus.lcdStatus &&& 0x07 =
      bus.io.read Bus.lcdStatus &&& 0x07 := by
  by_cases own : address = 0xff41
  · have stored : (bus.write address value).io.read Bus.lcdStatus =
        0x80 ||| (value &&& 0x78) ||| (bus.io.read Bus.lcdStatus &&& 0x07) := by
      rw [own]
      exact Block.read_write_self _ _ (by decide)
    have fixed : (0x80 : UInt8) &&& 0x07 = 0 := by decide
    have chosen : value &&& 0x78 &&& 0x07 = 0 := by
      have none : (0x78 : UInt8) &&& 0x07 = 0 := by decide
      rw [UInt8.and_assoc, none, UInt8.and_zero]
    rw [stored, or_and_byte, or_and_byte, fixed, chosen, UInt8.and_assoc, UInt8.and_self,
      UInt8.zero_or, UInt8.zero_or]
  · rw [bus.io_write_of_ne value own (by decide)]

theorem status_write_part (bus : Bus) (address : UInt16) (value : UInt8) {mask : UInt8}
    (part : 0x07 &&& mask = mask) :
    (bus.write address value).io.read Bus.lcdStatus &&& mask =
      bus.io.read Bus.lcdStatus &&& mask := by
  rw [← part, ← UInt8.and_assoc, ← UInt8.and_assoc, status_write]

/-- Programs cannot make the mode bits wrong. -/
theorem ShowsMode.write (shows : ShowsMode lcd bus) (address : UInt16) (value : UInt8) :
    ShowsMode lcd (bus.write address value) := by
  rw [ShowsMode, status_write_part bus address value (by decide)]
  exact shows

theorem sameComparison_write {address : UInt16} (bus : Bus) (value : UInt8)
    (line : address ≠ 0xff44) (compare : address ≠ 0xff45) :
    SameComparison bus (bus.write address value) :=
  ⟨bus.io_write_of_ne value line (by decide), bus.io_write_of_ne value compare (by decide),
    status_write_part bus address value (by decide)⟩

/-! ## Parts of a run -/

/-- Whatever the register held, a new mode is shown. The mode that stays is shown if it was. -/
theorem showsMode_showMode (known : ShowsMode lcd bus ∨ lcd.modeAt ≠ lcd.mode) :
    ShowsMode (lcd.showMode bus).unit (lcd.showMode bus).bus := by
  have stored (mode : Mode) (byte : UInt8) :
      ((byte &&& ~~~0x03) ||| mode.code) &&& 0x03 = mode.code := by
    revert byte
    refine forall_byte ?_
    cases mode <;> decide +kernel
  rw [ShowsMode, status_showMode, unit_showMode]
  by_cases agrees : lcd.modeAt = lcd.mode
  · rw [if_pos agrees, agrees]
    exact known.resolve_right (not_not_intro agrees)
  · rw [if_neg agrees]
    exact stored _ _

theorem showsMode_nextLine (shows : ShowsMode lcd bus) :
    ShowsMode (lcd.nextLine bus).unit (lcd.nextLine bus).bus := by
  have kept (byte : UInt8) :
      (byte ||| 0x04) &&& 0x03 = byte &&& 0x03 ∧ (byte &&& ~~~0x04) &&& 0x03 = byte &&& 0x03 := by
    revert byte
    refine forall_byte ?_
    decide +kernel
  rw [nextLine_eq]
  dsimp only
  rw [ShowsMode, status_showLine, unit_showLine]
  split
  · exact (kept _).1.trans shows
  · exact (kept _).2.trans shows

/-- A move shows the mode if it was shown before or has changed. -/
theorem showsMode_move (clocks : Nat)
    (known : ShowsMode lcd bus ∨ (lcd.move clocks bus).unit.mode ≠ lcd.mode) :
    ShowsMode (lcd.move clocks bus).unit (lcd.move clocks bus).bus := by
  by_cases last : lcd.clock + clocks = lineClocks
  · have kept : ((lcd.advance clocks).nextLine bus).unit.mode = lcd.mode := by
      rw [unit_nextLine]
      rfl
    rw [move_line_end _ _ last] at known ⊢
    dsimp only at known ⊢
    rw [unit_showMode, ← kept] at known
    exact showsMode_showMode (known.imp_left fun shows => showsMode_nextLine shows)
  · rw [move_in_line _ _ last] at known ⊢
    rw [unit_showMode] at known
    exact showsMode_showMode known

theorem sameComparison_showMode (lcd : Lcd) (bus : Bus) :
    SameComparison bus (lcd.showMode bus).bus := by
  have kept (mode : Mode) (byte : UInt8) :
      ((byte &&& ~~~0x03) ||| mode.code) &&& 0x04 = byte &&& 0x04 := by
    revert byte
    refine forall_byte ?_
    cases mode <;> decide +kernel
  refine ⟨lcd.line_showMode bus, io_showMode compare_not_stored lcd bus, ?_⟩
  rw [status_showMode]
  split
  · rfl
  · exact kept _ _

/-- A new line is compared as it is shown, so that the outcome is right in that moment. -/
theorem showsComparison_nextLine (lcd : Lcd) (bus : Bus) :
    ShowsComparison (lcd.nextLine bus).bus := by
  have outcome (byte : UInt8) :
      (byte ||| 0x04) &&& 0x04 ≠ 0 ∧ (byte &&& ~~~0x04) &&& 0x04 = 0 := by
    revert byte
    refine forall_byte ?_
    decide +kernel
  rw [nextLine_eq]
  dsimp only
  rw [ShowsComparison, line_showLine, status_showLine, io_showLine compare_not_stored]
  by_cases same : UInt8.ofNat lcd.begun.line = bus.io.read Bus.lineCompare
  · rw [if_pos same]
    exact iff_of_true (outcome _).1 same
  · rw [if_neg same]
    exact iff_of_false (not_not_intro (outcome _).2) same

theorem sameComparison_move {clocks : Nat} (lcd : Lcd) (bus : Bus)
    (inLine : lcd.clock + clocks ≠ lineClocks) :
    SameComparison bus (lcd.move clocks bus).bus ∧
      (lcd.move clocks bus).unit.clock = lcd.clock + clocks := by
  rw [move_in_line lcd bus inLine, unit_showMode]
  exact ⟨sameComparison_showMode _ bus, rfl⟩

theorem showsComparison_move {clocks : Nat} (lcd : Lcd) (bus : Bus)
    (last : lcd.clock + clocks = lineClocks) : ShowsComparison (lcd.move clocks bus).bus := by
  rw [move_line_end lcd bus last]
  exact (sameComparison_showMode _ _).shows (showsComparison_nextLine _ bus)

theorem showsMode_park (lcd : Lcd) (bus : Bus) :
    ShowsMode (lcd.park bus).unit (lcd.park bus).bus := by
  have cleared : ~~~(0x03 : UInt8) &&& 0x03 = 0 := by decide
  rw [ShowsMode, status_park, UInt8.and_assoc, cleared, UInt8.and_zero]
  rfl

/-- A parked unit does not compare, although it changes the line. -/
theorem outcome_park (lcd : Lcd) (bus : Bus) :
    (lcd.park bus).bus.io.read Bus.lcdStatus &&& 0x04 = bus.io.read Bus.lcdStatus &&& 0x04 := by
  have kept : ~~~(0x03 : UInt8) &&& 0x04 = 0x04 := by decide
  rw [status_park, UInt8.and_assoc, kept]

/-! ## Runs -/

/-- The run of `showsMode_move`: once shown, the mode is shown to the end. -/
theorem Sound.showsMode_run (sound : lcd.Sound) (shows : ShowsMode lcd bus) (clocks : Nat)
    (requests : UInt8) :
    ShowsMode (lcd.run clocks bus requests).unit (lcd.run clocks bus requests).bus :=
  (sound.run_induction (motive := ShowsMode)
    (fun _ _ clocks _ _ shows => showsMode_move clocks (.inl shows)) clocks requests shows).1

/-- The run for an outcome that was right: new lines keep it right, and nothing else touches it. -/
theorem Sound.showsComparison_run_of_shows (sound : lcd.Sound) (shows : ShowsComparison bus)
    (clocks : Nat) (requests : UInt8) :
    ShowsComparison (lcd.run clocks bus requests).bus := by
  refine (sound.run_induction (motive := fun _ later => ShowsComparison later) ?part clocks requests
    shows).1
  case part =>
    intro lcd bus clocks _ _ shows
    by_cases last : lcd.clock + clocks = lineClocks
    · exact showsComparison_move lcd bus last
    · exact (sameComparison_move lcd bus last).1.shows shows

/-- Clocks that stay in the line leave the comparison alone. -/
theorem Sound.sameComparison_run (sound : lcd.Sound) {clocks : Nat}
    (inLine : lcd.clock + clocks < lineClocks) (bus : Bus) (requests : UInt8) :
    SameComparison bus (lcd.run clocks bus requests).bus := by
  induction clocks using Nat.strongRecOn generalizing lcd bus requests with
  | _ clocks ih =>
    rcases Nat.eq_zero_or_pos clocks with rfl | left
    · rw [run_zero]
      exact .refl bus
    · have within := Nat.min_le_right clocks (lcd.boundary - lcd.clock)
      have room := sound.clock_lt_boundary
      have apart : lcd.clock + min clocks (lcd.boundary - lcd.clock) ≠ lineClocks := by omega
      obtain ⟨same, clock⟩ := lcd.sameComparison_move bus apart
      rw [sound.run_eq left]
      dsimp only
      refine same.trans (ih _ (by omega) (sound.move bus within) ?_ _ _)
      rw [clock]
      omega

/-- Clocks that reach the end of the line renew it. -/
theorem Sound.showsComparison_run (sound : lcd.Sound) {clocks : Nat}
    (ends : lineClocks ≤ lcd.clock + clocks) (bus : Bus) (requests : UInt8) :
    ShowsComparison (lcd.run clocks bus requests).bus := by
  induction clocks using Nat.strongRecOn generalizing lcd bus requests with
  | _ clocks ih =>
    have inside := sound.clock
    have left : 0 < clocks := by omega
    have within := Nat.min_le_right clocks (lcd.boundary - lcd.clock)
    have room := sound.clock_lt_boundary
    rw [sound.run_eq left]
    dsimp only
    by_cases last : lcd.clock + min clocks (lcd.boundary - lcd.clock) = lineClocks
    · exact (sound.move bus within).showsComparison_run_of_shows
        (lcd.showsComparison_move bus last) _ _
    · obtain ⟨_, clock⟩ := lcd.sameComparison_move bus last
      refine ih _ (by omega) (sound.move bus within) ?_ _ _
      rw [clock]
      omega

end Handheld.Lcd
