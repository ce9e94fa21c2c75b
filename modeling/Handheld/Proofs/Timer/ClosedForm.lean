import Handheld.Proofs.Strict.Device

/-!
# How far a timer gets

The counter is advanced one step at a time and starts again from the modulo, so its period is 256
steps up to the first overflow and 256 less the modulo after it. Advances add up, and so do ticks:
how clocks are dealt out to ticks makes no difference. `tick_closed_form` gives the timer after a
tick of any length.
-/
namespace Handheld.Timer

/-! ## Advances -/

theorem advance_add (modulo : UInt8) (first second : Nat) (counter : UInt8) (overflowed : Bool) :
    advance modulo (first + second) counter overflowed =
      let (counter, overflowed) := advance modulo first counter overflowed
      advance modulo second counter overflowed := by
  induction first generalizing counter overflowed with
  | zero => rw [Nat.zero_add, advance]
  | succ first ih =>
    rw [Nat.succ_add, advance, advance]
    split <;> exact ih _ _

/-- An overflow before the advances is remembered, and changes nothing else. -/
theorem advance_overflowed (modulo : UInt8) (count : Nat) (counter : UInt8) (overflowed : Bool) :
    advance modulo count counter overflowed =
      let (counter, fresh) := advance modulo count counter false
      (counter, overflowed || fresh) := by
  induction count generalizing counter overflowed with
  | zero => simp [advance]
  | succ count ih =>
    rw [advance, advance]
    split
    · rw [ih modulo true]
      simp
    · exact ih _ overflowed

/-- Up to 255 the counter only counts. -/
theorem advance_of_room (modulo : UInt8) {count : Nat} {counter : UInt8} (overflowed : Bool)
    (room : counter.toNat + count < 256) :
    (advance modulo count counter overflowed).1.toNat = counter.toNat + count ∧
      (advance modulo count counter overflowed).2 = overflowed := by
  induction count generalizing counter with
  | zero => exact ⟨rfl, rfl⟩
  | succ count ih =>
    have below : counter ≠ 0xff := by
      rintro rfl
      have full : (0xff : UInt8).toNat = 255 := rfl
      omega
    have next : (counter + 1).toNat = counter.toNat + 1 := by
      have one : (1 : UInt8).toNat = 1 := rfl
      rw [UInt8.toNat_add, one]
      omega
    have left : (counter + 1).toNat + count < 256 := by omega
    obtain ⟨reached, kept⟩ := ih left
    rw [advance, if_neg below]
    exact ⟨by omega, kept⟩

/-- As many advances as the counter has room for, and one more, start it again. -/
theorem advance_around (modulo counter : UInt8) (overflowed : Bool) :
    advance modulo (256 - counter.toNat) counter overflowed = (modulo, true) := by
  have bound : counter.toNat < 256 := counter.toNat_lt
  have split : 256 - counter.toNat = (255 - counter.toNat) + 1 := by omega
  obtain ⟨full, _⟩ : (advance modulo (255 - counter.toNat) counter overflowed).1.toNat =
      counter.toNat + (255 - counter.toNat) ∧ _ :=
    advance_of_room modulo overflowed (by omega)
  have top : (advance modulo (255 - counter.toNat) counter overflowed).1 = 0xff := by
    apply UInt8.toNat_inj.mp
    have last : (0xff : UInt8).toNat = 255 := rfl
    omega
  rw [split, advance_add]
  dsimp only
  rw [top]
  rfl

/-- After an overflow the counter goes around in 256 less the modulo. -/
theorem advance_modulo (modulo : UInt8) (count : Nat) :
    (advance modulo count modulo true).1.toNat =
        modulo.toNat + count % (256 - modulo.toNat) ∧
      (advance modulo count modulo true).2 = true := by
  have bound : modulo.toNat < 256 := modulo.toNat_lt
  induction count using Nat.strongRecOn with
  | _ count ih =>
    by_cases room : count < 256 - modulo.toNat
    · rw [Nat.mod_eq_of_lt room]
      exact advance_of_room modulo true (by omega)
    · have around : 256 - modulo.toNat ≤ count := Nat.not_lt.mp room
      have split : count = (256 - modulo.toNat) + (count - (256 - modulo.toNat)) := by omega
      have once : advance modulo count modulo true =
          advance modulo (count - (256 - modulo.toNat)) modulo true := by
        rw [split, advance_add, advance_around]
        simp
      rw [once, Nat.mod_eq_sub_mod around]
      exact ih _ (by omega)

/-- With more advances than room the counter is where the advances after the first overflow have
led, from the modulo around. -/
theorem advance_of_overflow (modulo : UInt8) {count : Nat} {counter : UInt8} (overflowed : Bool)
    (full : 256 ≤ counter.toNat + count) :
    (advance modulo count counter overflowed).1.toNat =
        modulo.toNat + (count - (256 - counter.toNat)) % (256 - modulo.toNat) ∧
      (advance modulo count counter overflowed).2 = true := by
  have split : count = (256 - counter.toNat) + (count - (256 - counter.toNat)) := by omega
  have first : advance modulo count counter overflowed =
      advance modulo (count - (256 - counter.toNat)) modulo true := by
    rw [split, advance_add, advance_around]
    simp
  rw [first]
  exact advance_modulo modulo _

/-! ## Ticks -/

variable (timer : Timer)

/-- The divider runs on whether or not the timer does. -/
theorem tick_of_disabled {timer : Timer} (off : timer.enabled = false) (clocks : Nat) :
    timer.tick clocks =
      (false, { timer with divider := timer.divider + UInt16.ofNat clocks }) := by
  rw [tick, off]
  rfl

/-- A running timer advances by the whole periods among the clocks, those left over from before
included. -/
theorem tick_of_enabled {timer : Timer} (on : timer.enabled = true) (clocks : Nat) :
    let advanced :=
      advance timer.modulo ((timer.elapsed + clocks) / timer.period) timer.counter false
    timer.tick clocks =
      (advanced.2,
        { timer with
          divider := timer.divider + UInt16.ofNat clocks
          elapsed := (timer.elapsed + clocks) % timer.period
          counter := advanced.1 }) := by
  rw [tick, on]
  rfl

/-- Programs alone choose whether a timer runs, how fast, and where it starts again. -/
theorem settings_tick (clocks : Nat) :
    (timer.tick clocks).2.modulo = timer.modulo ∧
      (timer.tick clocks).2.control = timer.control := by
  cases running : timer.enabled with
  | false =>
    rw [tick_of_disabled running]
    exact ⟨rfl, rfl⟩
  | true =>
    rw [tick_of_enabled running]
    exact ⟨rfl, rfl⟩

theorem divider_tick (clocks : Nat) :
    (timer.tick clocks).2.divider = timer.divider + UInt16.ofNat clocks := by
  cases running : timer.enabled with
  | false => rw [tick_of_disabled running]
  | true => rw [tick_of_enabled running]

/-- How clocks are dealt out to ticks makes no difference. -/
theorem tick_add (first second : Nat) :
    timer.tick (first + second) =
      let before := timer.tick first
      let after := before.2.tick second
      (before.1 || after.1, after.2) := by
  have divider : timer.divider + UInt16.ofNat (first + second) =
      timer.divider + UInt16.ofNat first + UInt16.ofNat second := by
    rw [UInt16.ofNat_add, UInt16.add_assoc]
  cases running : timer.enabled with
  | false =>
    have still : (timer.tick first).2.enabled = false := by
      rw [enabled, (timer.settings_tick first).2]
      exact running
    dsimp only
    rw [tick_of_disabled still, tick_of_disabled running, tick_of_disabled running, divider]
    rfl
  | true =>
    have still : (timer.tick first).2.enabled = true := by
      rw [enabled, (timer.settings_tick first).2]
      exact running
    have whole : (timer.elapsed + (first + second)) / timer.period =
        (timer.elapsed + first) / timer.period +
          ((timer.elapsed + first) % timer.period + second) / timer.period := by
      rw [← Nat.add_assoc]
      conv => lhs; rw [← Nat.div_add_mod (timer.elapsed + first) timer.period, Nat.add_assoc]
      rw [Nat.mul_add_div timer.period_pos]
    have part : (timer.elapsed + (first + second)) % timer.period =
        ((timer.elapsed + first) % timer.period + second) % timer.period := by
      rw [← Nat.add_assoc, Nat.mod_add_mod]
    have pace : (timer.tick first).2.period = timer.period := by
      rw [period, (timer.settings_tick first).2]
      rfl
    dsimp only
    rw [tick_of_enabled still, pace, tick_of_enabled running, tick_of_enabled running, divider,
      whole, part, advance_add]
    dsimp only
    rw [advance_overflowed timer.modulo _ _
      (advance timer.modulo ((timer.elapsed + first) / timer.period) timer.counter false).2]

/-! ## Histories -/

/-- What happens to a timer: its registers are stored to, clocks pass, and the divider is reset. -/
inductive Action where
  | write (address : UInt16) (value : UInt8)
  | tick (clocks : Nat)
  | resetDivider
  deriving DecidableEq, Repr

/-- The timer after an action. -/
def perform : Action → Timer
  | .write address value => timer.write address value
  | .tick clocks => (timer.tick clocks).2
  | .resetDivider => timer.resetDivider

/-- The timer after a history, first action first. -/
def performAll (actions : List Action) : Timer := actions.foldl perform timer

theorem Sound.perform {timer : Timer} (sound : timer.Sound) (action : Action) :
    (timer.perform action).Sound := by
  cases action with
  | write address value => exact sound.write address value
  | tick clocks => exact sound.tick clocks
  | resetDivider => exact timer.sound_resetDivider

theorem Sound.performAll {timer : Timer} (sound : timer.Sound) (actions : List Action) :
    (timer.performAll actions).Sound := by
  induction actions generalizing timer with
  | nil => exact sound
  | cons action rest ih => exact ih (sound.perform action)

/-- A timer after any history of writes, ticks and resets, and a tick as long as what is counted
still fits 32 bits.
`part`: less than a period is counted towards the next advance. `checked`: taking periods off one at
a time, with checked sums, is this tick. `settings`, `divider`: the clocks are added to the divider,
and programs alone change modulo and control. `stopped`: nothing else changes while the timer is
off. `running`: otherwise the whole periods among the clocks advance the counter, from the modulo
again after each overflow. `batches`: two ticks are one. -/
theorem tick_closed_form (actions : List Action) :
    let timer := ({} : Timer).performAll actions
    timer.elapsed < timer.period ∧
      (∀ clocks, timer.elapsed + clocks < 2 ^ 32 →
        let overflowed := (timer.tick clocks).1
        let after := (timer.tick clocks).2
        let advances := (timer.elapsed + clocks) / timer.period
        timer.tick? clocks = some (timer.tick clocks) ∧
          (after.modulo = timer.modulo ∧ after.control = timer.control) ∧
          after.divider.toNat = (timer.divider.toNat + clocks) % 65536 ∧
          (timer.enabled = false →
            overflowed = false ∧ after.elapsed = timer.elapsed ∧
              after.counter = timer.counter) ∧
          (timer.enabled = true →
            after.elapsed = (timer.elapsed + clocks) % timer.period ∧
              (timer.counter.toNat + advances < 256 →
                overflowed = false ∧ after.counter.toNat = timer.counter.toNat + advances) ∧
              (256 ≤ timer.counter.toNat + advances →
                overflowed = true ∧
                  after.counter.toNat = timer.modulo.toNat +
                    (advances - (256 - timer.counter.toNat)) % (256 - timer.modulo.toNat)))) ∧
      ∀ first second, timer.elapsed + (first + second) < 2 ^ 32 →
        let before := timer.tick first
        let after := before.2.tick second
        timer.tick? first = some before ∧ before.2.tick? second = some after ∧
          timer.tick? (first + second) = some (before.1 || after.1, after.2) := by
  intro timer
  have fresh : ({} : Timer).Sound := ({} : Timer).period_pos
  have part : timer.Sound := fresh.performAll actions
  refine ⟨part, ?single, ?batches⟩
  case single =>
    intro clocks fits overflowed after advances
    refine ⟨tick?_eq fun _ => fits, timer.settings_tick clocks, ?divider, ?stopped, ?running⟩
    case divider =>
      have added : after.divider = timer.divider + UInt16.ofNat clocks := timer.divider_tick clocks
      rw [added, UInt16.toNat_add, UInt16.toNat_ofNat']
      omega
    case stopped =>
      intro off
      have ticked := tick_of_disabled off clocks
      simp only [overflowed, after, ticked, and_self]
    case running =>
      intro on
      have ticked := tick_of_enabled on clocks
      refine ⟨congrArg (fun result => result.2.elapsed) ticked, fun room => ?_, fun full => ?_⟩
      · obtain ⟨counter, flag⟩ := advance_of_room timer.modulo false room
        simp only [overflowed, after, ticked]
        exact ⟨flag, counter⟩
      · obtain ⟨counter, flag⟩ := advance_of_overflow timer.modulo false full
        simp only [overflowed, after, ticked]
        exact ⟨flag, counter⟩
  case batches =>
    intro first second fits before after
    have fitsFirst : timer.elapsed + first < 2 ^ 32 := by omega
    have fitsSecond (on : before.2.enabled = true) : before.2.elapsed + second < 2 ^ 32 := by
      have same : timer.enabled = true := by
        rw [enabled, ← (timer.settings_tick first).2]
        exact on
      have left : before.2.elapsed = (timer.elapsed + first) % timer.period :=
        congrArg (fun result => result.2.elapsed) (tick_of_enabled same first)
      have less := Nat.mod_le (timer.elapsed + first) timer.period
      omega
    refine ⟨tick?_eq fun _ => fitsFirst, tick?_eq fitsSecond, ?_⟩
    rw [tick?_eq fun _ => fits, tick_add]

/-- A counter that starts again from 0xfd, three advances before it overflows: six advances in one
tick overflow it twice and leave it at 0xfe. -/
theorem tick_closed_form_overflowing :
    let timer := ({} : Timer).performAll
      [.write 0xff07 0x05, .write 0xff05 0xfe, .write 0xff06 0xfd, .tick 10]
    timer.elapsed + (90 + 6) < 2 ^ 32 ∧ timer.enabled = true ∧
      timer.tick? 96 = some (timer.tick 96) ∧ (timer.tick 96).1 = true ∧
      (timer.tick 96).2.counter.toNat = 0xfe ∧ (timer.tick 96).2.elapsed = 10 ∧
      timer.tick? (90 + 6) = some
        ((timer.tick 90).1 || ((timer.tick 90).2.tick 6).1, ((timer.tick 90).2.tick 6).2) := by
  intro timer
  have fits : timer.elapsed + (90 + 6) < 2 ^ 32 := by decide
  have on : timer.enabled = true := by decide
  obtain ⟨_, single, batches⟩ := tick_closed_form
    [.write 0xff07 0x05, .write 0xff05 0xfe, .write 0xff06 0xfd, .tick 10]
  obtain ⟨checked, _, _, _, running⟩ := single 96 fits
  obtain ⟨elapsed, _, overflows⟩ := running on
  obtain ⟨flag, counter⟩ := overflows (by decide)
  have reached : (timer.tick 96).2.counter.toNat = 0xfe := by
    rw [counter]
    decide
  have left : (timer.tick 96).2.elapsed = 10 := by
    rw [elapsed]
    decide
  exact ⟨fits, on, checked, flag, reached, left, (batches 90 6 fits).2.2⟩

end Handheld.Timer
