import Mathlib.Algebra.Ring.Nat
import Handheld.Proofs.Cartridge.Program
import Handheld.Proofs.Console.Requests
import Handheld.Proofs.Machine.Clocks

/-!
# The clocks of a frame

A frame counts clocks in three places: for its own budget, for the bus with its timer, and for the
video unit, which at double speed is given half. What the bus is given is found by taking each tick
of a frame apart, so that giving clocks to the bus and giving clocks to the unit are parts of their
own, and playing the parts one after the other. What the unit is given is also read off a unit that
keeps a list of it and is otherwise the unit it contains. `runFrame_accounts` says that the three
agree: all clocks are whole machine cycles, so the halves lose nothing.
-/
namespace Handheld

/-- A video unit with a list of the clocks it was given, in the order of its steps. The list is all
that the meter adds. -/
structure Metered (σ : Type) where
  unit : σ
  received : List Nat := []

instance {σ : Type} [VideoUnit σ] : VideoUnit (Metered σ) where
  step metered clocks bus :=
    let stepped := VideoUnit.step metered.unit clocks bus
    { unit := { unit := stepped.unit, received := metered.received ++ [clocks] }
      bus := stepped.bus
      requests := stepped.requests }

/-- The unit leaves the speed of the machine as it is. -/
def VideoUnit.KeepsSpeed (σ : Type) [VideoUnit σ] : Prop :=
  ∀ (unit : σ) (clocks : Nat) (bus : Bus),
    (VideoUnit.step unit clocks bus).bus.doubleSpeed = bus.doubleSpeed

/-- Processor clocks that pass at once, and whether the machine runs at double speed after them. The
speed is looked at after the bus has had its clocks, as the halving looks at it. -/
structure Tick where
  clocks : Nat
  double : Bool
  deriving DecidableEq, Repr

/-- What is left of a tick at the rate of the video unit. -/
def Tick.videoClocks (tick : Tick) : Nat := if tick.double then tick.clocks / 2 else tick.clocks

/-- What a run does, with its ticks taken apart. Clocks pass on the bus in the parts `bus` only, and
on the unit in the parts `video` only. -/
inductive Part where
  | work
  | bus (clocks : Nat)
  | video (clocks : Nat)
  | service
  | finish (clocks : Nat)
  | press (key : Key)
  | release (key : Key)
  deriving DecidableEq, Repr

/-- The clocks that a part gives to the bus. -/
def Part.busClocks? : Part → Option Nat
  | .bus clocks => some clocks
  | _ => none

/-- The clocks that a part gives to the unit. -/
def Part.videoClocks? : Part → Option Nat
  | .video clocks => some clocks
  | _ => none

namespace Console

variable {σ : Type} [VideoUnit σ]

/-- Plays one part. The unit is stepped on the bus as the clocks have left it, and its requests are
made after that. -/
def play (console : Console σ) : Part → Console σ
  | .work => console.perform .work
  | .bus clocks => console.setBus (console.machine.bus.tick clocks)
  | .video clocks =>
    let stepped := VideoUnit.step console.video clocks console.machine.bus
    { console.setBus (stepped.bus.requestMask stepped.requests) with video := stepped.unit }
  | .service => console.perform .service
  | .finish clocks => console.perform (.finish clocks)
  | .press key => console.perform (.press key)
  | .release key => console.perform (.release key)

/-- Plays a list of parts, one after the other. -/
def playAll (console : Console σ) (parts : List Part) : Console σ := parts.foldl play console

/-- The ticks among the actions of a run. -/
def ticks (console : Console σ) : List Action → List Tick
  | [] => []
  | action :: rest =>
    let after := console.perform action
    let later := after.ticks rest
    match action with
    | .tick clocks => ⟨clocks, after.machine.bus.doubleSpeed⟩ :: later
    | _ => later

/-- An action taken apart. The speed that decides what the unit is given is the one after it. -/
def actionParts (console : Console σ) : Action → List Part
  | .work => [.work]
  | .tick clocks =>
    let tick : Tick := ⟨clocks, (console.tick clocks).machine.bus.doubleSpeed⟩
    [.bus clocks, .video tick.videoClocks]
  | .service => [.service]
  | .finish clocks => [.finish clocks]
  | .press key => [.press key]
  | .release key => [.release key]

/-- The parts of the actions of a run. -/
def parts (console : Console σ) : List Action → List Part
  | [] => []
  | action :: rest => console.actionParts action ++ (console.perform action).parts rest

/-- A console whose unit lists the clocks it is given, after those in `received`. -/
def meter (console : Console σ) (received : List Nat) : Console (Metered σ) where
  machine := console.machine
  video := { unit := console.video, received }
  cycles := console.cycles

/-- The ticks of actions in two parts. Those of the second are looked at where the first ends. -/
theorem ticks_append (console : Console σ) (first second : List Action) :
    console.ticks (first ++ second) =
      console.ticks first ++ (console.performAll first).ticks second := by
  induction first generalizing console with
  | nil => rfl
  | cons action rest ih =>
    have later := ih (console.perform action)
    cases action <;> simp only [List.cons_append, ticks, later] <;> rfl

theorem double_tick (keeps : VideoUnit.KeepsSpeed σ) (console : Console σ) (clocks : Nat) :
    (console.tick clocks).machine.bus.doubleSpeed =
      (console.machine.bus.tick clocks).doubleSpeed :=
  keeps console.video _ _

/-! ## Parts -/

/-- A tick is its two parts, as the unit does not change the speed at which it is stepped. -/
theorem playAll_actionParts (keeps : VideoUnit.KeepsSpeed σ) (console : Console σ)
    (action : Action) : console.playAll (console.actionParts action) = console.perform action := by
  cases action with
  | tick clocks =>
    dsimp only [actionParts]
    rw [double_tick keeps]
    rfl
  | work | service | finish | press | release => rfl

theorem playAll_append (console : Console σ) (first second : List Part) :
    console.playAll (first ++ second) = (console.playAll first).playAll second :=
  List.foldl_append

/-- So the parts of a run play it. -/
theorem playAll_parts (keeps : VideoUnit.KeepsSpeed σ) (console : Console σ)
    (actions : List Action) :
    console.playAll (console.parts actions) = console.performAll actions := by
  induction actions generalizing console with
  | nil => rfl
  | cons action rest ih =>
    rw [parts, playAll_append, playAll_actionParts keeps, ih]
    rfl

/-- The parts of a run give to the bus the clocks of its ticks, and to the unit what is left of
them. -/
theorem clocks_parts (console : Console σ) (actions : List Action) :
    (console.parts actions).filterMap Part.busClocks? =
        (console.ticks actions).map Tick.clocks ∧
      (console.parts actions).filterMap Part.videoClocks? =
        (console.ticks actions).map Tick.videoClocks := by
  induction actions generalizing console with
  | nil => exact ⟨rfl, rfl⟩
  | cons action rest ih =>
    obtain ⟨bus, video⟩ := ih (console.perform action)
    rw [parts, List.filterMap_append, List.filterMap_append, bus, video]
    cases action <;> exact ⟨rfl, rfl⟩

theorem count_work_parts (console : Console σ) (actions : List Action) :
    (console.parts actions).count .work = actions.count .work := by
  induction actions generalizing console with
  | nil => rfl
  | cons action rest ih =>
    rw [parts, List.count_append, ih, List.count_cons, Nat.add_comm]
    cases action <;> rfl

/-! ## The meter -/

/-- The meter is given what the halving leaves, and changes nothing else. -/
theorem meter_tick (keeps : VideoUnit.KeepsSpeed σ) (console : Console σ) (clocks : Nat)
    (received : List Nat) :
    (console.meter received).tick clocks =
      (console.tick clocks).meter
        (received ++
          [Tick.videoClocks ⟨clocks, (console.tick clocks).machine.bus.doubleSpeed⟩]) := by
  rw [double_tick keeps]
  rfl

/-- The meter follows a run of actions and lists what its ticks leave for the unit. -/
theorem meter_performAll (keeps : VideoUnit.KeepsSpeed σ) (console : Console σ)
    (actions : List Action) (received : List Nat) :
    (console.meter received).performAll actions =
      (console.performAll actions).meter
        (received ++ (console.ticks actions).map Tick.videoClocks) := by
  induction actions generalizing console received with
  | nil => simp [performAll, ticks]
  | cons action rest ih =>
    have later := ih (console.perform action)
    cases action with
    | tick clocks =>
      have first := meter_tick keeps console clocks received
      simp only [performAll, List.foldl_cons, perform, first, ticks] at later ⊢
      rw [later]
      simp
    | _ => exact later received

/-! ## One turn -/

theorem cycles_of_work {machine : Machine} {clocks : Nat} (ran : (work machine).1 = .ok clocks) :
    ∃ cycles, clocks = 4 * cycles ∧ 1 ≤ cycles ∧ cycles ≤ 6 := by
  unfold work at ran
  split at ran
  · cases ran
    exact ⟨1, rfl, by decide, by decide⟩
  · exact Machine.cycles_of_step ran

/-- A turn that succeeds takes from one to eleven machine cycles, all of them in its ticks. -/
theorem clocks_of_turn {console after : Console σ} {clocks : Nat}
    (turned : console.turn = (.ok clocks, after)) :
    (∃ cycles, clocks = 4 * cycles ∧ 1 ≤ cycles ∧ cycles ≤ 11) ∧
      ((console.ticks console.turnActions).map Tick.clocks).sum = clocks := by
  rcases console.turn_cases with ⟨fault, machine, ran⟩ | ⟨worked, machine, ran, idle⟩ |
      ⟨worked, machine, served, ran, serves⟩
  · rw [(console.turn_of_fault ran).2] at turned
    cases turned
  · obtain ⟨cycles, rfl, least, most⟩ := cycles_of_work (by rw [ran])
    obtain ⟨actions, turn⟩ := console.turn_of_idle ran idle
    rw [turn] at turned
    cases turned
    rw [actions]
    exact ⟨⟨cycles, rfl, least, by omega⟩, by simp [ticks]⟩
  · obtain ⟨cycles, rfl, least, most⟩ := cycles_of_work (by rw [ran])
    have fixed := Machine.clocks_of_service serves
    obtain ⟨actions, turn⟩ := console.turn_of_service ran serves
    rw [turn] at turned
    cases turned
    rw [actions]
    exact ⟨⟨cycles + 5, by omega, by omega, by omega⟩, by simp [ticks]⟩

/-- Whether or not a turn succeeds, it works once and ticks whole machine cycles. -/
theorem turnActions_cases (console : Console σ) :
    console.turnActions = [.work] ∨
    (∃ cycles, console.turnActions = [.work, .tick (4 * cycles), .service]) ∨
    (∃ cycles, console.turnActions = [.work, .tick (4 * cycles), .service, .tick (4 * 5)]) := by
  rcases console.turn_cases with ⟨fault, machine, ran⟩ | ⟨worked, machine, ran, idle⟩ |
      ⟨worked, machine, served, ran, serves⟩
  · exact .inl (console.turn_of_fault ran).1
  · obtain ⟨cycles, rfl, _⟩ := cycles_of_work (by rw [ran])
    exact .inr (.inl ⟨cycles, (console.turn_of_idle ran idle).1⟩)
  · obtain ⟨cycles, rfl, _⟩ := cycles_of_work (by rw [ran])
    obtain rfl := Machine.clocks_of_service serves
    exact .inr (.inr ⟨cycles, (console.turn_of_service ran serves).1⟩)

theorem whole_ticks_of_turn (console : Console σ) :
    ∀ tick ∈ console.ticks console.turnActions, 4 ∣ tick.clocks := by
  rcases console.turnActions_cases with actions | ⟨cycles, actions⟩ | ⟨cycles, actions⟩
  · rw [actions]
    simp [ticks]
  · rw [actions]
    intro tick member
    obtain rfl := List.mem_singleton.mp member
    exact Nat.dvd_mul_right 4 cycles
  · rw [actions]
    intro tick member
    rcases List.mem_cons.mp member with first | later
    · rw [first]
      exact Nat.dvd_mul_right 4 cycles
    · obtain rfl := List.mem_singleton.mp later
      exact Nat.dvd_mul_right 4 5

/-- Turns do not count clocks in the console; a finished frame does. -/
theorem cycles_turn (console : Console σ) : console.turn.2.cycles = console.cycles := by
  rw [turn_eq_performAll]
  rcases console.turnActions_cases with actions | ⟨cycles, actions⟩ | ⟨cycles, actions⟩
  · rw [actions]
    rfl
  · rw [actions]
    rfl
  · rw [actions]
    rfl

theorem count_work_turnActions (console : Console σ) : console.turnActions.count .work = 1 := by
  rcases console.turnActions_cases with actions | ⟨cycles, actions⟩ | ⟨cycles, actions⟩
  · rw [actions]
    rfl
  · rw [actions]
    rfl
  · rw [actions]
    rfl

/-- The meter does not change the course of a turn. -/
theorem meter_turn (keeps : VideoUnit.KeepsSpeed σ) (console : Console σ) (received : List Nat) :
    (console.meter received).turn =
      (console.turn.1, console.turn.2.meter
        (received ++ (console.ticks console.turnActions).map Tick.videoClocks)) := by
  have metered := meter_performAll keeps console console.turnActions received
  rcases console.turn_cases with ⟨fault, machine, ran⟩ | ⟨worked, machine, ran, idle⟩ |
      ⟨worked, machine, served, ran, serves⟩
  · obtain ⟨actions, turn⟩ := console.turn_of_fault ran
    have same := ((console.meter received).turn_of_fault ran).2
    rw [same, turn, actions]
    simp [ticks, meter]
  · obtain ⟨actions, turn⟩ := console.turn_of_idle ran idle
    have same := ((console.meter received).turn_of_idle ran idle).2
    rw [actions] at metered
    rw [same, turn, actions, metered]
  · obtain ⟨actions, turn⟩ := console.turn_of_service ran serves
    have same := ((console.meter received).turn_of_service ran serves).2
    rw [actions] at metered
    rw [same, turn, actions, metered]

/-! ## The turns of a frame -/

theorem meter_runTurns (keeps : VideoUnit.KeepsSpeed σ) (console : Console σ) (budget total : Nat)
    (received : List Nat) :
    (console.meter received).runTurns budget total =
      ((console.runTurns budget total).1, (console.runTurns budget total).2.meter
        (received ++
          (console.ticks (console.turnsActions budget total)).map Tick.videoClocks)) := by
  refine turns_induction (motive := fun console total => ∀ received,
    (console.meter received).runTurns budget total =
      ((console.runTurns budget total).1, (console.runTurns budget total).2.meter
        (received ++
          (console.ticks (console.turnsActions budget total)).map Tick.videoClocks)))
    budget ?spent ?failed ?turned console total received
  case spent =>
    intro console total spent received
    rw [runTurns_of_spent _ spent, runTurns_of_spent _ spent, turnsActions_of_spent _ spent]
    simp [ticks]
  case failed =>
    intro console total fault after within turned received
    have metered := meter_turn keeps console received
    rw [turned] at metered
    rw [runTurns_of_fault within metered, runTurns_of_fault within turned,
      turnsActions_of_fault within turned]
  case turned =>
    intro console total clocks after within turned ih received
    have metered := meter_turn keeps console received
    have performed := console.turn_eq_performAll
    rw [turned] at metered performed
    rw [runTurns_of_turn within metered, runTurns_of_turn within turned,
      turnsActions_of_turn within turned, ih, ticks_append, ← performed]
    simp

theorem whole_ticks_of_turns (console : Console σ) (budget total : Nat) :
    ∀ tick ∈ console.ticks (console.turnsActions budget total), 4 ∣ tick.clocks := by
  refine turns_induction (motive := fun console total =>
    ∀ tick ∈ console.ticks (console.turnsActions budget total), 4 ∣ tick.clocks)
    budget ?spent ?failed ?turned console total
  case spent =>
    intro console total spent
    rw [turnsActions_of_spent _ spent]
    simp [ticks]
  case failed =>
    intro console total fault after within turned
    rw [turnsActions_of_fault within turned]
    exact console.whole_ticks_of_turn
  case turned =>
    intro console total clocks after within turned ih tick member
    have performed := console.turn_eq_performAll
    rw [turned] at performed
    rw [turnsActions_of_turn within turned, ticks_append, ← performed, List.mem_append] at member
    rcases member with first | later
    · exact console.whole_ticks_of_turn tick first
    · exact ih tick later

/-- A turn takes at least four clocks, so the turns are few. -/
theorem count_work_turnsActions (console : Console σ) (budget total : Nat) :
    4 * (console.turnsActions budget total).count .work ≤ budget - total + 3 := by
  refine turns_induction (motive := fun console total =>
    4 * (console.turnsActions budget total).count .work ≤ budget - total + 3)
    budget ?spent ?failed ?turned console total
  case spent =>
    intro console total spent
    rw [turnsActions_of_spent _ spent]
    simp
  case failed =>
    intro console total fault after within turned
    rw [turnsActions_of_fault within turned, count_work_turnActions]
    omega
  case turned =>
    intro console total clocks after within turned ih
    obtain ⟨⟨cycles, least, _⟩, _⟩ := clocks_of_turn turned
    rw [turnsActions_of_turn within turned, List.count_append, count_work_turnActions]
    omega

theorem cycles_runTurns (console : Console σ) (budget total : Nat) :
    (console.runTurns budget total).2.cycles = console.cycles := by
  refine turns_induction (motive := fun console total =>
    (console.runTurns budget total).2.cycles = console.cycles)
    budget ?spent ?failed ?turned console total
  case spent =>
    intro console total spent
    rw [runTurns_of_spent _ spent]
  case failed =>
    intro console total fault after within turned
    have kept := console.cycles_turn
    rw [turned] at kept
    rw [runTurns_of_fault within turned]
    exact kept
  case turned =>
    intro console total clocks after within turned ih
    have kept := console.cycles_turn
    rw [turned] at kept
    rw [runTurns_of_turn within turned, ih]
    exact kept

/-- The turns stop within one turn of the budget, and what they count is in their ticks. -/
theorem clocks_of_runTurns {console after : Console σ} {budget total final : Nat}
    (whole : 4 ∣ total) (started : total ≤ budget + 43)
    (ran : console.runTurns budget total = (.ok final, after)) :
    4 ∣ final ∧ budget ≤ final ∧ final ≤ budget + 43 ∧
      final =
        total + ((console.ticks (console.turnsActions budget total)).map Tick.clocks).sum := by
  refine turns_induction (motive := fun console total =>
    4 ∣ total → total ≤ budget + 43 → console.runTurns budget total = (.ok final, after) →
      4 ∣ final ∧ budget ≤ final ∧ final ≤ budget + 43 ∧
        final =
          total + ((console.ticks (console.turnsActions budget total)).map Tick.clocks).sum)
    budget ?spent ?failed ?turned console total whole started ran
  case spent =>
    intro console total spent whole started ran
    rw [runTurns_of_spent _ spent] at ran
    cases ran
    rw [turnsActions_of_spent _ spent]
    exact ⟨whole, spent, started, by simp [ticks]⟩
  case failed =>
    intro console total fault stopped within turned whole started ran
    rw [runTurns_of_fault within turned] at ran
    cases ran
  case turned =>
    intro console total clocks next within turned ih whole started ran
    obtain ⟨⟨cycles, few, least, most⟩, inTicks⟩ := clocks_of_turn turned
    have performed := console.turn_eq_performAll
    rw [turned] at performed
    rw [runTurns_of_turn within turned] at ran
    obtain ⟨wholeFinal, reached, near, sum⟩ := ih (by omega) (by omega) ran
    refine ⟨wholeFinal, reached, near, ?_⟩
    rw [turnsActions_of_turn within turned, ticks_append, ← performed, List.map_append,
      List.sum_append, inTicks]
    dsimp only
    omega

/-! ## The accounts of a frame -/

theorem ticks_frameActions (console : Console σ) :
    console.ticks console.frameActions =
      console.ticks (console.turnsActions console.budget 0) := by
  unfold frameActions
  cases console.runFrame.1 with
  | error fault => rfl
  | ok total =>
    dsimp only
    rw [ticks_append]
    simp [ticks]

/-- A frame beside a meter is the frame, and the meter lists what the unit was given. -/
theorem meter_runFrame (keeps : VideoUnit.KeepsSpeed σ) (console : Console σ) :
    (console.meter []).runFrame =
      (console.runFrame.1, console.runFrame.2.meter
        ((console.ticks console.frameActions).map Tick.videoClocks)) := by
  have metered := meter_runTurns keeps console console.budget 0 []
  rw [ticks_frameActions]
  cases ran : console.runTurns console.budget 0 with
  | mk outcome after =>
    rw [ran] at metered
    cases outcome with
    | error fault => rw [runFrame_of_fault ran, runFrame_of_fault metered, List.nil_append]
    | ok total =>
      rw [runFrame_of_turns ran, runFrame_of_turns metered, List.nil_append]
      rfl

/-- Halving each part of a sum of whole machine cycles is halving the sum. -/
theorem sum_videoClocks {ticks : List Tick} {double : Bool}
    (whole : ∀ tick ∈ ticks, 4 ∣ tick.clocks) (steady : ∀ tick ∈ ticks, tick.double = double) :
    (ticks.map Tick.videoClocks).sum =
      if double then (ticks.map Tick.clocks).sum / 2 else (ticks.map Tick.clocks).sum := by
  induction ticks with
  | nil => cases double <;> rfl
  | cons tick rest ih =>
    obtain ⟨cycles, clocks⟩ := whole tick (by simp)
    have later := ih (fun other member => whole other (by simp [member]))
      (fun other member => steady other (by simp [member]))
    simp only [List.map_cons, List.sum_cons, Tick.videoClocks, steady tick (by simp), clocks]
    cases double with
    | false =>
      simp only [Bool.false_eq_true, if_false] at later ⊢
      rw [later]
    | true =>
      simp only [if_true] at later ⊢
      omega

/-- A frame beside a unit that leaves the speed alone. What it leaves is what its parts leave,
played one after the other, and few of them work. In these parts the bus is given the clocks of the
ticks and the unit what the halving leaves of these, which is also what a meter on the unit
receives, and no halving loses a clock. A frame that is finished takes whole machine cycles, ends
within one turn of its budget, is counted in full, and has given all of its clocks to the bus; if
the speed is the same in all its ticks, the unit has received all of them or half. A frame that
fails is not counted. -/
theorem runFrame_accounts (keeps : VideoUnit.KeepsSpeed σ) (console : Console σ) :
    let double := console.machine.bus.doubleSpeed
    let budget := if double then 2 * (4194304 / 60) else 4194304 / 60
    let parts := console.parts console.frameActions
    let ticks := console.ticks console.frameActions
    let given := parts.filterMap Part.busClocks?
    let received := parts.filterMap Part.videoClocks?
    console.runFrame.2 = console.playAll parts ∧
      4 * parts.count .work ≤ budget + 3 ∧
      (console.meter []).runFrame = (console.runFrame.1, console.runFrame.2.meter received) ∧
      given = ticks.map Tick.clocks ∧
      received = ticks.map Tick.videoClocks ∧
      (∀ tick ∈ ticks, tick.double = true → 2 * tick.videoClocks = tick.clocks) ∧
      match console.runFrame.1 with
      | .ok total =>
        4 ∣ total ∧ budget ≤ total ∧ total ≤ budget + 43 ∧
          console.runFrame.2.cycles = console.cycles + total ∧
          given.sum = total ∧
          ((∀ tick ∈ ticks, tick.double = double) →
            received.sum = if double then total / 2 else total)
      | .error _ => console.runFrame.2.cycles = console.cycles := by
  intro double budget parts ticks given received
  obtain ⟨bus, video⟩ := console.clocks_parts console.frameActions
  have gives : given = ticks.map Tick.clocks := bus
  have receives : received = ticks.map Tick.videoClocks := video
  have same : ticks = console.ticks (console.turnsActions budget 0) := console.ticks_frameActions
  have whole : ∀ tick ∈ ticks, 4 ∣ tick.clocks := by
    rw [same]
    exact console.whole_ticks_of_turns budget 0
  have cycles := console.cycles_runTurns budget 0
  refine ⟨?played, ?few, ?metered, gives, receives, ?halves, ?outcome⟩
  case played =>
    rw [playAll_parts keeps]
    exact console.runFrame_eq_performAll
  case few =>
    have few := console.count_work_turnsActions budget 0
    rw [count_work_parts]
    unfold frameActions
    cases console.runFrame.1 with
    | error fault => exact few
    | ok total =>
      dsimp only
      rw [List.count_append]
      exact few
  case metered =>
    rw [receives]
    exact meter_runFrame keeps console
  case halves =>
    intro tick member fast
    obtain ⟨quarter, clocks⟩ := whole tick member
    simp only [Tick.videoClocks, fast, if_true]
    omega
  case outcome =>
    rw [gives, receives]
    cases ran : console.runTurns budget 0 with
    | mk outcome after =>
      rw [ran] at cycles
      dsimp only at cycles
      cases outcome with
      | error fault =>
        rw [runFrame_of_fault ran]
        exact cycles
      | ok total =>
        obtain ⟨wholeTotal, reached, near, sum⟩ := clocks_of_runTurns (by simp) (by omega) ran
        rw [← same, Nat.zero_add] at sum
        have halved (steady : ∀ tick ∈ ticks, tick.double = double) :
            (ticks.map Tick.videoClocks).sum = if double then total / 2 else total := by
          rw [sum]
          exact sum_videoClocks whole steady
        rw [runFrame_of_turns ran]
        refine ⟨wholeTotal, reached, near, ?_, sum.symm, halved⟩
        dsimp only
        rw [cycles]

/-! ## A frame at rest -/

/-- The processor is halted, and no source is enabled that could wake it. Requests may come up and
wait. -/
structure Rests (console : Console σ) : Prop where
  halted : console.machine.cpu.halted = true
  disabled : console.machine.bus.interrupts.enable = 0

namespace Rests

variable {console : Console σ} (masks : VideoUnit.OnlyMasks σ) (rests : console.Rests)

omit [VideoUnit σ] in
include rests in
/-- Without an enabled source nothing is served and nothing wakes the processor. -/
theorem service : console.machine.service = (none, console.machine) := by
  have pending : console.machine.bus.interrupts.pending = 0 := by
    rw [Interrupts.pending, rests.disabled, UInt8.and_zero, UInt8.zero_and]
  rw [Machine.service, (Interrupts.next?_eq_none_iff _).mpr pending]

include rests in
theorem perform_work : console.perform .work = console := by
  rw [perform, work, if_pos rests.halted]

include masks rests

/-- Clocks may raise requests, but they enable none. -/
theorem tick (clocks : Nat) :
    (console.tick clocks).Rests ∧
      (console.tick clocks).machine.bus.doubleSpeed = console.machine.bus.doubleSpeed := by
  have ticked : (console.machine.bus.tick clocks).interrupts.enable =
        console.machine.bus.interrupts.enable ∧
      (console.machine.bus.tick clocks).doubleSpeed = console.machine.bus.doubleSpeed := by
    unfold Bus.tick
    split <;> exact ⟨rfl, rfl⟩
  have bus : (console.tick clocks).machine.bus =
      (console.machine.bus.tick clocks).requestMask (console.answer clocks) := by
    unfold Console.tick answer
    dsimp only
    rw [masks]
  refine ⟨⟨rests.halted, ?_⟩, ?_⟩
  · rw [bus]
    exact ticked.1.trans rests.disabled
  · rw [bus]
    exact ticked.2

/-- A turn at rest lets one machine cycle pass. -/
theorem turn :
    console.turnActions = [.work, .tick 4, .service] ∧
      console.turn = (.ok 4, console.tick 4) := by
  have ran : work console.machine = (.ok 4, console.machine) := by
    rw [work, if_pos rests.halted]
    rfl
  have service := (rests.tick masks 4).1.service
  obtain ⟨actions, turn⟩ := console.turn_of_idle ran (congrArg Prod.fst service)
  refine ⟨actions, turn.trans (congrArg (Prod.mk _) ?_)⟩
  have after : (console.tick 4).perform .service = console.tick 4 := by rw [perform, service]
  have performed : console.performAll [.work, .tick 4, .service] =
      ((console.perform .work).tick 4).perform .service := rfl
  rw [performed, rests.perform_work, after]

/-- Turns at rest use a budget up to the next whole machine cycle. -/
theorem runTurns (turns : Nat) {budget total : Nat} (reaches : budget ≤ total + 4 * turns)
    (least : total + 4 * turns < budget + 4) :
    ∃ after, console.runTurns budget total = (.ok (total + 4 * turns), after) := by
  induction turns generalizing console total with
  | zero => exact ⟨console, runTurns_of_spent console reaches⟩
  | succ turns ih =>
    have within : total < budget := by omega
    have sum : total + 4 + 4 * turns = total + 4 * (turns + 1) := by omega
    have later := ih (rests.tick masks 4).1 (sum ▸ reaches) (sum ▸ least)
    rw [runTurns_of_turn within (rests.turn masks).2]
    exact sum ▸ later

/-- All turns at rest are taken at one speed. -/
theorem double_ticks (budget total : Nat) :
    ∀ tick ∈ console.ticks (console.turnsActions budget total),
      tick.double = console.machine.bus.doubleSpeed := by
  refine turns_induction (motive := fun console total => console.Rests →
    ∀ tick ∈ console.ticks (console.turnsActions budget total),
      tick.double = console.machine.bus.doubleSpeed)
    budget ?spent ?failed ?turned console total rests
  case spent =>
    intro console total spent _
    rw [turnsActions_of_spent _ spent]
    nofun
  case failed =>
    intro console total fault after within turned rests
    rw [(rests.turn masks).2] at turned
    cases turned
  case turned =>
    intro console total clocks after within turned ih rests tick member
    obtain ⟨later, speed⟩ := rests.tick masks 4
    obtain ⟨actions, turn⟩ := rests.turn masks
    have performed := console.turn_eq_performAll
    rw [turnsActions_of_turn within turned, ticks_append, ← performed, turned] at member
    rw [turned] at turn
    cases turn
    rcases List.mem_append.mp member with first | rest
    · have one : console.ticks [.work, .tick 4, .service] =
          [⟨4, ((console.perform .work).tick 4).machine.bus.doubleSpeed⟩] := rfl
      rw [actions, one, rests.perform_work] at first
      rw [List.mem_singleton.mp first]
      exact speed
    · exact (ih later tick rest).trans speed

end Rests

/-- A halted console at double speed, with a unit that asks for an interrupt at every tick. -/
def dozing : Console ClockMeter where
  machine :=
    { cpu := { registers := .powerOn true, halted := true }
      bus := { cartridge := .ofProgram #[] #[], color := true, doubleSpeed := true } }
  video := { requests := 0x01 }

/-- The budget of 139810 clocks is no number of whole machine cycles, so the frame ends two clocks
past it. The unit is given half of the clocks that pass, and all of them are counted. -/
theorem runFrame_accounts_dozing :
    let parts := dozing.parts dozing.frameActions
    let received := parts.filterMap Part.videoClocks?
    VideoUnit.KeepsSpeed ClockMeter ∧ dozing.runFrame.1 = .ok 139812 ∧
      dozing.runFrame.2 = dozing.playAll parts ∧ 4 * parts.count .work ≤ 139813 ∧
      (dozing.meter []).runFrame = (.ok 139812, dozing.runFrame.2.meter received) ∧
      dozing.runFrame.2.cycles = 139812 ∧
      (parts.filterMap Part.busClocks?).sum = 139812 ∧ received.sum = 69906 := by
  intro parts received
  have masks : VideoUnit.OnlyMasks ClockMeter := fun _ _ _ => rfl
  have keeps : VideoUnit.KeepsSpeed ClockMeter := fun _ _ _ => rfl
  have rests : dozing.Rests := ⟨rfl, rfl⟩
  obtain ⟨after, turns⟩ : ∃ after, dozing.runTurns dozing.budget 0 = (.ok 139812, after) :=
    rests.runTurns masks 34953 (by decide) (by decide)
  have ran : dozing.runFrame.1 = .ok 139812 := by rw [runFrame_of_turns turns]
  obtain ⟨played, few, metered, -, -, -, outcome⟩ := runFrame_accounts keeps dozing
  rw [ran] at metered outcome
  obtain ⟨-, -, -, cycles, given, halved⟩ := outcome
  have steady : ∀ tick ∈ dozing.ticks dozing.frameActions, tick.double = true := by
    rw [ticks_frameActions]
    exact rests.double_ticks masks dozing.budget 0
  exact ⟨keeps, ran, played, few, metered, cycles, given, halved steady⟩

end Console

end Handheld
