import Handheld.Lcd
import Handheld.Machine.Step

/-!
# Consoles

A console is a machine with a video unit, run one frame at a time. A frame is a budget of clocks;
it ends with the first instruction or interrupt service that uses the budget up.
-/
namespace Handheld

structure Console (σ : Type) where
  machine : Machine
  video : σ
  /-- Clocks of all frames completed so far. -/
  cycles : Nat := 0

namespace Console

variable {σ : Type} [VideoUnit σ]

/-- Clocks of a frame at single speed: a sixtieth of a second. -/
def frameClocks : Nat := 4194304 / 60

/-- Clocks that a halted processor lets pass at a time. -/
def idleClocks : Nat := 4

/-- Colour is used when it is asked for and the cartridge supports it. -/
def powerOn (cartridge : Cartridge) (color : Bool) (video : σ) : Console σ where
  machine := .powerOn cartridge (color && cartridge.header.color != .none)
  video := video

/-- Lets processor clocks pass for the timer and the video unit. The video unit keeps its rate at
either speed. -/
def tick (console : Console σ) (clocks : Nat) : Console σ :=
  let machine := console.machine
  let bus := machine.bus.tick clocks
  let videoClocks := if bus.doubleSpeed then clocks / 2 else clocks
  let stepped := VideoUnit.step console.video videoClocks bus
  { console with
    machine := { machine with bus := stepped.bus.requestMask stepped.requests }
    video := stepped.unit }

/-- One instruction, or a moment of a halted processor. -/
def work (machine : Machine) : Except UnassignedOpcode Nat × Machine :=
  if machine.cpu.halted then (.ok idleClocks, machine) else machine.step

/-- One turn: some work and then the service of a waiting request. Counts the clocks of both. -/
def turn (console : Console σ) : Except UnassignedOpcode Nat × Console σ :=
  match work console.machine with
  | (.error fault, machine) => (.error fault, { console with machine })
  | (.ok worked, machine) =>
    let console := tick { console with machine } worked
    match console.machine.service with
    | (none, machine) => (.ok worked, { console with machine })
    | (some served, machine) => (.ok (worked + served), tick { console with machine } served)

theorem clocks_pos_of_work {machine : Machine} {clocks : Nat}
    (worked : (work machine).1 = .ok clocks) : 0 < clocks := by
  unfold work at worked
  split at worked
  · cases worked
    decide
  · exact Machine.clocks_pos_of_step worked

theorem clocks_pos_of_turn {console after : Console σ} {clocks : Nat}
    (turned : console.turn = (.ok clocks, after)) : 0 < clocks := by
  unfold turn at turned
  split at turned
  · cases turned
  · rename_i worked machine ran
    have positive : 0 < worked := clocks_pos_of_work (by rw [ran])
    dsimp only at turned
    split at turned <;> cases turned <;> omega

/-- Takes turns until `total` clocks have reached the budget, and counts them. -/
def runTurns (console : Console σ) (budget total : Nat) :
    Except UnassignedOpcode Nat × Console σ :=
  if total < budget then
    match _turned : console.turn with
    | (.error fault, console) => (.error fault, console)
    | (.ok clocks, console) => runTurns console budget (total + clocks)
  else
    (.ok total, console)
termination_by budget - total
decreasing_by
  have := clocks_pos_of_turn _turned
  omega

theorem runTurns_of_spent (console : Console σ) {budget total : Nat} (spent : budget ≤ total) :
    console.runTurns budget total = (.ok total, console) := by
  rw [runTurns, if_neg (Nat.not_lt.mpr spent)]

theorem runTurns_of_turn {console after : Console σ} {budget total clocks : Nat}
    (within : total < budget) (turned : console.turn = (.ok clocks, after)) :
    console.runTurns budget total = after.runTurns budget (total + clocks) := by
  rw [runTurns, if_pos within]
  split
  · rename_i failed
    rw [turned] at failed
    cases failed
  · rename_i ran
    rw [turned] at ran
    cases ran
    rfl

theorem runTurns_of_fault {console after : Console σ} {budget total : Nat}
    {fault : UnassignedOpcode} (within : total < budget)
    (turned : console.turn = (.error fault, after)) :
    console.runTurns budget total = (.error fault, after) := by
  rw [runTurns, if_pos within]
  split
  · rename_i failed
    rw [turned] at failed
    cases failed
    rfl
  · rename_i ran
    rw [turned] at ran
    cases ran

/-- The clocks that the next frame has to use up. -/
def budget (console : Console σ) : Nat :=
  if console.machine.bus.doubleSpeed then 2 * frameClocks else frameClocks

/-- Runs a frame and counts its clocks. A frame that cannot be finished is not counted. -/
def runFrame (console : Console σ) : Except UnassignedOpcode Nat × Console σ :=
  match console.runTurns console.budget 0 with
  | (.ok total, console) => (.ok total, { console with cycles := console.cycles + total })
  | (.error fault, console) => (.error fault, console)

/-- A frame that could not be finished, by its number from zero. -/
structure Breakdown where
  frame : Nat
  fault : UnassignedOpcode
  deriving DecidableEq, Repr

/-- Runs frames until `count` are done or one cannot be finished. The first has number `first`. -/
def runFrames (console : Console σ) (first : Nat) : Nat → Option Breakdown × Console σ
  | 0 => (none, console)
  | count + 1 =>
    match console.runFrame with
    | (.ok _, console) => runFrames console (first + 1) count
    | (.error fault, console) => (some ⟨first, fault⟩, console)

end Console

end Handheld
