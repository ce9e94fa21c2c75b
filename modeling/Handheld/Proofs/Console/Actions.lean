import Handheld.Console

/-!
# What a console does, one action at a time

A frame repeats turns, and a turn is some work, the clocks of that work, a service and the clocks of
that. The list of these actions is computed here beside the frame itself. Performing the actions one
after the other gives the console that the frame gives, so what holds of every action holds of whole
frames.
-/
namespace Handheld

/-- Keys are pressed and released between frames, by the host. -/
inductive Action where
  | work
  | tick (clocks : Nat)
  | service
  /-- A frame of so many clocks is complete. -/
  | finish (clocks : Nat)
  | press (key : Key)
  | release (key : Key)
  deriving DecidableEq, Repr

/-- What a host asks of a console. A frame that fails may be followed by another one. -/
inductive Command where
  | frame
  | press (key : Key)
  | release (key : Key)
  deriving DecidableEq, Repr

namespace Console

variable {σ : Type} [VideoUnit σ]

/-- The console with another bus, as a host changes it between frames. -/
def setBus (console : Console σ) (bus : Bus) : Console σ :=
  { console with machine := { console.machine with bus } }

/-- The console after an action. Finishing a frame counts its clocks and does nothing else. -/
def perform (console : Console σ) : Action → Console σ
  | .work => { console with machine := (work console.machine).2 }
  | .tick clocks => console.tick clocks
  | .service => { console with machine := console.machine.service.2 }
  | .finish clocks => { console with cycles := console.cycles + clocks }
  | .press key => console.setBus (console.machine.bus.press key)
  | .release key => console.setBus (console.machine.bus.release key)

/-- The console after a list of actions. -/
def performAll (console : Console σ) (actions : List Action) : Console σ :=
  actions.foldl perform console

/-- The actions of a turn. A turn whose work fails ends with it. -/
def turnActions (console : Console σ) : List Action :=
  match work console.machine with
  | (.error _, _) => [.work]
  | (.ok worked, machine) =>
    match (tick { console with machine } worked).machine.service.1 with
    | none => [.work, .tick worked, .service]
    | some served => [.work, .tick worked, .service, .tick served]

/-- The actions of the turns that are taken until the budget is used up. -/
def turnsActions (console : Console σ) (budget total : Nat) : List Action :=
  if total < budget then
    match _turned : console.turn with
    | (.error _, _) => console.turnActions
    | (.ok clocks, after) => console.turnActions ++ turnsActions after budget (total + clocks)
  else
    []
termination_by budget - total
decreasing_by
  have := clocks_pos_of_turn _turned
  omega

/-- The actions of a frame. Only a frame that is complete is finished. -/
def frameActions (console : Console σ) : List Action :=
  let turns := console.turnsActions console.budget 0
  match console.runFrame.1 with
  | .ok total => turns ++ [.finish total]
  | .error _ => turns

/-! ## Turns -/

theorem performAll_append (console : Console σ) (first second : List Action) :
    console.performAll (first ++ second) = (console.performAll first).performAll second := by
  simp [performAll]

section

variable (console : Console σ) {machine : Machine} {worked served : Nat}

theorem turn_of_fault {fault : UnassignedOpcode}
    (ran : work console.machine = (.error fault, machine)) :
    console.turnActions = [.work] ∧ console.turn = (.error fault, { console with machine }) := by
  unfold turnActions turn
  rw [ran]
  exact ⟨rfl, rfl⟩

theorem turn_of_idle (ran : work console.machine = (.ok worked, machine))
    (idle : (tick { console with machine } worked).machine.service.1 = none) :
    console.turnActions = [.work, .tick worked, .service] ∧
      console.turn = (.ok worked, console.performAll [.work, .tick worked, .service]) := by
  unfold turnActions turn
  rw [ran]
  dsimp only
  rw [idle]
  refine ⟨rfl, ?_⟩
  simp only [performAll, List.foldl_cons, List.foldl_nil, perform, ran]
  split <;> rename_i outcome <;> rw [outcome] at idle
  · rw [outcome]
  · cases idle

theorem turn_of_service (ran : work console.machine = (.ok worked, machine))
    (serves : (tick { console with machine } worked).machine.service.1 = some served) :
    console.turnActions = [.work, .tick worked, .service, .tick served] ∧
      console.turn =
        (.ok (worked + served),
          console.performAll [.work, .tick worked, .service, .tick served]) := by
  unfold turnActions turn
  rw [ran]
  dsimp only
  rw [serves]
  refine ⟨rfl, ?_⟩
  simp only [performAll, List.foldl_cons, List.foldl_nil, perform, ran]
  split <;> rename_i outcome <;> rw [outcome] at serves
  · cases serves
  · cases serves
    rw [outcome]

end

/-- A turn fails in its work, or works and finds nothing to serve, or works and serves. -/
theorem turn_cases (console : Console σ) :
    (∃ fault machine, work console.machine = (.error fault, machine)) ∨
    (∃ worked machine, work console.machine = (.ok worked, machine) ∧
      (tick { console with machine } worked).machine.service.1 = none) ∨
    (∃ worked machine served, work console.machine = (.ok worked, machine) ∧
      (tick { console with machine } worked).machine.service.1 = some served) := by
  cases ran : work console.machine with
  | mk outcome machine =>
    cases outcome with
    | error fault => exact .inl ⟨fault, machine, rfl⟩
    | ok worked =>
      refine .inr ?_
      cases service : (tick { console with machine } worked).machine.service.1 with
      | none => exact .inl ⟨worked, machine, rfl, service⟩
      | some served => exact .inr ⟨worked, machine, served, rfl, service⟩

/-- The three cases in one equation, which does not say what the turn answers. -/
theorem turn_eq_performAll (console : Console σ) :
    console.turn.2 = console.performAll console.turnActions := by
  rcases console.turn_cases with ⟨fault, machine, ran⟩ | ⟨worked, machine, ran, idle⟩ |
      ⟨worked, machine, served, ran, serves⟩
  · obtain ⟨actions, turn⟩ := console.turn_of_fault ran
    rw [actions, turn]
    simp only [performAll, List.foldl_cons, List.foldl_nil, perform, ran]
  · obtain ⟨actions, turn⟩ := console.turn_of_idle ran idle
    rw [actions, turn]
  · obtain ⟨actions, turn⟩ := console.turn_of_service ran serves
    rw [actions, turn]

/-! ## Frames -/

/-- What holds when the budget is used up or a turn fails, and what each turn hands on to the turns
before it, holds of the turns of a frame. -/
theorem turns_induction {motive : Console σ → Nat → Prop} (budget : Nat)
    (spent : ∀ console total, budget ≤ total → motive console total)
    (failed : ∀ console total fault after, total < budget →
      console.turn = (.error fault, after) → motive console total)
    (turned : ∀ console total clocks after, total < budget →
      console.turn = (.ok clocks, after) → motive after (total + clocks) →
        motive console total)
    (console : Console σ) (total : Nat) : motive console total := by
  induction left : budget - total using Nat.strongRecOn generalizing console total with
  | _ left ih =>
    by_cases within : total < budget
    · cases turn : console.turn with
      | mk outcome after =>
        cases outcome with
        | error fault => exact failed console total fault after within turn
        | ok clocks =>
          have positive := clocks_pos_of_turn turn
          have later := ih (budget - (total + clocks)) (by omega) after (total + clocks) rfl
          exact turned console total clocks after within turn later
    · exact spent console total (Nat.not_lt.mp within)

theorem turnsActions_of_spent (console : Console σ) {budget total : Nat} (spent : budget ≤ total) :
    console.turnsActions budget total = [] := by
  rw [turnsActions, if_neg (Nat.not_lt.mpr spent)]

theorem turnsActions_of_turn {console after : Console σ} {budget total clocks : Nat}
    (within : total < budget) (turned : console.turn = (.ok clocks, after)) :
    console.turnsActions budget total =
      console.turnActions ++ after.turnsActions budget (total + clocks) := by
  rw [turnsActions, if_pos within]
  split
  · rename_i failed
    rw [turned] at failed
    cases failed
  · rename_i ran
    rw [turned] at ran
    cases ran
    rfl

theorem turnsActions_of_fault {console after : Console σ} {budget total : Nat}
    {fault : UnassignedOpcode} (within : total < budget)
    (turned : console.turn = (.error fault, after)) :
    console.turnsActions budget total = console.turnActions := by
  rw [turnsActions, if_pos within]
  split
  · rfl
  · rename_i ran
    rw [turned] at ran
    cases ran

/-- By the recursion of the frame, turn by turn. -/
theorem runTurns_eq_performAll (console : Console σ) (budget total : Nat) :
    (console.runTurns budget total).2 =
      console.performAll (console.turnsActions budget total) := by
  refine turns_induction (motive := fun console total =>
    (console.runTurns budget total).2 = console.performAll (console.turnsActions budget total))
    budget ?spent ?failed ?turned console total
  case spent =>
    intro console total spent
    rw [runTurns_of_spent console spent, turnsActions_of_spent console spent]
    rfl
  case failed =>
    intro console total fault after within turned
    have performed := console.turn_eq_performAll
    rw [turned] at performed
    rw [runTurns_of_fault within turned, turnsActions_of_fault within turned]
    exact performed
  case turned =>
    intro console total clocks after within turned ih
    have performed := console.turn_eq_performAll
    rw [turned] at performed
    rw [runTurns_of_turn within turned, turnsActions_of_turn within turned, performAll_append,
      ← performed, ih]

theorem runFrame_of_turns {console after : Console σ} {total : Nat}
    (ran : console.runTurns console.budget 0 = (.ok total, after)) :
    console.runFrame = (.ok total, { after with cycles := after.cycles + total }) := by
  rw [runFrame, ran]

/-- A frame that fails counts none. -/
theorem runFrame_of_fault {console after : Console σ} {fault : UnassignedOpcode}
    (ran : console.runTurns console.budget 0 = (.error fault, after)) :
    console.runFrame = (.error fault, after) := by
  rw [runFrame, ran]

/-- Whole frames are lists of actions, so that what every action keeps a frame keeps. -/
theorem runFrame_eq_performAll (console : Console σ) :
    console.runFrame.2 = console.performAll console.frameActions := by
  have performed := console.runTurns_eq_performAll console.budget 0
  cases ran : console.runTurns console.budget 0 with
  | mk outcome after =>
    rw [ran] at performed
    dsimp only at performed
    cases outcome with
    | error fault =>
      rw [frameActions, runFrame_of_fault ran]
      exact performed
    | ok total =>
      rw [frameActions, runFrame_of_turns ran]
      dsimp only
      rw [performAll_append, ← performed]
      rfl

/-! ## Sessions -/

/-- The console after one command of its host. -/
def obey (console : Console σ) : Command → Console σ
  | .frame => console.runFrame.2
  | .press key => console.setBus (console.machine.bus.press key)
  | .release key => console.setBus (console.machine.bus.release key)

/-- The console after all commands of its host. -/
def session (console : Console σ) (commands : List Command) : Console σ :=
  commands.foldl obey console

/-- The actions of one command. -/
def commandActions (console : Console σ) : Command → List Action
  | .frame => console.frameActions
  | .press key => [.press key]
  | .release key => [.release key]

/-- The actions of all commands, each computed on the console that the commands before it leave. -/
def sessionActions (console : Console σ) : List Command → List Action
  | [] => []
  | command :: rest =>
    console.commandActions command ++ (console.obey command).sessionActions rest

theorem obey_eq_performAll (console : Console σ) (command : Command) :
    console.obey command = console.performAll (console.commandActions command) := by
  cases command with
  | frame => exact console.runFrame_eq_performAll
  | press key | release key => rfl

theorem session_eq_performAll (console : Console σ) (commands : List Command) :
    console.session commands = console.performAll (console.sessionActions commands) := by
  induction commands generalizing console with
  | nil => rfl
  | cons command rest ih =>
    have later := ih (console.obey command)
    rw [sessionActions, performAll_append, ← obey_eq_performAll, ← later]
    rfl

end Console

end Handheld
