import Handheld.Proofs.Console.Actions

/-!
# The heads of turns

A frame repeats turns until its budget is used up or one of them fails. The consoles from which its
turns are taken are listed here, in order. A turn sees nothing of a frame but the console at its
head, so statements about frames become statements about one turn and this list.
-/
namespace Handheld.Console

variable {σ : Type} [VideoUnit σ]

/-- The consoles from which turns are taken until the budget is used up. -/
def turnsHeads (console : Console σ) (budget total : Nat) : List (Console σ) :=
  if total < budget then
    match _turned : console.turn with
    | (.error _, _) => [console]
    | (.ok clocks, after) => console :: turnsHeads after budget (total + clocks)
  else
    []
termination_by budget - total
decreasing_by
  have := clocks_pos_of_turn _turned
  omega

/-- The consoles from which the turns of a frame are taken. -/
def frameHeads (console : Console σ) : List (Console σ) := console.turnsHeads console.budget 0

theorem turnsHeads_of_spent (console : Console σ) {budget total : Nat} (spent : budget ≤ total) :
    console.turnsHeads budget total = [] := by
  rw [turnsHeads, if_neg (Nat.not_lt.mpr spent)]

/-- The head of a turn that succeeds stands before those of the budget that is left. -/
theorem turnsHeads_of_turn {console after : Console σ} {budget total clocks : Nat}
    (within : total < budget) (turned : console.turn = (.ok clocks, after)) :
    console.turnsHeads budget total = console :: after.turnsHeads budget (total + clocks) := by
  rw [turnsHeads, if_pos within]
  split
  · rename_i failed
    rw [turned] at failed
    cases failed
  · rename_i ran
    rw [turned] at ran
    cases ran
    rfl

theorem turnsHeads_of_fault {console after : Console σ} {budget total : Nat}
    {fault : UnassignedOpcode} (within : total < budget)
    (turned : console.turn = (.error fault, after)) :
    console.turnsHeads budget total = [console] := by
  rw [turnsHeads, if_pos within]
  split
  · rfl
  · rename_i ran
    rw [turned] at ran
    cases ran

/-- What the turns of a frame do is done from its heads, one after the other. -/
theorem turnsActions_eq_flatMap (console : Console σ) (budget total : Nat) :
    console.turnsActions budget total =
      (console.turnsHeads budget total).flatMap turnActions := by
  refine turns_induction (motive := fun console total =>
    console.turnsActions budget total =
      (console.turnsHeads budget total).flatMap turnActions)
    budget ?spent ?failed ?turned console total
  case spent =>
    intro console total spent
    rw [turnsActions_of_spent _ spent, turnsHeads_of_spent _ spent]
    rfl
  case failed =>
    intro console total fault after within turned
    rw [turnsActions_of_fault within turned, turnsHeads_of_fault within turned]
    simp
  case turned =>
    intro console total clocks after within turned ih
    rw [turnsActions_of_turn within turned, turnsHeads_of_turn within turned, ih,
      List.flatMap_cons]

/-- A frame that is complete is counted. -/
def finishActions : Except UnassignedOpcode Nat → List Action
  | .ok total => [.finish total]
  | .error _ => []

theorem frameActions_eq_flatMap (console : Console σ) :
    console.frameActions =
      console.frameHeads.flatMap turnActions ++ finishActions console.runFrame.1 := by
  rw [frameHeads, ← turnsActions_eq_flatMap, frameActions]
  cases console.runFrame.1 with
  | ok total => rfl
  | error fault => exact (List.append_nil _).symm

/-- A head is what the turns from the heads before it leave. -/
theorem turnsHeads_eq_performAll (console : Console σ) (budget total : Nat) :
    ∀ before head later, console.turnsHeads budget total = before ++ head :: later →
      head = console.performAll (before.flatMap turnActions) := by
  refine turns_induction (motive := fun console total =>
    ∀ before head later, console.turnsHeads budget total = before ++ head :: later →
      head = console.performAll (before.flatMap turnActions))
    budget ?spent ?failed ?turned console total
  case spent =>
    intro console total spent before head later split
    rw [turnsHeads_of_spent _ spent] at split
    simp at split
  case failed =>
    intro console total fault after within turned before head later split
    rw [turnsHeads_of_fault within turned] at split
    cases before with
    | nil =>
      cases split
      rfl
    | cons first rest => simp at split
  case turned =>
    intro console total clocks after within turned ih before head later split
    have performed := console.turn_eq_performAll
    rw [turned] at performed
    rw [turnsHeads_of_turn within turned] at split
    cases before with
    | nil =>
      cases split
      rfl
    | cons first rest =>
      obtain ⟨rfl, others⟩ := List.cons.inj split
      rw [ih rest head later others, List.flatMap_cons, performAll_append, ← performed]

/-- Turns fail exactly if the turn from one of their heads does, and as it does. -/
theorem runTurns_eq_error_iff (console stopped : Console σ) (budget total : Nat)
    (fault : UnassignedOpcode) :
    console.runTurns budget total = (.error fault, stopped) ↔
      ∃ head ∈ console.turnsHeads budget total, head.turn = (.error fault, stopped) := by
  refine turns_induction (motive := fun console total =>
    console.runTurns budget total = (.error fault, stopped) ↔
      ∃ head ∈ console.turnsHeads budget total, head.turn = (.error fault, stopped))
    budget ?spent ?failed ?turned console total
  case spent =>
    intro console total spent
    rw [runTurns_of_spent _ spent, turnsHeads_of_spent _ spent]
    simp
  case failed =>
    intro console total failure after within turned
    rw [runTurns_of_fault within turned, turnsHeads_of_fault within turned]
    simp [turned]
  case turned =>
    intro console total clocks after within turned ih
    rw [runTurns_of_turn within turned, turnsHeads_of_turn within turned, ih]
    simp [turned]

/-- A frame fails exactly if the turn from one of its heads does, and as it does. -/
theorem runFrame_eq_error_iff (console stopped : Console σ) (fault : UnassignedOpcode) :
    console.runFrame = (.error fault, stopped) ↔
      ∃ head ∈ console.frameHeads, head.turn = (.error fault, stopped) := by
  rw [frameHeads, ← runTurns_eq_error_iff]
  cases ran : console.runTurns console.budget 0 with
  | mk outcome after =>
    cases outcome with
    | error failure => rw [runFrame_of_fault ran]
    | ok total =>
      rw [runFrame_of_turns ran]
      simp

/-- The turns of a complete frame were taken without a fault. -/
theorem runTurns_of_runFrame {console after : Console σ} {total : Nat}
    (ran : console.runFrame = (.ok total, after)) :
    ∃ last, console.runTurns console.budget 0 = (.ok total, last) ∧
      after = { last with cycles := last.cycles + total } := by
  cases turns : console.runTurns console.budget 0 with
  | mk outcome last =>
    cases outcome with
    | error fault =>
      rw [runFrame_of_fault turns] at ran
      cases ran
    | ok clocks =>
      rw [runFrame_of_turns turns] at ran
      cases ran
      exact ⟨last, rfl, rfl⟩

/-- What each turn that succeeds hands on holds at all heads, and in the end if no turn fails. -/
theorem turnsHeads_invariant {motive : Console σ → Prop}
    (keeps : ∀ console clocks after, motive console → console.turn = (.ok clocks, after) →
      motive after)
    (budget total : Nat) (console : Console σ) (start : motive console) :
    (∀ head ∈ console.turnsHeads budget total, motive head) ∧
      ∀ final after, console.runTurns budget total = (.ok final, after) → motive after := by
  refine turns_induction (motive := fun console total => motive console →
    (∀ head ∈ console.turnsHeads budget total, motive head) ∧
      ∀ final after, console.runTurns budget total = (.ok final, after) → motive after)
    budget ?spent ?failed ?turned console total start
  case spent =>
    intro console total spent start
    rw [turnsHeads_of_spent _ spent, runTurns_of_spent _ spent]
    refine ⟨by simp, ?_⟩
    rintro final after ⟨⟩
    exact start
  case failed =>
    intro console total fault after within turned start
    rw [turnsHeads_of_fault within turned, runTurns_of_fault within turned]
    refine ⟨by simpa using start, ?_⟩
    rintro final after ⟨⟩
  case turned =>
    intro console total clocks after within turned ih start
    obtain ⟨heads, final⟩ := ih (keeps console clocks after start turned)
    rw [turnsHeads_of_turn within turned, runTurns_of_turn within turned]
    exact ⟨List.forall_mem_cons.mpr ⟨start, heads⟩, final⟩

/-- What each turn that succeeds leaves holds at all heads but the first, and in the end if there
was a turn and none fails. -/
theorem turnsHeads_tail {motive : Console σ → Prop}
    (leaves : ∀ (console : Console σ) clocks after, console.turn = (.ok clocks, after) →
      motive after)
    (budget total : Nat) (console : Console σ) :
    (∀ head ∈ (console.turnsHeads budget total).tail, motive head) ∧
      ∀ final after, total < budget →
        console.runTurns budget total = (.ok final, after) → motive after := by
  by_cases within : total < budget
  · cases turn : console.turn with
    | mk outcome after =>
      cases outcome with
      | error fault =>
        rw [turnsHeads_of_fault within turn, runTurns_of_fault within turn]
        refine ⟨by simp, ?_⟩
        rintro final other _ ⟨⟩
      | ok clocks =>
        rw [turnsHeads_of_turn within turn, runTurns_of_turn within turn]
        obtain ⟨heads, final⟩ := turnsHeads_invariant
          (fun head clocks next _ => leaves head clocks next) budget (total + clocks) after
          (leaves console clocks after turn)
        exact ⟨heads, fun total last _ => final total last⟩
  · rw [turnsHeads_of_spent console (Nat.not_lt.mp within)]
    exact ⟨by simp, fun _ _ more => absurd more within⟩

end Handheld.Console
