import Handheld.Proofs.Bus.Cartridge
import Handheld.Proofs.Console.Actions

/-!
# Frames in a row

A run of frames ends when all are finished or one cannot be. `Plays` says so frame by frame, and
`plays_iff` that this is what the run computes. What everything keeps that can happen to a bus, such
as the make of the cartridge, whole runs keep.
-/
namespace Handheld.Console

variable {σ : Type} [VideoUnit σ]

/-- So many frames are finished one after the other. None of them has failed. -/
inductive Finishes : Console σ → Nat → Console σ → Prop
  | none (console : Console σ) : Finishes console 0 console
  | frame {console next after : Console σ} {total count : Nat}
    (finished : console.runFrame = (.ok total, next)) (rest : Finishes next count after) :
    Finishes console (count + 1) after

/-- Either all `count` frames are finished, or those before a frame that fails. The frame that fails
is named, and what it did up to its fault is kept. -/
inductive Plays (console : Console σ) (count : Nat) : Option Breakdown → Console σ → Prop
  | whole {after : Console σ} (finished : Finishes console count after) :
    Plays console count none after
  | broken {done : Nat} {last stopped : Console σ} {fault : UnassignedOpcode} (early : done < count)
    (finished : Finishes console done last) (failed : last.runFrame = (.error fault, stopped)) :
    Plays console count (some ⟨done, fault⟩) stopped

theorem runFrames_of_finishes {console last : Console σ} {done : Nat}
    (finished : Finishes console done last) (first rest : Nat) :
    console.runFrames first (done + rest) = last.runFrames (first + done) rest := by
  induction finished generalizing first with
  | none console => rw [Nat.zero_add, Nat.add_zero]
  | @frame console next after total count frame _ ih =>
    have more : count + 1 + rest = (count + rest) + 1 := by omega
    have place : first + (count + 1) = first + 1 + count := by omega
    rw [more, runFrames, frame, place]
    exact ih (first + 1)

theorem exists_plays (console : Console σ) (count : Nat) :
    ∃ stop after, Plays console count stop after := by
  induction count generalizing console with
  | zero => exact ⟨none, console, .whole (.none console)⟩
  | succ count ih =>
    cases frame : console.runFrame with
    | mk outcome next =>
      cases outcome with
      | error fault =>
        exact ⟨some ⟨0, fault⟩, next, .broken (Nat.succ_pos count) (.none console) frame⟩
      | ok total =>
        obtain ⟨stop, after, plays⟩ := ih next
        cases plays with
        | whole finished => exact ⟨none, after, .whole (.frame frame finished)⟩
        | broken early finished failed =>
          exact ⟨_, after, .broken (Nat.succ_lt_succ early) (.frame frame finished) failed⟩

/-- The run computes that outcome. With the lemma before it this makes the equivalence below. -/
theorem runFrames_of_plays {console after : Console σ} {count : Nat} {stop : Option Breakdown}
    (plays : Plays console count stop after) : console.runFrames 0 count = (stop, after) := by
  cases plays with
  | whole finished =>
    have ran := runFrames_of_finishes finished 0 0
    rwa [Nat.add_zero, runFrames] at ran
  | @broken done last _ fault early finished failed =>
    have left : count = done + ((count - done - 1) + 1) := by omega
    rw [left, runFrames_of_finishes finished, runFrames, failed, Nat.zero_add]

/-- Frames are run until all are finished or one fails. -/
theorem plays_iff {console after : Console σ} {count : Nat} {stop : Option Breakdown} :
    Plays console count stop after ↔ console.runFrames 0 count = (stop, after) := by
  constructor
  · exact runFrames_of_plays
  · intro ran
    obtain ⟨otherStop, other, plays⟩ := console.exists_plays count
    have same := (runFrames_of_plays plays).symm.trans ran
    cases same
    exact plays

/-! ## What runs keep -/

variable {invariant : Bus → Prop} (kept : Bus.Kept invariant)
include kept

theorem kept_perform (console : Console Lcd) (action : Action)
    (holds : invariant console.machine.bus) : invariant (console.perform action).machine.bus := by
  cases action with
  | work =>
    simp only [perform, work]
    split
    · exact holds
    · exact kept.step console.machine holds
  | tick clocks =>
    refine kept.requestMask _ _ ?_
    exact kept.lcdStep console.video _ _ (kept.tick _ clocks holds)
  | service => exact kept.service console.machine holds
  | finish clocks => exact holds
  | press key => exact kept.press _ key holds
  | release key => exact kept.release _ key holds

theorem kept_performAll (console : Console Lcd) (actions : List Action)
    (holds : invariant console.machine.bus) :
    invariant (console.performAll actions).machine.bus := by
  induction actions generalizing console with
  | nil => exact holds
  | cons action rest ih => exact ih _ (kept_perform kept console action holds)

theorem kept_runFrame (console : Console Lcd) (holds : invariant console.machine.bus) :
    invariant console.runFrame.2.machine.bus := by
  rw [runFrame_eq_performAll]
  exact kept_performAll kept console _ holds

theorem kept_finishes {console after : Console Lcd} {count : Nat}
    (finished : Finishes console count after) (holds : invariant console.machine.bus) :
    invariant after.machine.bus := by
  induction finished with
  | none console => exact holds
  | @frame console next after total count frame _ ih =>
    have same : next = console.runFrame.2 := by rw [frame]
    exact ih (same ▸ kept_runFrame kept console holds)

theorem kept_plays {console after : Console Lcd} {count : Nat} {stop : Option Breakdown}
    (plays : Plays console count stop after) (holds : invariant console.machine.bus) :
    invariant after.machine.bus := by
  cases plays with
  | whole finished => exact kept_finishes kept finished holds
  | @broken done last _ fault _ finished failed =>
    have same : after = last.runFrame.2 := by rw [failed]
    exact same ▸ kept_runFrame kept last (kept_finishes kept finished holds)

end Handheld.Console
