import Handheld.Proofs.Cartridge.Program
import Handheld.Proofs.Console.Heads
import Handheld.Proofs.Machine.Halt

/-!
# Halts in a running console

Between frames a host may do to a console what it likes, as long as it leaves the processor to the
frames. The latches of the processor are then coherent at all times, because every action of a
console keeps them so. Each turn closes with a service, so from its second turn on a frame runs no
instruction while a request waits that the processor would serve, and no halt outlasts a request.
`frame_coherent` collects this.
-/
namespace Handheld.Console

variable {σ : Type} [VideoUnit σ]

/-! ## Actions and turns -/

theorem coherent_perform {console : Console σ} (coherent : console.machine.latches.Coherent)
    (action : Action) : (console.perform action).machine.latches.Coherent := by
  cases action with
  | work =>
    simp only [perform, work]
    split
    · exact coherent
    · rename_i running
      exact Machine.coherent_step (Bool.not_eq_true _ ▸ running)
  | service => exact Machine.coherent_service coherent
  | tick clocks | finish clocks | press key | release key => exact coherent

theorem coherent_performAll {console : Console σ} (coherent : console.machine.latches.Coherent)
    (actions : List Action) : (console.performAll actions).machine.latches.Coherent := by
  induction actions generalizing console with
  | nil => exact coherent
  | cons action rest ih => exact ih (coherent_perform coherent action)

/-- The clocks of a service may raise new requests, but only behind a closed service. -/
theorem attended_of_turn {console after : Console σ} {clocks : Nat}
    (turned : console.turn = (.ok clocks, after)) : after.machine.Attended := by
  obtain ⟨fault, machine, ran⟩ | ⟨worked, machine, ran, idle⟩ |
      ⟨worked, machine, served, ran, serves⟩ := console.turn_cases
  · rw [(console.turn_of_fault ran).2] at turned
    cases turned
  · rw [(console.turn_of_idle ran idle).2] at turned
    cases turned
    have serviced := Machine.attended_service idle
    simpa only [performAll, List.foldl_cons, List.foldl_nil, perform, ran] using serviced
  · rw [(console.turn_of_service ran serves).2] at turned
    cases turned
    obtain ⟨closed, running⟩ := Machine.closed_of_service serves
    simp only [performAll, List.foldl_cons, List.foldl_nil, perform, ran]
    exact Machine.attended_of_latches closed running

/-! ## Frames -/

/-- The consoles that a host can have between frames. Only a frame moves the processor. -/
inductive Hosted : Console σ → Prop
  | powerOn (cartridge : Cartridge) (color : Bool) (video : σ) :
    Hosted (.powerOn cartridge color video)
  | change {console changed : Console σ} (hosted : Hosted console)
    (kept : changed.machine.cpu = console.machine.cpu) : Hosted changed
  | frame {console : Console σ} (hosted : Hosted console) : Hosted console.runFrame.2

theorem Hosted.coherent {console : Console σ} (hosted : Hosted console) :
    console.machine.latches.Coherent := by
  induction hosted with
  | powerOn cartridge color video => exact Latches.coherent_powerOn _
  | change _ kept ih =>
    rw [Machine.latches, kept]
    exact ih
  | frame _ ih =>
    rw [runFrame_eq_performAll]
    exact coherent_performAll ih _

omit [VideoUnit σ] in
theorem budget_pos (console : Console σ) : 0 < console.budget := by
  unfold budget
  split <;> decide

/-- A frame takes its turns from its heads, one after the other. Each head has coherent latches.
From the second one on no request stands before a processor that would serve it, or that halts; and
so it is when the frame is complete. Within a turn a routine is entered only between two
instructions, with the address of the next one pushed. -/
theorem frame_coherent {console : Console σ} (hosted : Hosted console) :
    console.runFrame.2 =
        console.performAll
          (console.frameHeads.flatMap turnActions ++ finishActions console.runFrame.1) ∧
      (∀ before head later, console.frameHeads = before ++ head :: later →
        head = console.performAll (before.flatMap turnActions) ∧
          head.machine.latches.Coherent ∧
          (before ≠ [] → head.machine.Attended) ∧
          ∀ earlier rest served, head.turnActions = earlier ++ .service :: rest →
            let ready := (head.performAll earlier).machine
            ready.service.1 = some served →
              ready.cpu.repeatFetch = false ∧
                ready.nextByte = (ready.read ready.pc, ready.setPC (ready.pc + 1)) ∧
                ∃ source, ready.bus.interrupts.next? = some source ∧
                  ready.service.2.bus =
                    { ready.bus with
                      interrupts := ready.bus.interrupts.acknowledge source }.stores
                        (ready.pushStores ready.pc)) ∧
      ∀ total after, console.runFrame = (.ok total, after) →
        after.machine.latches.Coherent ∧ after.machine.Attended := by
  obtain ⟨attended, attendedEnd⟩ :=
    turnsHeads_tail (motive := fun console => console.machine.Attended)
      (fun _ _ _ turned => attended_of_turn turned) console.budget 0 console
  refine ⟨?actions, ?heads, ?complete⟩
  case actions =>
    rw [← frameActions_eq_flatMap]
    exact console.runFrame_eq_performAll
  case heads =>
    intro before head later split
    have reached := console.turnsHeads_eq_performAll console.budget 0 before head later split
    have coherent : head.machine.latches.Coherent := by
      rw [reached]
      exact coherent_performAll hosted.coherent _
    refine ⟨reached, coherent, ?attended, ?served⟩
    case attended =>
      intro started
      refine attended head ?_
      rw [show console.turnsHeads console.budget 0 = before ++ head :: later from split,
        List.tail_append_of_ne_nil started]
      simp
    case served =>
      intro earlier rest served _ ready serves
      exact Machine.service_between_instructions (coherent_performAll coherent earlier) serves
  case complete =>
    intro total after ran
    have coherent := Hosted.coherent (.frame hosted)
    rw [ran] at coherent
    obtain ⟨last, turns, rfl⟩ := runTurns_of_runFrame ran
    have attended : last.machine.Attended := attendedEnd total last console.budget_pos turns
    exact ⟨coherent, attended⟩

/-- EI and HALT; the routine of the first source halts again, before a byte that names no
instruction. -/
def haltingCartridge : Cartridge :=
  .ofProgram (Array.replicate 0x40 0 ++ #[0x76, 0xd3]) #[0xfb, 0x76]

/-- A host clears the bus and has two requests waiting, so that one is left for the routine. -/
def haltingTwice : Console ClockMeter :=
  (powerOn haltingCartridge false { requests := 0 }).setBus
    { cartridge := haltingCartridge
      color := false
      interrupts := { enable := 0x03, flags := 0x03 } }

/-- A service ends the first halt. The second HALT asks for a repeated fetch instead, with a request
waiting that nobody serves. -/
theorem frame_coherent_haltingTwice :
    let heads := haltingTwice.frameHeads
    Hosted haltingTwice ∧ ∃ enough : 3 < heads.length,
      let ready := (heads[1].performAll [.work, .tick 4]).machine
      heads[1].turnActions = [.work, .tick 4] ++ .service :: [.tick 20] ∧
        ready.cpu.halted = true ∧ ready.service.1 = some 20 ∧
        ready.nextByte = (ready.read ready.pc, ready.setPC (ready.pc + 1)) ∧
        heads[3].machine.cpu.repeatFetch = true ∧
        heads[3].machine.latches.Coherent ∧ heads[3].machine.Attended := by
  intro heads
  have fresh : Hosted (powerOn haltingCartridge false (ClockMeter.mk 0 0 0)) := .powerOn _ _ _
  have hosted : Hosted haltingTwice := .change fresh rfl
  obtain ⟨enough, actions, halted, serves, armed⟩ : ∃ enough : 3 < heads.length,
      let ready := (heads[1].performAll [.work, .tick 4]).machine
      heads[1].turnActions = [.work, .tick 4] ++ .service :: [.tick 20] ∧
        ready.cpu.halted = true ∧ ready.service.1 = some 20 ∧
        heads[3].machine.cpu.repeatFetch = true := by
    decide +kernel
  have split (place : Nat) (inside : place < heads.length) :
      heads = heads.take place ++ heads[place] :: heads.drop (place + 1) := by
    rw [List.getElem_cons_drop, List.take_append_drop]
  have started : heads.take 3 ≠ [] :=
    List.ne_nil_of_length_pos (by rw [List.length_take]; omega)
  obtain ⟨_, places, _⟩ := frame_coherent hosted
  obtain ⟨_, _, _, served⟩ := places _ _ _ (split 1 (by omega))
  obtain ⟨_, coherent, attended, _⟩ := places _ _ _ (split 3 enough)
  obtain ⟨_, passes, _⟩ := served _ _ 20 actions serves
  exact ⟨hosted, enough, actions, halted, serves, passes, armed, coherent, attended started⟩

end Handheld.Console
