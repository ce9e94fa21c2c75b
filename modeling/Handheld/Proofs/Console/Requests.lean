import Handheld.Proofs.Bus.Requests
import Handheld.Proofs.Cartridge.Program
import Handheld.Proofs.Console.Actions

/-!
# Requests are neither lost nor made up

A source asks for its interrupt when the timer overflows, a serial transfer is started, a key goes
down or the video unit answers with its bit. From then on its bit stays set until its own routine is
entered, even if other routines are entered first and whatever they store on the way. The law is
proved for one action, as an equation for each bit, and then for whole sessions of frames and keys.
It supposes that programs do not store to the request register themselves and that the video unit
answers with a mask and changes nothing else.
-/
namespace Handheld

/-- The unit answers with requests and leaves the bus as it is. -/
def VideoUnit.OnlyMasks (σ : Type) [VideoUnit σ] : Prop :=
  ∀ (unit : σ) (clocks : Nat) (bus : Bus), (VideoUnit.step unit clocks bus).bus = bus

namespace Console

variable {σ : Type}

/-- Whether the source's bit stands in the request register of the machine. -/
def requested (console : Console σ) (source : Interrupt) : Bool :=
  console.machine.bus.requested source

/-- What an action stores over the bus. A halted processor stores nothing. -/
def stores (console : Console σ) : Action → List (UInt16 × UInt8)
  | .work => if console.machine.cpu.halted then [] else console.machine.stepStores
  | .service => console.machine.serviceStores
  | _ => []

/-- The source whose routine an action enters, told by the address it goes on at. -/
def entered? (console : Console σ) : Action → Option Interrupt
  | .service =>
    match console.machine.service with
    | (some _, after) => Interrupt.all.find? fun source => source.vector = after.pc
    | (none, _) => none
  | _ => none

/-- Whether an action enters the routine of this source. -/
def enters (source : Interrupt) (console : Console σ) (action : Action) : Bool :=
  console.entered? action == some source

/-- A service that enters a routine does so for the next source, with service enabled. -/
theorem service_cases (console : Console σ) :
    (console.machine.service.1 = none ∧ console.entered? .service = none ∧
      console.machine.service.2.bus = console.machine.bus ∧ console.stores .service = []) ∨
    (∃ source, console.entered? .service = some source ∧
      console.machine.bus.interrupts.next? = some source ∧
      console.machine.cpu.masterEnable = true ∧
      console.machine.service.2.pc = source.vector ∧
      console.machine.service.2.bus =
        { console.machine.bus with
          interrupts := console.machine.bus.interrupts.acknowledge source }.stores
            (console.stores .service)) := by
  rcases console.machine.service_cases with ⟨idle, bus, stored⟩ |
      ⟨source, next, enabled, served, pc, bus⟩
  · refine .inl ⟨idle, ?_, bus, stored⟩
    cases service : console.machine.service with
    | mk outcome after =>
      rw [service] at idle
      dsimp only at idle
      rw [entered?, service, idle]
  · refine .inr ⟨source, ?_, next, enabled, pc, bus⟩
    cases service : console.machine.service with
    | mk outcome after =>
      rw [service] at served pc
      dsimp only at served pc
      rw [entered?, service, served]
      dsimp only
      rw [pc]
      cases source <;> decide

/-- A routine is entered only for a source that is requested. -/
theorem requested_of_enters {console : Console σ} {source : Interrupt} {action : Action}
    (entered : console.enters source action = true) : console.requested source = true := by
  unfold enters at entered
  cases action with
  | service =>
    rcases console.service_cases with ⟨_, none, _⟩ | ⟨other, some, next, _⟩
    · rw [none] at entered
      cases entered
    · rw [some, beq_iff_eq, Option.some.injEq] at entered
      subst entered
      exact (Interrupts.of_next? next).1.1
  | _ => cases entered

variable [VideoUnit σ]

/-- What the video unit answers to a tick. -/
def answer (console : Console σ) (clocks : Nat) : UInt8 :=
  let bus := console.machine.bus.tick clocks
  let videoClocks := if bus.doubleSpeed then clocks / 2 else clocks
  (VideoUnit.step console.video videoClocks bus).requests

/-- Whether an action makes a source ask for its interrupt. -/
def asks (source : Interrupt) (console : Console σ) (action : Action) : Bool :=
  match action with
  | .work | .service => source == .serial && (console.stores action).any Bus.startsTransfer
  | .tick clocks =>
    source == .timer && (console.machine.bus.timer.tick clocks).1 ||
      source.isIn (console.answer clocks)
  | .press key => source == .joypad && !console.machine.bus.joypad.held key
  | .finish _ | .release _ => false

/-- How many of the actions of a run are of a kind. -/
def tally (kind : Console σ → Action → Bool) (console : Console σ) : List Action → Nat
  | [] => 0
  | action :: rest => (kind console action).toNat + (console.perform action).tally kind rest

/-! ## One action -/

variable {console : Console σ}

/-- The step for work: what an instruction stores may start a serial transfer, and a halted
processor stores nothing. -/
theorem requested_work (register : ∀ byte ∈ console.stores .work, byte.1 ≠ 0xff0f)
    (source : Interrupt) :
    (console.perform .work).requested source =
      (console.requested source || console.asks source .work) := by
  unfold requested asks stores perform work at *
  dsimp only at *
  by_cases halted : console.machine.cpu.halted = true
  · simp [halted]
  · simp only [halted, Bool.false_eq_true, if_false] at register ⊢
    rcases console.machine.bus_step with ⟨nothing, switched⟩ | stored
    · rw [switched, nothing, Bus.requested_switchSpeed]
      simp
    · rw [stored, Bus.requested_stores _ _ register]

/-- The step for a tick: the timer may overflow, and the unit answers with its mask. -/
theorem requested_tick (masks : VideoUnit.OnlyMasks σ) (clocks : Nat) (source : Interrupt) :
    (console.perform (.tick clocks)).requested source =
      (console.requested source || console.asks source (.tick clocks)) := by
  have ticked := console.machine.bus.requested_tick clocks source
  have bus : (console.perform (.tick clocks)).machine.bus =
      (console.machine.bus.tick clocks).requestMask (console.answer clocks) := by
    simp only [perform, tick, answer]
    rw [masks]
  have masked := (console.machine.bus.tick clocks).interrupts.requested_requestMask
    (console.answer clocks) source
  unfold requested
  rw [bus]
  calc ((console.machine.bus.tick clocks).requestMask (console.answer clocks)).requested source
      = ((console.machine.bus.tick clocks).requested source ||
          source.isIn (console.answer clocks)) := masked
    _ = (console.machine.bus.requested source || console.asks source (.tick clocks)) := by
      rw [ticked, Bool.or_assoc]
      rfl

/-- The step for a service: the request that it serves is dropped, and the stores of the return
address may start a serial transfer like any. -/
theorem requested_service (register : ∀ byte ∈ console.stores .service, byte.1 ≠ 0xff0f)
    (source : Interrupt) :
    (console.perform .service).requested source =
      ((console.requested source && !console.enters source .service) ||
        console.asks source .service) := by
  unfold requested enters asks
  rcases console.service_cases with ⟨_, entered, bus, stored⟩ | ⟨other, entered, next, _, _, bus⟩
  · rw [entered, stored, perform, bus]
    simp
  · have dropped := console.machine.bus.interrupts.requested_acknowledge other source
    have apart : (some other == some source) = (source == other) := by
      cases source <;> cases other <;> rfl
    rw [entered, perform, bus, Bus.requested_stores _ _ register, apart]
    exact congrArg (· || _) dropped

/-- Each bit after an action: it was set before and its routine was not entered, or the action made
its source ask. -/
theorem requested_perform (masks : VideoUnit.OnlyMasks σ) (action : Action)
    (register : ∀ byte ∈ console.stores action, byte.1 ≠ 0xff0f) (source : Interrupt) :
    (console.perform action).requested source =
      ((console.requested source && !console.enters source action) ||
        console.asks source action) := by
  cases action with
  | work =>
    rw [requested_work register]
    simp [enters, entered?]
  | tick clocks =>
    rw [requested_tick masks]
    simp [enters, entered?]
  | service => exact requested_service register source
  | finish clocks => simp [perform, requested, enters, entered?, asks]
  | press key =>
    have pressed := console.machine.bus.requested_press key source
    have none : console.enters source (.press key) = false := rfl
    rw [none, Bool.not_false, Bool.and_true]
    exact pressed
  | release key =>
    simp [perform, setBus, Bus.release, requested, Bus.requested, enters, entered?, asks]

/-! ## Runs of actions -/

/-- No action of a run stores to the request register. A program that does may drop requests or make
them up, and the law is not about it. -/
def LeavesRegister (console : Console σ) (actions : List Action) : Prop :=
  ∀ before action later, actions = before ++ action :: later →
    ∀ byte ∈ (console.performAll before).stores action, byte.1 ≠ 0xff0f

theorem LeavesRegister.first {action : Action} {rest : List Action}
    (leaves : console.LeavesRegister (action :: rest)) :
    ∀ byte ∈ console.stores action, byte.1 ≠ 0xff0f := leaves [] action rest rfl

theorem LeavesRegister.rest {action : Action} {rest : List Action}
    (leaves : console.LeavesRegister (action :: rest)) :
    (console.perform action).LeavesRegister rest := by
  intro before next later split
  exact leaves (action :: before) next later (by rw [split]; rfl)

theorem leavesRegister_nil (console : Console σ) : console.LeavesRegister [] := by
  intro before action later split
  simp at split

theorem LeavesRegister.cons {action : Action} {rest : List Action}
    (first : ∀ byte ∈ console.stores action, byte.1 ≠ 0xff0f)
    (leaves : (console.perform action).LeavesRegister rest) :
    console.LeavesRegister (action :: rest) := by
  intro before next later split
  cases before with
  | nil =>
    obtain ⟨rfl, _⟩ := List.cons.inj split
    exact first
  | cons head before =>
    obtain ⟨rfl, tail⟩ := List.cons.inj split
    exact leaves before next later tail

/-- Action by action, so that the property can be decided along a run. -/
theorem leavesRegister_cons_iff {action : Action} {rest : List Action} :
    console.LeavesRegister (action :: rest) ↔
      (∀ byte ∈ console.stores action, byte.1 ≠ 0xff0f) ∧
        (console.perform action).LeavesRegister rest :=
  ⟨fun leaves => ⟨leaves.first, leaves.rest⟩, fun ⟨first, rest⟩ => .cons first rest⟩

/-- It is found by looking at what each action stores. -/
instance decidableLeavesRegister : (console : Console σ) → (actions : List Action) →
    Decidable (console.LeavesRegister actions)
  | console, [] => isTrue (leavesRegister_nil console)
  | console, action :: rest =>
    have _ : Decidable (∀ byte ∈ console.stores action, byte.1 ≠ 0xff0f) :=
      List.decidableBAll _ _
    have _ := decidableLeavesRegister (console.perform action) rest
    decidable_of_iff _ leavesRegister_cons_iff.symm

theorem LeavesRegister.tail {before later : List Action}
    (leaves : console.LeavesRegister (before ++ later)) :
    (console.performAll before).LeavesRegister later := by
  induction before generalizing console with
  | nil => exact leaves
  | cons action rest ih => exact ih leaves.rest

theorem LeavesRegister.head {before later : List Action}
    (leaves : console.LeavesRegister (before ++ later)) : console.LeavesRegister before := by
  intro front action back split
  exact leaves front action (back ++ later) (by rw [split]; simp)

/-- A request waits until its own routine is entered. -/
theorem requested_until_entered (masks : VideoUnit.OnlyMasks σ) {actions : List Action}
    (leaves : console.LeavesRegister actions) {source : Interrupt}
    (waits : console.requested source = true)
    (unserved : console.tally (enters source) actions = 0) :
    (console.performAll actions).requested source = true := by
  induction actions generalizing console with
  | nil => exact waits
  | cons action rest ih =>
    rw [tally, Nat.add_eq_zero_iff] at unserved
    have kept : console.enters source action = false := by
      cases entered : console.enters source action with
      | false => rfl
      | true =>
        rw [entered] at unserved
        cases unserved.1
    have next := requested_perform masks action leaves.first source
    rw [waits, kept] at next
    exact ih leaves.rest (by simpa using next) unserved.2

/-- What was served and what still waits was asked for, or waited at the start. -/
theorem tally_enters_le (masks : VideoUnit.OnlyMasks σ) {actions : List Action}
    (leaves : console.LeavesRegister actions) (source : Interrupt) :
    console.tally (enters source) actions + ((console.performAll actions).requested source).toNat ≤
      console.tally (asks source) actions + (console.requested source).toNat := by
  induction actions generalizing console with
  | nil => exact Nat.le_refl _
  | cons action rest ih =>
    have later := ih leaves.rest
    have next := requested_perform masks action leaves.first source
    have first : (console.enters source action).toNat +
        ((console.perform action).requested source).toNat ≤
          (console.asks source action).toNat + (console.requested source).toNat := by
      rw [next]
      cases entered : console.enters source action with
      | true =>
        rw [requested_of_enters entered]
        cases console.asks source action <;> decide
      | false =>
        cases console.asks source action <;> cases console.requested source <;> decide
    have split : console.performAll (action :: rest) =
        (console.perform action).performAll rest := rfl
    rw [split, tally, tally]
    omega

/-! ## Sessions -/

/-- In a session of frames and keys, beside a unit that only answers with masks and with no
store to the request register. The actions make up the session. At every point of it no source
was served more often than it asked, what waits counted in; the next action sets a source's bit
if it makes the source ask and drops it if it enters its routine, and leaves it otherwise; so a
request waits through any actions that do not enter its routine. And a service that enters a
routine goes to the first source that is requested and enabled, with the master enable on, at
the address of its vector. -/
theorem requests_conserved (masks : VideoUnit.OnlyMasks σ) (console : Console σ)
    (commands : List Command)
    (leaves : console.LeavesRegister (console.sessionActions commands)) :
    console.session commands = console.performAll (console.sessionActions commands) ∧
      ∀ before later, console.sessionActions commands = before ++ later →
        let here := console.performAll before
        (∀ source,
          console.tally (enters source) before + (here.requested source).toNat ≤
            console.tally (asks source) before + (console.requested source).toNat) ∧
        (∀ source action rest, later = action :: rest →
          (here.perform action).requested source =
            ((here.requested source && !here.enters source action) ||
              here.asks source action)) ∧
        (∀ source middle rest, later = middle ++ rest → here.requested source = true →
          here.tally (enters source) middle = 0 →
            (here.performAll middle).requested source = true) ∧
        (∀ rest, later = .service :: rest → here.machine.service.1 ≠ none →
          ∃ source, here.entered? .service = some source ∧
            here.machine.cpu.masterEnable = true ∧
            here.requested source = true ∧
            here.machine.bus.interrupts.enabled source = true ∧
            (∀ other : Interrupt, other.number < source.number →
              (here.requested other && here.machine.bus.interrupts.enabled other) = false) ∧
            here.machine.service.2.pc = 0x40 + 8 * UInt16.ofNat source.number) := by
  refine ⟨console.session_eq_performAll commands, ?_⟩
  intro before later split here
  rw [split] at leaves
  have ahead : here.LeavesRegister later := leaves.tail
  refine ⟨?counted, ?exact, ?waits, ?served⟩
  case counted =>
    intro source
    exact tally_enters_le masks leaves.head source
  case exact =>
    intro source action rest next
    rw [next] at ahead
    exact requested_perform masks action ahead.first source
  case waits =>
    intro source middle rest next waits unserved
    rw [next] at ahead
    exact requested_until_entered masks ahead.head waits unserved
  case served =>
    intro rest _ serves
    rcases here.service_cases with ⟨idle, _⟩ | ⟨source, entered, next, enabled, pc, _⟩
    · exact absurd idle serves
    · obtain ⟨⟨requested, allowed⟩, first⟩ := Interrupts.of_next? next
      exact ⟨source, entered, enabled, requested, allowed, first, pc⟩

/-- LD A,10; LDH (FF),A; EI; NOP enables the keys, and the routine of the keys begins with a byte
that names no instruction. The unit asks for the picture's interrupt at every tick. -/
def dispatching : Console ClockMeter :=
  .powerOn (.ofProgram (Array.replicate 0x60 0 ++ #[0xd3]) #[0x3e, 0x10, 0xe0, 0xff, 0xfb, 0x00])
    false { requests := 0x01 }

/-- A key is pressed before the frame. Its request waits for four instructions, outlives the
requests of the picture, which nobody enables, and is dropped by its own service. The frame then
fails in the routine. -/
theorem requests_conserved_dispatching :
    let commands : List Command := [.press .a, .frame, .press .b]
    let before : List Action :=
      [.press .a, .work, .tick 8, .service, .work, .tick 12, .service, .work, .tick 4, .service,
        .work, .tick 4]
    let later : List Action := [.service, .tick 20, .work, .press .b]
    let here := dispatching.performAll before
    VideoUnit.OnlyMasks ClockMeter ∧
      dispatching.LeavesRegister (dispatching.sessionActions commands) ∧
      dispatching.sessionActions commands = before ++ later ∧
      here.requested .joypad = true ∧ here.machine.service.1 ≠ none ∧
      (∃ source, here.entered? .service = some source ∧ here.requested source = true ∧
        here.machine.bus.interrupts.enabled source = true ∧
        here.machine.service.2.pc = 0x40 + 8 * UInt16.ofNat source.number) ∧
      (here.perform .service).requested .joypad = false ∧
      ∀ source, dispatching.tally (enters source) (before ++ later) ≤
        dispatching.tally (asks source) (before ++ later) +
          (dispatching.requested source).toNat := by
  intro commands before later here
  have masks : VideoUnit.OnlyMasks ClockMeter := fun _ _ _ => rfl
  have actions : dispatching.sessionActions commands = before ++ later := by decide +kernel
  have leaves : dispatching.LeavesRegister (dispatching.sessionActions commands) := by
    rw [actions]
    decide +kernel
  have pressed : (dispatching.performAll [.press .a]).requested .joypad = true ∧
      (dispatching.performAll [.press .a]).tally (enters .joypad) (before.drop 1) = 0 := by
    decide +kernel
  have serves : here.machine.service.1 ≠ none ∧ here.enters .joypad .service = true ∧
      here.asks .joypad .service = false := by
    decide +kernel
  have same : (dispatching.performAll [.press .a]).performAll (before.drop 1) = here :=
    (dispatching.performAll_append [.press .a] (before.drop 1)).symm
  obtain ⟨_, conserved⟩ := requests_conserved masks dispatching commands leaves
  obtain ⟨_, _, waits, _⟩ := conserved [.press .a] (before.drop 1 ++ later) actions
  obtain ⟨_, equation, _, served⟩ := conserved before later actions
  obtain ⟨counted, _⟩ := conserved (before ++ later) [] (by rw [actions, List.append_nil])
  have waited := waits .joypad (before.drop 1) later rfl pressed.1 pressed.2
  have dropped := equation .joypad .service _ rfl
  rw [same] at waited
  rw [serves.2.1, serves.2.2, Bool.not_true, Bool.and_false, Bool.or_false] at dropped
  obtain ⟨source, entered, _, requested, enabled, _, pc⟩ := served _ rfl serves.1
  refine ⟨masks, leaves, actions, waited, serves.1, ⟨source, entered, requested, enabled, pc⟩,
    dropped, fun source => ?_⟩
  have bound := counted source
  omega

end Console

end Handheld
