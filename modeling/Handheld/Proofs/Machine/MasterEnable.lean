import Handheld.Proofs.Cartridge.Program
import Handheld.Proofs.Machine.Latches
import Handheld.Proofs.Machine.Stores

/-!
# Who may enable the serving of requests

Requests are served only after a program has asked for it: an enabling instruction must have run
since requests were last refused, and one more instruction after it. Requests are refused from the
start, by DI, and on entry into a service routine.

The entry drops the master enable but not an enable that is still pending. A routine entered
between EI and the instruction after it therefore enables requests by its own first instruction.
`requests_enabled_iff` states the rule for whole runs and that these entries are exactly where it
fails.
-/
namespace Handheld

namespace Machine

/-- What can happen to a machine between two looks at it. Its bus may also change from outside, by
requests that arrive or in any other way. -/
inductive Move where
  | step
  | service
  | outside (bus : Bus)

/-- What a move means for the serving of requests: an instruction that completes, a routine that is
entered, or nothing that matters here. -/
inductive Event where
  | executed (instruction : Instruction)
  /-- Entry into a service routine, and whether an enable was pending then. -/
  | entered (source : Interrupt) (enablePending : Bool)
  | passed
  deriving DecidableEq

namespace Event

/-- EI and RETI, which ask for requests to be served. -/
def enables : Event → Bool
  | executed instruction => instruction.asksEnable
  | _ => false

/-- DI, and the entry into a routine. Power-on, the third way, is the start of every history. -/
def refuses : Event → Bool
  | executed .disableInterrupts | entered _ _ => true
  | _ => false

/-- The master enable opens at the end of an instruction, so that it matters which events are
one. -/
def completes : Event → Bool
  | executed _ => true
  | _ => false

end Event

/-- The machine after a move. -/
def move (machine : Machine) : Move → Machine
  | .step => machine.step.2
  | .service => machine.service.2
  | .outside bus => { machine with bus }

/-- A byte that names no instruction counts as nothing done. -/
def stepEvent (machine : Machine) : Event :=
  match machine.fetch.1 with
  | .ok instruction => .executed instruction
  | .error _ => .passed

/-- An entry keeps track of whether an enable was pending in that moment. -/
def serviceEvent (machine : Machine) : Event :=
  match machine.bus.interrupts.next? with
  | some source =>
    if machine.cpu.masterEnable then .entered source machine.cpu.enablePending else .passed
  | none => .passed

/-- The event that a move makes in this state. -/
def event (machine : Machine) : Move → Event
  | .step => machine.stepEvent
  | .service => machine.serviceEvent
  | .outside _ => .passed

/-- The machine after a run. -/
def after (machine : Machine) (moves : List Move) : Machine := moves.foldl move machine

/-- The events of a run, first one first. -/
def history (machine : Machine) : List Move → List Event
  | [] => []
  | next :: rest => machine.event next :: (machine.move next).history rest

/-- Since requests were last refused an enabling instruction ran, and then one more completed. The
power-on of the machine counts as a refusal, with nothing before it. -/
def EnabledSince (history : List Event) : Prop :=
  ∃ past enabler later, history = past ++ enabler :: later ∧ enabler.enables = true ∧
    (∀ event ∈ later, event.refuses = false) ∧ ∃ event ∈ later, event.completes = true

/-- A routine was entered with an enable pending, and its first instruction did not withdraw it.
Between the entry and that instruction other things may happen, as long as none completes or
refuses. -/
def CarriesEnable (history : List Event) : Prop :=
  ∃ past source idle instruction later,
    history = past ++ .entered source true :: (idle ++ .executed instruction :: later) ∧
      (∀ event ∈ idle, event.completes = false ∧ event.refuses = false) ∧
      instruction ≠ .disableInterrupts

/-! ## Runs and their histories -/

theorem history_append (machine : Machine) (first second : List Move) :
    machine.history (first ++ second) =
      machine.history first ++ (machine.after first).history second := by
  induction first generalizing machine with
  | nil => rfl
  | cons next rest ih => simp [history, after, ih]

/-- Every move makes one event, so that places in a run and in its history agree. -/
theorem length_history (machine : Machine) (moves : List Move) :
    (machine.history moves).length = moves.length := by
  induction moves generalizing machine with
  | nil => rfl
  | cons next rest ih => simp [history, ih]

/-- Where a history splits, the run splits. -/
theorem moves_of_history {machine : Machine} {moves : List Move} {first second : List Event}
    (split : machine.history moves = first ++ second) :
    ∃ before rest, moves = before ++ rest ∧ machine.history before = first ∧
      (machine.after before).history rest = second := by
  refine ⟨moves.take first.length, moves.drop first.length, by simp, ?_⟩
  have cut := machine.history_append (moves.take first.length) (moves.drop first.length)
  rw [List.take_append_drop, split] at cut
  have bound : first.length ≤ moves.length := by
    rw [← machine.length_history moves, split]
    simp
  have size : first.length = (machine.history (moves.take first.length)).length := by
    rw [length_history, List.length_take, Nat.min_eq_left bound]
  obtain ⟨front, back⟩ := List.append_inj cut size
  exact ⟨front.symm, back.symm⟩

/-- The move behind an event of a history. -/
theorem move_of_history {machine : Machine} {moves : List Move} {event : Event}
    {later : List Event} (split : machine.history moves = event :: later) :
    ∃ next rest, moves = next :: rest ∧ machine.event next = event ∧
      (machine.move next).history rest = later := by
  cases moves with
  | nil => cases split
  | cons next rest =>
    obtain ⟨head, tail⟩ := List.cons.inj split
    exact ⟨next, rest, rfl, head, tail⟩

/-! ## What the events of a history say about each other -/

/-- A condition on the events so far, with one event more. -/
theorem forall_mem_snoc {condition : Event → Prop} {events : List Event} {event : Event}
    (all : ∀ other ∈ events, condition other) (last : condition event) :
    ∀ other ∈ events ++ [event], condition other :=
  List.forall_mem_append.mpr ⟨all, List.forall_mem_singleton.mpr last⟩

theorem EnabledSince.snoc {history : List Event} {event : Event} (enabled : EnabledSince history)
    (keeps : event.refuses = false) : EnabledSince (history ++ [event]) := by
  obtain ⟨past, enabler, later, rfl, enables, unrefused, other, member, completes⟩ := enabled
  have still := forall_mem_snoc unrefused keeps
  have among := List.mem_append_left [event] member
  exact ⟨past, enabler, later ++ [event], by simp, enables, still, other, among, completes⟩

/-- An entry with a pending enable cannot be undone by what follows. -/
theorem CarriesEnable.append {history : List Event} (carries : CarriesEnable history)
    (more : List Event) : CarriesEnable (history ++ more) := by
  obtain ⟨past, source, idle, instruction, later, rfl, quiet, kept⟩ := carries
  exact ⟨past, source, idle, instruction, later ++ more, by simp, quiet, kept⟩

theorem not_enables_of_refuses {event : Event} (refuses : event.refuses = true) :
    event.enables = false := by
  cases event with
  | executed instruction => cases instruction <;> first | rfl | cases refuses
  | entered source enablePending => rfl
  | passed => rfl

/-- An enabling instruction completes, though it is not the one that its own enable waits for. -/
theorem completes_of_enables {event : Event} (enables : event.enables = true) :
    event.completes = true := by
  cases event with
  | executed instruction => rfl
  | entered source enablePending => cases enables
  | passed => cases enables

/-- What enabled requests came after whatever refused them. -/
theorem EnabledSince.of_refusal {past rest : List Event} {refusal : Event}
    (enabled : EnabledSince (past ++ refusal :: rest)) (refuses : refusal.refuses = true) :
    EnabledSince rest := by
  obtain ⟨front, enabler, later, split, enables, unrefused, done⟩ := enabled
  have apart : refusal ≠ enabler := by
    rintro rfl
    rw [not_enables_of_refuses refuses] at enables
    cases enables
  rcases List.append_eq_append_iff.mp split with ⟨gap, _, tail⟩ | ⟨gap, _, tail⟩
  · cases gap with
    | nil => exact absurd (List.cons.inj tail).1 apart
    | cons first gap =>
      obtain ⟨_, rest⟩ := List.cons.inj tail
      exact ⟨gap, enabler, later, rest, enables, unrefused, done⟩
  · cases gap with
    | nil => exact absurd (List.cons.inj tail).1.symm apart
    | cons first gap =>
      obtain ⟨_, rest⟩ := List.cons.inj tail
      have member : refusal ∈ later := by simp [rest]
      rw [unrefused refusal member] at refuses
      cases refuses

/-- One completed instruction is too few: the enabling one and another are needed. -/
theorem not_enabledSince_of_one {idle : List Event} {event : Event}
    (quiet : ∀ event ∈ idle, event.completes = false) : ¬ EnabledSince (idle ++ [event]) := by
  rintro ⟨past, enabler, later, split, enables, _, last, member, completes⟩
  have counted := congrArg (List.countP Event.completes) split
  have none : idle.countP Event.completes = 0 := by
    rw [List.countP_eq_zero]
    intro other belongs
    simp [quiet other belongs]
  have some : 0 < later.countP Event.completes := List.countP_pos_iff.mpr ⟨last, member, completes⟩
  have one : [event].countP Event.completes ≤ 1 := List.countP_le_length
  have enabler := List.countP_cons_of_pos (l := later) (completes_of_enables enables)
  rw [List.countP_append, List.countP_append, none, enabler] at counted
  omega

/-! ## The rule and its exception, step by step -/

/-- An enabling instruction ran since requests were last refused. -/
def Requested (history : List Event) : Prop :=
  ∃ past enabler later, history = past ++ enabler :: later ∧ enabler.enables = true ∧
    ∀ event ∈ later, event.refuses = false

/-- Nothing ran since a routine was entered with an enable pending. -/
def Inherited (history : List Event) : Prop :=
  ∃ past source later, history = past ++ .entered source true :: later ∧
    ∀ event ∈ later, event.completes = false ∧ event.refuses = false

/-- A request for the master enable outlives every event but a refusal. -/
theorem Requested.snoc {history : List Event} {event : Event} (requested : Requested history)
    (keeps : event.refuses = false) : Requested (history ++ [event]) := by
  obtain ⟨past, enabler, later, rfl, enables, unrefused⟩ := requested
  have still := forall_mem_snoc unrefused keeps
  exact ⟨past, enabler, later ++ [event], by simp, enables, still⟩

theorem Requested.enabledSince {history : List Event} {event : Event}
    (requested : Requested history) (keeps : event.refuses = false)
    (completes : event.completes = true) : EnabledSince (history ++ [event]) := by
  obtain ⟨past, enabler, later, rfl, enables, unrefused⟩ := requested
  have still := forall_mem_snoc unrefused keeps
  exact ⟨past, enabler, later ++ [event], by simp, enables, still, event, by simp, completes⟩

theorem Inherited.snoc {history : List Event} {event : Event} (inherited : Inherited history)
    (quiet : event.completes = false) (keeps : event.refuses = false) :
    Inherited (history ++ [event]) := by
  obtain ⟨past, source, later, rfl, idle⟩ := inherited
  have still := forall_mem_snoc idle ⟨quiet, keeps⟩
  exact ⟨past, source, later ++ [event], by simp, still⟩

/-- The first instruction of the routine lets the enable through unless it is DI. -/
theorem Inherited.carriesEnable {history : List Event} {instruction : Instruction}
    (inherited : Inherited history) (kept : instruction ≠ .disableInterrupts) :
    CarriesEnable (history ++ [.executed instruction]) := by
  obtain ⟨past, source, later, rfl, idle⟩ := inherited
  exact ⟨past, source, later, instruction, [], by simp, idle, kept⟩

/-- What the two enabling latches owe to the history of a run. Each of them, if it is set, has
an enabling instruction behind it or was inherited by a routine; this is the invariant that
moves keep. -/
structure Accounted (history : List Event) (machine : Machine) : Prop where
  enabled : machine.cpu.masterEnable = true → EnabledSince history ∨ CarriesEnable history
  pending : machine.cpu.enablePending = true → Requested history ∨ Inherited history

/-- An event that neither runs an instruction nor enters a routine leaves both latches alone. -/
theorem Accounted.passed {history : List Event} {machine next : Machine}
    (before : Accounted history machine)
    (enable : next.cpu.masterEnable = machine.cpu.masterEnable)
    (pending : next.cpu.enablePending = machine.cpu.enablePending) :
    Accounted (history ++ [.passed]) next := by
  constructor
  · intro on
    rw [enable] at on
    exact (before.enabled on).imp (·.snoc rfl) (·.append _)
  · intro on
    rw [pending] at on
    exact (before.pending on).imp (·.snoc rfl) (·.snoc rfl rfl)

/-- The entry closes the master enable. An enable that is pending is inherited from here on, and if
none is there is nothing to account for. -/
theorem Accounted.entered {history : List Event} {machine next : Machine} {source : Interrupt}
    (enable : next.cpu.masterEnable = false)
    (pending : next.cpu.enablePending = machine.cpu.enablePending) :
    Accounted (history ++ [.entered source machine.cpu.enablePending]) next := by
  constructor
  · intro on
    rw [enable] at on
    cases on
  · intro on
    rw [pending] at on
    rw [on]
    exact .inr ⟨history, source, [], rfl, by simp⟩

/-- An instruction opens the master enable if an enable was pending, and that one was asked for or
inherited. -/
theorem Accounted.executed {history : List Event} {machine next : Machine}
    {instruction : Instruction} (before : Accounted history machine)
    (enable : next.cpu.masterEnable =
      (instruction != .disableInterrupts &&
        (machine.cpu.masterEnable || machine.cpu.enablePending)))
    (pending : next.cpu.enablePending =
      ((Event.executed instruction).enables && !machine.cpu.enablePending)) :
    Accounted (history ++ [.executed instruction]) next := by
  constructor
  · intro on
    rw [enable, Bool.and_eq_true, bne_iff_ne, Bool.or_eq_true] at on
    obtain ⟨kept, asked⟩ := on
    have keeps : (Event.executed instruction).refuses = false := by
      cases instruction <;> first | rfl | exact absurd rfl kept
    rcases asked with was | was
    · exact (before.enabled was).imp (·.snoc keeps) (·.append _)
    · exact (before.pending was).imp (·.enabledSince keeps rfl) (·.carriesEnable kept)
  · intro on
    rw [pending, Bool.and_eq_true] at on
    exact .inl ⟨history, .executed instruction, [], rfl, on.1, by simp⟩

/-! ## Steps of a run -/

/-- Both latches after a step, from both before it. -/
theorem enables_step_of_fetch {machine fetched : Machine} {instruction : Instruction}
    (fetch : machine.fetch = (.ok instruction, fetched)) :
    machine.step.2.cpu.masterEnable =
        (instruction != .disableInterrupts &&
          (machine.cpu.masterEnable || machine.cpu.enablePending)) ∧
      machine.step.2.cpu.enablePending =
        (instruction.asksEnable && !machine.cpu.enablePending) := by
  obtain ⟨before, after⟩ := latches_step_of_fetch fetch
  have on : fetched.cpu.masterEnable = machine.cpu.masterEnable := masterEnable_of_latches before
  have was : fetched.cpu.enablePending = machine.cpu.enablePending :=
    enablePending_of_latches before
  have asks : instruction.asksEnable = true → (instruction != .disableInterrupts) = true := by
    cases instruction <;> simp [Instruction.asksEnable]
  have enable := fetched.masterEnable_latchesAfter instruction
  have pending := fetched.enablePending_latchesAfter instruction
  rw [on] at enable
  rw [was] at pending
  rw [masterEnable_of_latches after, enablePending_of_latches after]
  unfold Latches.settle
  generalize (instruction != .disableInterrupts) = kept at *
  generalize instruction.asksEnable = asked at *
  cases waiting : machine.cpu.enablePending <;> cases kept <;> cases asked <;> simp_all

/-- A move runs an instruction, enters a routine, or leaves both enabling latches alone. -/
theorem move_cases (machine : Machine) (next : Move) :
    (∃ instruction, machine.event next = .executed instruction ∧
      (machine.move next).cpu.masterEnable =
        (instruction != .disableInterrupts &&
          (machine.cpu.masterEnable || machine.cpu.enablePending)) ∧
      (machine.move next).cpu.enablePending =
        (instruction.asksEnable && !machine.cpu.enablePending)) ∨
    (∃ source, machine.event next = .entered source machine.cpu.enablePending ∧
      machine.cpu.masterEnable = true ∧ (machine.move next).cpu.masterEnable = false ∧
      (machine.move next).cpu.enablePending = machine.cpu.enablePending) ∨
    (machine.event next = .passed ∧
      (machine.move next).cpu.masterEnable = machine.cpu.masterEnable ∧
      (machine.move next).cpu.enablePending = machine.cpu.enablePending) := by
  cases next with
  | step =>
    simp only [move, event]
    rcases machine.step_cases with ⟨instruction, fetched, fetch, _⟩ | ⟨fault, stopped, fetch, _⟩
    · refine .inl ⟨instruction, ?_, enables_step_of_fetch fetch⟩
      unfold stepEvent
      rw [fetch]
    · have kept := latches_step_of_fault fetch
      refine .inr (.inr ⟨?_, masterEnable_of_latches kept, enablePending_of_latches kept⟩)
      unfold stepEvent
      rw [fetch]
  | service =>
    have enable := masterEnable_of_latches machine.latches_service
    have pending := enablePending_of_latches machine.latches_service
    simp only [move, event, serviceEvent]
    cases waiting : machine.bus.interrupts.next? with
    | none =>
      rw [waiting] at enable pending
      exact .inr (.inr ⟨rfl, enable, pending⟩)
    | some source =>
      rw [waiting] at enable pending
      dsimp only
      by_cases on : machine.cpu.masterEnable = true
      · rw [if_pos on]
        exact .inr (.inl ⟨source, rfl, on, enable, pending⟩)
      · rw [if_neg on]
        simp only [Bool.not_eq_true] at on
        exact .inr (.inr ⟨rfl, enable.trans on.symm, pending⟩)
  | outside bus => exact .inr (.inr ⟨rfl, rfl, rfl⟩)

theorem accounted_move {history : List Event} {machine : Machine}
    (before : Accounted history machine) (next : Move) :
    Accounted (history ++ [machine.event next]) (machine.move next) := by
  rcases machine.move_cases next with ⟨instruction, event, enable, pending⟩ |
      ⟨source, event, _, enable, pending⟩ | ⟨event, enable, pending⟩
  · rw [event]
    exact before.executed enable pending
  · rw [event]
    exact .entered enable pending
  · rw [event]
    exact before.passed enable pending

theorem accounted_run {past : List Event} {machine : Machine} (before : Accounted past machine)
    (moves : List Move) :
    Accounted (past ++ machine.history moves) (machine.after moves) := by
  induction moves generalizing past machine with
  | nil => simpa [history, after] using before
  | cons next rest ih =>
    have tail := ih (accounted_move before next)
    rwa [List.append_assoc] at tail

/-- Nothing is owed at power-on, with whatever memory. -/
theorem accounted_powerOn (color : Bool) (bus : Bus) : Accounted [] ⟨.powerOn color, bus⟩ :=
  ⟨fun on => Bool.noConfusion on, fun on => Bool.noConfusion on⟩

/-- An enable that is pending stays so until an instruction completes or withdraws it. -/
theorem enablePending_of_idle {machine : Machine} {moves : List Move}
    (idle : ∀ event ∈ machine.history moves, event.completes = false ∧ event.refuses = false)
    (pending : machine.cpu.enablePending = true) :
    (machine.after moves).cpu.enablePending = true := by
  induction moves generalizing machine with
  | nil => exact pending
  | cons next rest ih =>
    have first := idle (machine.event next) (by simp [history])
    refine @ih (machine.move next) ?_ ?_
    · intro event belongs
      exact idle event (by simp [history, belongs])
    · rcases machine.move_cases next with ⟨instruction, event, _⟩ | ⟨source, event, _⟩ |
        ⟨_, _, kept⟩
      · rw [event] at first
        cases first.1
      · rw [event] at first
        cases first.2
      · rw [kept]
        exact pending

/-! ## Whole runs -/

/-- Only a machine that serves requests enters a routine, and the entry leaves an enable pending
that was. -/
theorem event_of_enters {machine : Machine} {next : Move} {source : Interrupt} {pending : Bool}
    (enters : machine.event next = .entered source pending) :
    machine.cpu.masterEnable = true ∧ machine.cpu.enablePending = pending ∧
      (machine.move next).cpu.enablePending = pending := by
  rcases machine.move_cases next with ⟨instruction, event, _⟩ | ⟨other, event, on, _, kept⟩ |
      ⟨event, _⟩
  · rw [event] at enters
    cases enters
  · rw [event] at enters
    cases enters
    exact ⟨on, rfl, kept⟩
  · rw [event] at enters
    cases enters

/-- A pending enable opens the master enable at the end of any instruction but DI. -/
theorem masterEnable_of_executes {machine : Machine} {next : Move} {instruction : Instruction}
    (executes : machine.event next = .executed instruction)
    (kept : instruction ≠ .disableInterrupts) (pending : machine.cpu.enablePending = true) :
    (machine.move next).cpu.masterEnable = true := by
  rcases machine.move_cases next with ⟨other, event, enable, _⟩ | ⟨source, event, _⟩ | ⟨event, _⟩
  · rw [event] at executes
    cases executes
    simp [enable, pending, kept]
  · rw [event] at executes
    cases executes
  · rw [event] at executes
    cases executes

/-- A routine that carries a pending enable past its first instruction is served too early. -/
theorem enabled_early {machine : Machine} {moves : List Move}
    (carries : CarriesEnable (machine.history moves)) :
    ∃ before rest, moves = before ++ rest ∧ (machine.after before).cpu.masterEnable = true ∧
      ¬ EnabledSince (machine.history before) := by
  obtain ⟨past, source, idle, instruction, later, split, quiet, kept⟩ := carries
  obtain ⟨front, tail, rfl, frontEvents, tailEvents⟩ := moves_of_history split
  obtain ⟨entry, tail, rfl, enters, tailEvents⟩ := move_of_history tailEvents
  obtain ⟨waiting, tail, rfl, idleEvents, tailEvents⟩ := moves_of_history tailEvents
  obtain ⟨first, tail, rfl, executes, -⟩ := move_of_history tailEvents
  obtain ⟨_, _, pending⟩ := event_of_enters enters
  have stays := enablePending_of_idle (by rwa [idleEvents]) pending
  have on := masterEnable_of_executes executes kept stays
  refine ⟨front ++ entry :: (waiting ++ [first]), tail, by simp, ?_, ?_⟩
  · simpa [after] using on
  · rw [history_append, history, history_append, frontEvents, enters, idleEvents]
    intro enabled
    have since := enabled.of_refusal rfl
    exact not_enabledSince_of_one (fun event member => (quiet event member).1) since

/-- While every entry leaves a pending enable behind, requests are served only when asked for. -/
theorem enabledSince_of_masterEnable {color : Bool} {bus : Bus} {moves before rest : List Move}
    (split : moves = before ++ rest)
    (clean : ¬ CarriesEnable (Machine.history ⟨.powerOn color, bus⟩ moves))
    (on : (Machine.after ⟨.powerOn color, bus⟩ before).cpu.masterEnable = true) :
    EnabledSince (Machine.history ⟨.powerOn color, bus⟩ before) := by
  have accounted := accounted_run (accounted_powerOn color bus) before
  rcases accounted.enabled on with enabled | carries
  · exact enabled
  · rw [split, history_append] at clean
    exact absurd (carries.append _) clean

/-- Requests are served only while enabled since they were last refused, through a whole run, if and
only if no routine is entered with an enable pending that its first instruction lets through. In
such a run, two entries always have an enabling instruction and another one between them. The run
may change the bus from outside in any way between its steps and services. -/
theorem requests_enabled_iff (color : Bool) (bus : Bus) (moves : List Move) :
    let start : Machine := ⟨.powerOn color, bus⟩
    ((∀ n, (start.after (moves.take n)).cpu.masterEnable = true →
        EnabledSince (start.history (moves.take n))) ↔ ¬ CarriesEnable (start.history moves)) ∧
      (¬ CarriesEnable (start.history moves) →
        ∀ past source pending middle source' pending' later,
          start.history moves =
              past ++ .entered source pending :: (middle ++ .entered source' pending' :: later) →
            EnabledSince middle) := by
  intro start
  refine ⟨⟨?early, ?clean⟩, ?between⟩
  case early =>
    intro always carries
    obtain ⟨before, rest, rfl, on, early⟩ := enabled_early carries
    have taken : (before ++ rest).take before.length = before := List.take_left
    have enabled := always before.length
    rw [taken] at enabled
    exact early (enabled on)
  case clean =>
    intro clean n on
    exact enabledSince_of_masterEnable (List.take_append_drop n moves).symm clean on
  case between =>
    intro clean past source pending middle source' pending' later split
    have regrouped : start.history moves =
        (past ++ .entered source pending :: middle) ++ .entered source' pending' :: later := by
      rw [split]
      simp
    obtain ⟨before, rest, moves_eq, events, tail⟩ := moves_of_history regrouped
    obtain ⟨entry, _, _, enters, _⟩ := move_of_history tail
    obtain ⟨on, _, _⟩ := event_of_enters enters
    have enabled := enabledSince_of_masterEnable moves_eq clean on
    rw [events] at enabled
    exact enabled.of_refusal rfl

/-- A program that enables requests twice, EI NOP EI, with a request that waits from the start. -/
def twiceEnabling : Bus where
  cartridge := .ofProgram #[] #[0xfb, 0x00, 0xfb]
  color := false
  interrupts := { enable := 0x01, flags := 0x01 }

/-- A request served right after the second EI: its routine starts with NOP and has requests enabled
by it. No instruction of the routine has asked for that, and none of the program since the entry. -/
theorem enabled_by_first_routine_instruction :
    let start : Machine := ⟨.powerOn false, twiceEnabling⟩
    let moves := [.step, .step, .step, .service, .step]
    (start.after moves).cpu.masterEnable = true ∧ ¬ EnabledSince (start.history moves) := by
  intro start moves
  have events : start.history moves =
      [.executed .enableInterrupts, .executed .nop, .executed .enableInterrupts] ++
        .entered .vblank true :: ([] ++ [.executed .nop]) := by
    decide +kernel
  refine ⟨by decide +kernel, ?_⟩
  rw [events]
  intro enabled
  exact not_enabledSince_of_one (by simp) (enabled.of_refusal rfl)

end Machine

end Handheld
