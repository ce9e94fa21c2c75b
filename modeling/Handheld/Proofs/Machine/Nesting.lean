import Handheld.Proofs.Machine.Flow
import Handheld.Proofs.Machine.Fields
import Handheld.Proofs.Machine.Stack

/-!
# Nested calls

Calls, restarts, pushes and entered service routines leave a word on the stack, and returns and pops
take one. A stretch of running is balanced if these come in nested pairs and nothing in between
overwrites a word that waits on the stack. Then every pair finds its own word: a return goes behind
its own call and a pop gives back what its own push took. Main statement: `stack_last_in_first_out`.

Beside overwriting a word there is a second way to lose it. Part of the stack may lie in the window
of the switchable bank of work RAM, and a subroutine that leaves another bank showing returns to
what that bank holds; `lost_in_other_bank` is such a subroutine.
-/
namespace Handheld

namespace Instruction

/-- Whether an instruction takes a word from the stack, by the flags it finds. -/
def takes (instruction : Instruction) (flags : Flags) : Bool :=
  match instruction with
  | pop _ | returnEnable => true
  | ret condition => condition.holds flags
  | _ => false

/-- Whether an instruction leaves its own address behind it on the stack. -/
def isCall : Instruction → Bool
  | call _ | restart _ => true
  | _ => false

/-- Whether an instruction takes its word into the program counter. -/
def isReturn : Instruction → Bool
  | ret _ | returnEnable => true
  | _ => false

end Instruction

namespace Machine

/-! ## What leaves a word on the stack -/

/-- The word that an instruction leaves on the stack, once its opcode has been fetched. -/
def leaves? (machine : Machine) : Instruction → Option UInt16
  | .push source => some (machine.stackPair source)
  | .call condition =>
    if condition.holds machine.flags then some machine.nextWord.2.pc else none
  | .restart _ => some machine.pc
  | _ => none

/-- The two things that a machine does in turn. Clocks and keys between them are no turns; they do
not reach the stack. -/
inductive Turn where
  | step | service
  deriving DecidableEq, Repr

/-- The machine after a turn. -/
def takeTurn (machine : Machine) : Turn → Machine
  | .step => machine.step.2
  | .service => machine.service.2

/-- The word that a turn leaves on the stack, if it does leave one. -/
def opens? (machine : Machine) : Turn → Option UInt16
  | .step =>
    match machine.fetch with
    | (.ok instruction, fetched) => fetched.leaves? instruction
    | (.error _, _) => none
  | .service => machine.service.1.map fun _ => machine.pc

/-- Whether the next step takes a word from the stack. -/
def closes (machine : Machine) : Bool :=
  match machine.fetch with
  | (.ok instruction, fetched) => instruction.takes fetched.flags
  | (.error _, _) => false

/-- The address behind an instruction at the program counter, which is one lower where its first
byte is fetched twice. -/
def behind (machine : Machine) (instruction : Instruction) : UInt16 :=
  machine.pc +
    UInt16.ofNat ((if machine.cpu.repeatFetch then 0 else 1) + instruction.operandBytes)

variable {machine fetched : Machine} {instruction : Instruction} {value : UInt16} {turn : Turn}

theorem registers_settleEnable (machine : Machine) (wasPending : Bool) :
    (machine.settleEnable wasPending).registers = machine.registers := by
  unfold settleEnable
  split <;> rfl

theorem sp_of_fetch (fetch : machine.fetch = (.ok instruction, fetched)) :
    fetched.registers.sp = machine.registers.sp := by
  have kept := machine.registers_fetch
  rw [fetch] at kept
  rw [kept]

/-- An instruction that leaves a word stores its two bytes and no others, and moves the stack
pointer below them. -/
theorem stores_of_leaves (leaves : fetched.leaves? instruction = some value) :
    fetched.stores instruction = fetched.pushStores value ∧ instruction ≠ .stop ∧
      (fetched.execute instruction).registers.sp = fetched.registers.sp - 2 := by
  cases instruction with
  | push source =>
    cases leaves
    exact ⟨rfl, nofun, rfl⟩
  | restart vector =>
    cases leaves
    exact ⟨rfl, nofun, rfl⟩
  | call condition =>
    rw [leaves?] at leaves
    split at leaves
    · rename_i holds
      cases leaves
      have sp : fetched.nextWord.2.registers.sp = fetched.registers.sp := by
        rw [registers_nextWord]
      refine ⟨if_pos holds, nofun, ?_⟩
      rw [← sp]
      simp only [execute, call, holds, if_true]
      rfl
    · cases leaves
  | _ => cases leaves

theorem opens?_service (machine : Machine) :
    machine.opens? .service = machine.service.1.map fun _ => machine.pc := rfl

theorem fetch_of_opens (opens : machine.opens? .step = some value) :
    ∃ instruction fetched, machine.fetch = (.ok instruction, fetched) ∧
      fetched.leaves? instruction = some value ∧
      machine.step.2 = (fetched.execute instruction).settleEnable machine.cpu.enablePending := by
  unfold opens? at opens
  obtain ⟨instruction, fetched, fetch, step⟩ | ⟨fault, stopped, fetch, -⟩ := machine.step_cases
  · rw [fetch] at opens
    exact ⟨instruction, fetched, fetch, opens, congrArg Prod.snd step⟩
  · rw [fetch] at opens
    cases opens

/-- Whatever leaves a word on the stack pushes it, and does nothing else to the bus but drop the
request of a service. The machine that pushes the word differs from the given one in its requests at
most. -/
theorem takeTurn_of_opens (opens : machine.opens? turn = some value) :
    (machine.takeTurn turn).registers.sp = machine.registers.sp - 2 ∧
      ∃ interrupts, (machine.takeTurn turn).bus =
        ({ machine.bus with interrupts } : Bus).stores (machine.pushStores value) := by
  cases turn with
  | step =>
    obtain ⟨instruction, fetched, fetch, leaves, step⟩ := fetch_of_opens opens
    have bus : fetched.bus = machine.bus := by
      rw [← machine.bus_fetch, fetch]
    have sp := sp_of_fetch fetch
    obtain ⟨stores, runs, moved⟩ := stores_of_leaves leaves
    have same : fetched.pushStores value = machine.pushStores value := by
      rw [pushStores, pushStores, sp]
    have stored := fetched.bus_execute instruction
    rw [if_neg runs, bus, stores, same] at stored
    have stepped : machine.takeTurn .step = _ := step
    rw [stepped, registers_settleEnable, bus_settleEnable, moved, sp, stored]
    exact ⟨rfl, machine.bus.interrupts, rfl⟩
  | service =>
    rw [opens?_service] at opens
    obtain ⟨idle, -⟩ | ⟨source, waiting, enabled, served, -, bus⟩ := machine.service_cases
    · rw [idle] at opens
      cases opens
    · rw [served] at opens
      cases opens
      have stores : machine.serviceStores = machine.pushStores machine.pc := by
        rw [serviceStores, enabled, waiting]
        rfl
      have entered : machine.service.2.registers.sp = machine.registers.sp - 2 := by
        unfold service
        rw [waiting]
        dsimp only
        rw [if_pos enabled]
        rfl
      rw [stores] at bus
      exact ⟨entered, _, bus⟩

/-- The word then lies on top of those that lay on the stack before. -/
theorem holds_takeTurn_of_opens {saved : List Saved} (exist : machine.bus.banks.Exist)
    (holds : machine.Holds saved) (room : HasRoom machine.registers.sp 2)
    (opens : machine.opens? turn = some value) :
    (machine.takeTurn turn).bus.banks.Exist ∧
      (machine.takeTurn turn).Holds (⟨machine.bus.banks, value⟩ :: saved) := by
  obtain ⟨sp, interrupts, bus⟩ := takeTurn_of_opens opens
  let answered : Machine := { machine with bus := { machine.bus with interrupts } }
  have content : answered.bus.content = machine.bus.content := rfl
  have holds' : answered.Holds saved :=
    Bus.Holds.of_content holds fun _ _ _ cell _ _ => congrFun content cell
  have pushed : (machine.takeTurn turn).bus = (answered.push value).bus := bus
  have room' : HasRoom answered.registers.sp 2 := room
  have exist' : answered.bus.banks.Exist := exist
  have banks := banks_push room' value
  have latest := holds_push exist' room' holds' value
  constructor
  · rw [pushed, banks]
    exact exist
  · rw [Machine.Holds, pushed, sp]
    exact latest

/-- The opcode of an instruction that transfers control is a single byte. -/
theorem passByte_of_branches (fetch : machine.fetch = (.ok instruction, fetched))
    (branches : instruction.branches = true) : fetched = machine.passByte := by
  cases named : Opcode.ofByte (machine.read machine.pc) with
  | plain other =>
    rw [fetch_of_plain named] at fetch
    cases fetch
    rfl
  | extended =>
    rw [fetch_of_extended named] at fetch
    cases fetch
    rw [Opcode.branches_ofSecondByte] at branches
    cases branches
  | unassigned =>
    rw [fetch_of_unassigned named] at fetch
    cases fetch

/-- Where a fetched byte leaves the program counter, and that the next one moves on. -/
theorem pc_passByte (machine : Machine) :
    machine.passByte.cpu.repeatFetch = false ∧
      machine.passByte.pc =
        machine.pc + UInt16.ofNat (if machine.cpu.repeatFetch then 0 else 1) := by
  unfold passByte
  cases armed : machine.cpu.repeatFetch with
  | true => exact ⟨rfl, (UInt16.add_zero machine.pc).symm⟩
  | false => exact ⟨armed, rfl⟩

/-- A call leaves the address behind it. -/
theorem eq_behind_of_opens (stands : machine.fetch.1 = .ok instruction)
    (call : instruction.isCall = true) (opens : machine.opens? .step = some value) :
    value = machine.behind instruction := by
  obtain ⟨_, fetched, fetch, leaves, -⟩ := fetch_of_opens opens
  rw [fetch] at stands
  cases stands
  have passed := passByte_of_branches fetch (by cases instruction <;> first | rfl | cases call)
  obtain ⟨advances, pc⟩ := pc_passByte machine
  rw [← passed] at advances pc
  cases instruction with
  | restart vector =>
    cases leaves
    rw [pc, behind]
    rfl
  | call condition =>
    rw [leaves?] at leaves
    split at leaves
    · cases leaves
      have target : fetched.nextWord.2.pc = fetched.pc + 2 := by
        rw [nextWord_of_advances advances]
        rfl
      rw [target, pc, behind, UInt16.ofNat_add, ← UInt16.add_assoc]
      rfl
    · cases leaves
  | _ => cases call

theorem eq_pc_of_opens (opens : machine.opens? .service = some value) : value = machine.pc := by
  rw [opens?_service, Option.map_eq_some_iff] at opens
  obtain ⟨_, -, same⟩ := opens
  exact same.symm

theorem eq_stackPair_of_opens {pair : StackPair} (stands : machine.fetch.1 = .ok (.push pair))
    (opens : machine.opens? .step = some value) : value = machine.stackPair pair := by
  obtain ⟨_, fetched, fetch, leaves, -⟩ := fetch_of_opens opens
  have kept := machine.registers_fetch
  rw [fetch] at stands kept
  cases stands
  cases leaves
  cases pair <;> simp only [stackPair, kept] <;> rfl

/-! ## What takes a word from the stack -/

theorem fetch_of_closes (taken : machine.closes = true) :
    ∃ instruction fetched, machine.fetch = (.ok instruction, fetched) ∧
      instruction.takes fetched.flags = true ∧
      machine.step.2 = (fetched.execute instruction).settleEnable machine.cpu.enablePending := by
  unfold closes at taken
  obtain ⟨instruction, fetched, fetch, step⟩ | ⟨fault, stopped, fetch, -⟩ := machine.step_cases
  · rw [fetch] at taken
    exact ⟨instruction, fetched, fetch, taken, congrArg Prod.snd step⟩
  · rw [fetch] at taken
    cases taken

/-- An instruction that takes a word moves the stack pointer above it and stores nothing. A return
goes to the word. -/
theorem execute_of_takes (takes : instruction.takes fetched.flags = true) :
    (fetched.execute instruction).registers.sp = fetched.registers.sp + 2 ∧
      (fetched.execute instruction).bus = fetched.bus ∧
      (instruction.isReturn = true → (fetched.execute instruction).pc = fetched.top) := by
  cases instruction with
  | pop target => cases target <;> exact ⟨rfl, rfl, nofun⟩
  | returnEnable => exact ⟨rfl, rfl, fun _ => rfl⟩
  | ret condition =>
    have leaves : fetched.execute (.ret condition) = fetched.leave := if_pos takes
    rw [leaves]
    exact ⟨rfl, rfl, fun _ => rfl⟩
  | _ => cases takes

/-- A fetch leaves the top of the stack where it is. -/
theorem top_of_fetch (fetch : machine.fetch = (.ok instruction, fetched)) :
    fetched.top = machine.top := by
  have bus := machine.bus_fetch
  rw [fetch] at bus
  rw [top, top, bus, sp_of_fetch fetch]

theorem step_of_closes (taken : machine.closes = true) :
    machine.step.2.registers.sp = machine.registers.sp + 2 ∧ machine.step.2.bus = machine.bus := by
  obtain ⟨instruction, fetched, fetch, takes, step⟩ := fetch_of_closes taken
  obtain ⟨sp, bus, -⟩ := execute_of_takes takes
  have kept := machine.bus_fetch
  rw [fetch] at kept
  rw [step, registers_settleEnable, bus_settleEnable, sp, bus, sp_of_fetch fetch]
  exact ⟨rfl, kept⟩

/-- A return goes to the word on top of the stack. -/
theorem pc_of_closes (stands : machine.fetch.1 = .ok instruction)
    (isReturn : instruction.isReturn = true) (taken : machine.closes = true) :
    machine.step.2.pc = machine.top := by
  obtain ⟨_, fetched, fetch, takes, step⟩ := fetch_of_closes taken
  rw [fetch] at stands
  cases stands
  obtain ⟨-, -, goes⟩ := execute_of_takes takes
  have pc : machine.step.2.pc = (fetched.execute instruction).pc := by
    rw [step]
    exact congrArg Registers.pc (registers_settleEnable _ _)
  rw [pc, goes isReturn, top_of_fetch fetch]

theorem stackPair_congr {first second : Machine} (same : first.registers = second.registers)
    (pair : StackPair) : first.stackPair pair = second.stackPair pair := by
  cases pair <;> simp only [stackPair, same]

/-- What a pair holds fits into it again. -/
theorem stackPair_setStackPair (machine other : Machine) (pair : StackPair) :
    (machine.setStackPair pair (other.stackPair pair)).stackPair pair = other.stackPair pair := by
  cases pair with
  | bc => exact Registers.bc_setBC _ _
  | de => exact Registers.de_setDE _ _
  | hl => exact Registers.hl_setHL _ _
  | af =>
    have low : lowByte other.registers.af = other.registers.flags.toByte := lowByte_word _ _
    have kept : (Flags.ofByte (lowByte other.registers.af)).toByte =
        lowByte other.registers.af := by
      rw [low, Flags.ofByte_toByte]
    have fits : (other.registers.setAF other.registers.af).af = other.registers.af := by
      rw [Registers.af, Registers.f, Registers.setAF]
      dsimp only
      rw [kept, word_highByte_lowByte]
    exact fits

/-- A pop gives a pair the word on top of the stack. -/
theorem stackPair_of_pop {other : Machine} {pair : StackPair}
    (stands : machine.fetch.1 = .ok (.pop pair)) (top : machine.top = other.stackPair pair) :
    machine.step.2.stackPair pair = other.stackPair pair := by
  obtain ⟨_, fetched, fetch, step⟩ | ⟨_, _, fetch, -⟩ := machine.step_cases
  · rw [fetch] at stands
    cases stands
    have filled : machine.step.2.stackPair pair =
        (fetched.pop.2.setStackPair pair fetched.top).stackPair pair := by
      rw [step]
      exact stackPair_congr (registers_settleEnable _ _) pair
    rw [filled, top_of_fetch fetch, top, stackPair_setStackPair]
  · rw [fetch] at stands
    cases stands

/-! ## Balanced running -/

/-- Goes on without moving the stack pointer and without overwriting a word that waits. What passes
may be a step, or anything that happens to the machine from outside. -/
structure Passes (saved : List Saved) (machine next : Machine) : Prop where
  sp : next.registers.sp = machine.registers.sp
  exist : machine.bus.banks.Exist → next.bus.banks.Exist
  stands : machine.Holds saved → next.Holds saved

/-- One turn that left a word on the stack, and the machine about to take it. The machine before the
turn is part of the pair, since the word comes from there. -/
structure Pairing where
  opening : Machine
  turn : Turn
  closing : Machine

/-- A stretch of running with the pairs that it consists of, while the words `saved` wait on the
stack. -/
inductive Balanced : List Saved → Machine → List Pairing → Machine → Prop
  | rest {saved : List Saved} {machine : Machine} : Balanced saved machine [] machine
  | pass {saved : List Saved} {machine next last : Machine} {pairings : List Pairing}
      (passes : Passes saved machine next) (later : Balanced saved next pairings last) :
      Balanced saved machine pairings last
  | nest {saved : List Saved} {opening closing last : Machine} {turn : Turn} {value : UInt16}
      {within later : List Pairing}
      (room : HasRoom opening.registers.sp 2)
      (opens : opening.opens? turn = some value)
      (body : Balanced (⟨opening.bus.banks, value⟩ :: saved) (opening.takeTurn turn) within closing)
      (closes : closing.closes = true)
      (shows : ∀ address, Below opening.registers.sp 2 address →
        Cell.at? closing.bus.banks address = Cell.at? opening.bus.banks address)
      (rest : Balanced saved closing.step.2 later last) :
      Balanced saved opening (⟨opening, turn, closing⟩ :: within ++ later) last

/-- The word that was left is the word that is taken, and the stack pointer is back. Balanced
running supposes for it that the same cells show as when the word was left. -/
structure Pairing.Meets (pairing : Pairing) : Prop where
  word : pairing.opening.opens? pairing.turn = some pairing.closing.top
  sp : pairing.closing.step.2.registers.sp = pairing.opening.registers.sp
  closes : pairing.closing.closes = true

/-- By induction on the balanced stretch. What waits on the stack at its start waits there at its
end, with the stack pointer where it was, and all its pairs meet. -/
theorem Balanced.keeps {saved : List Saved} {last : Machine} {pairings : List Pairing}
    (balanced : Balanced saved machine pairings last) (exist : machine.bus.banks.Exist)
    (holds : machine.Holds saved) :
    last.registers.sp = machine.registers.sp ∧ last.bus.banks.Exist ∧ last.Holds saved ∧
      ∀ pairing ∈ pairings, pairing.Meets := by
  induction balanced with
  | rest => exact ⟨rfl, exist, holds, by simp⟩
  | pass passes later ih =>
    obtain ⟨sp, last⟩ := ih (passes.exist exist) (passes.stands holds)
    exact ⟨sp.trans passes.sp, last⟩
  | @nest saved opening closing last turn value within later room opens body closes shows rest
      inner outer =>
    obtain ⟨moved, -⟩ := takeTurn_of_opens opens
    obtain ⟨exist', holds'⟩ := holds_takeTurn_of_opens exist holds room opens
    obtain ⟨sp, reached, waits, meetWithin⟩ := inner exist' holds'
    obtain ⟨back, bus⟩ := step_of_closes closes
    rw [sp, moved] at back
    have level : opening.registers.sp - 2 + 2 = opening.registers.sp := by grind
    have next : opening.registers.sp - 2 + 1 = opening.registers.sp - 1 := by grind
    rw [level] at back
    have word : closing.top = value := by
      have latest := waits.1
      rw [sp, moved] at latest
      rw [top, sp, moved]
      refine latest.readWord (shows _ ⟨2, by decide, by decide, rfl⟩) ?_
      rw [next]
      exact shows _ ⟨1, by decide, by decide, rfl⟩
    have deeper : closing.step.2.Holds saved := by
      have below := waits.2
      rw [sp, moved, level] at below
      rw [Machine.Holds, bus, back]
      exact below
    obtain ⟨sp', exist'', holds'', meetLater⟩ := outer (by rw [bus]; exact reached) deeper
    refine ⟨sp'.trans back, exist'', holds'', ?_⟩
    intro pairing member
    simp only [List.cons_append, List.mem_cons, List.mem_append] at member
    obtain rfl | within | later := member
    · exact ⟨word ▸ opens, back, closes⟩
    · exact meetWithin pairing within
    · exact meetLater pairing later

/-- A step that stores to no byte of a waiting word leaves those words, whatever else it does. -/
theorem passes_step {saved : List Saved} (exist : machine.bus.banks.Exist)
    (holds : machine.Holds saved) (sp : machine.step.2.registers.sp = machine.registers.sp)
    (apart : ∀ byte ∈ machine.stepStores, ∀ distance < 2 * saved.length,
      byte.1 ≠ machine.registers.sp + UInt16.ofNat distance) :
    Passes saved machine machine.step.2 := by
  obtain ⟨-, bus⟩ | bus := machine.bus_step
  · have banks : machine.bus.switchSpeed.2.banks = machine.bus.banks := by
      unfold Bus.switchSpeed
      split <;> rfl
    have content : machine.bus.switchSpeed.2.content = machine.bus.content := by
      unfold Bus.switchSpeed
      split <;> rfl
    refine ⟨sp, fun _ => by rwa [bus, banks], fun _ => ?_⟩
    rw [Machine.Holds, bus, sp]
    exact Bus.Holds.of_content holds fun _ _ _ cell _ _ => congrFun content cell
  · obtain ⟨exist', holds'⟩ := Bus.Holds.stores exist holds apart
    refine ⟨sp, fun _ => bus.symm ▸ exist', fun _ => ?_⟩
    rw [Machine.Holds, bus, sp]
    exact holds'

/-- The stack gives words back in the opposite order, whether they are pushed and popped in a row or
by nested calls. The banks that show are always some of those there are, as `Bus.exist_of_fits` has
it.
`rows`: words pushed in a row come off reversed; nothing of the processor has changed then, and of
memory only the bytes that were pushed; at every point in between the top of the stack is the word
last pushed of those still there;
`spares`: a step that stores to no byte of the words that wait on the stack leaves them there;
`nests`: in balanced running every return goes behind its own call, or to where its own service
routine was entered, and every pop fills its pair with what its own push took from there. -/
theorem stack_last_in_first_out (machine : Machine) (exist : machine.bus.banks.Exist) :
    (∀ words : List UInt16, HasRoom machine.registers.sp (2 * words.length) →
      let pushed := machine.pushAll words
      pushed.popAll words.length = (words.reverse, { machine with bus := pushed.bus }) ∧
        machine.bus.SameBut pushed.bus (Below machine.registers.sp (2 * words.length)) ∧
        ∀ earlier last later, words = earlier ++ last :: later →
          (machine.pushAll (earlier ++ [last])).top = last ∧
            (pushed.popAll later.length).2.top = last) ∧
      (∀ saved, machine.Holds saved → machine.step.2.registers.sp = machine.registers.sp →
        (∀ byte ∈ machine.stepStores, ∀ distance < 2 * saved.length,
          byte.1 ≠ machine.registers.sp + UInt16.ofNat distance) →
        Passes saved machine machine.step.2) ∧
      ∀ saved pairings last, machine.Holds saved → Balanced saved machine pairings last →
        last.registers.sp = machine.registers.sp ∧ last.Holds saved ∧
          ∀ pairing ∈ pairings, let { opening, turn, closing } := pairing
            closing.step.2.registers.sp = opening.registers.sp ∧
              opening.opens? turn = some closing.top ∧
              (∀ call back, turn = .step → opening.fetch.1 = .ok call → call.isCall = true →
                closing.fetch.1 = .ok back → back.isReturn = true →
                closing.step.2.pc = opening.behind call) ∧
              (∀ back, turn = .service → closing.fetch.1 = .ok back → back.isReturn = true →
                closing.step.2.pc = opening.pc) ∧
              ∀ pair, turn = .step → opening.fetch.1 = .ok (.push pair) →
                closing.fetch.1 = .ok (.pop pair) →
                closing.step.2.stackPair pair = opening.stackPair pair := by
  refine ⟨popAll_pushAll exist, fun saved holds => passes_step exist holds, ?nests⟩
  case nests =>
    intro saved pairings last holds balanced
    obtain ⟨sp, -, waits, meets⟩ := balanced.keeps exist holds
    refine ⟨sp, waits, ?_⟩
    rintro ⟨opening, turn, closing⟩ member
    obtain ⟨word, level, closes⟩ := meets _ member
    refine ⟨level, word, ?returns, ?resumes, ?restores⟩
    case returns =>
      rintro call back rfl called isCall returning isReturn
      rw [pc_of_closes returning isReturn closes]
      exact eq_behind_of_opens called isCall word
    case resumes =>
      rintro back rfl returning isReturn
      rw [pc_of_closes returning isReturn closes]
      exact eq_pc_of_opens word
    case restores =>
      rintro pair rfl pushing popping
      exact stackPair_of_pop popping (eq_stackPair_of_opens pushing word)

/-- A machine before CALL 0105. The subroutine is PUSH AF; LD (HL),A; POP AF; RET. -/
def nested : Machine := loaded #[0xcd, 0x05, 0x01, 0x00, 0x00, 0xf5, 0x77, 0xf1, 0xc9]

/-- The call comes back, with AF as it was; three words come off in the opposite order. The machines
are evaluated once, and from there on only the facts about them count. -/
theorem stack_last_in_first_out_nested :
    let body := nested.takeTurn .step
    let storing := body.takeTurn .step
    let popping := storing.step.2
    let closing := popping.step.2
    closing.step.2.pc = 0x103 ∧ closing.step.2.registers.sp = 0xfffe ∧
      closing.stackPair .af = body.stackPair .af ∧
      ((nested.pushAll [0x1234, 0xabcd, 0x0007]).popAll 3).1 = [0x0007, 0xabcd, 0x1234] := by
  intro body storing popping closing
  have exist : nested.bus.banks.Exist := ⟨by decide +kernel, by decide +kernel⟩
  have room : HasRoom 0xfffe 6 := by
    have below : ∀ distance < 7, 0 < distance → IsRam (0xfffe - UInt16.ofNat distance) := by decide
    exact fun distance some inside => below distance (by omega) some
  have top : nested.registers.sp = 0xfffe ∧ body.registers.sp = 0xfffe - 2 := by decide +kernel
  have opens : nested.opens? .step = some 0x103 ∧ body.opens? .step = some 0x01b0 := by
    decide +kernel
  have stores : storing.stepStores = [(0x014d, 0x01)] ∧ storing.registers.sp = 0xfffa ∧
      storing.step.2.registers.sp = 0xfffa := by
    decide +kernel
  have apart : ∀ byte ∈ storing.stepStores, ∀ distance < 4,
      byte.1 ≠ storing.registers.sp + UInt16.ofNat distance := by
    rw [stores.1, stores.2.1, List.forall_mem_singleton]
    decide
  have closes : popping.closes = true ∧ closing.closes = true := by decide +kernel
  have banks : popping.bus.banks = body.bus.banks ∧ closing.bus.banks = nested.bus.banks := by
    decide +kernel
  have fetches : nested.fetch.1 = .ok (.call .always) ∧ closing.fetch.1 = .ok (.ret .always) ∧
      body.fetch.1 = .ok (.push .af) ∧ popping.fetch.1 = .ok (.pop .af) := by
    decide +kernel
  have behind : nested.behind (.call .always) = 0x103 := by decide +kernel
  obtain ⟨sp, sp'⟩ := top
  obtain ⟨opens, opens'⟩ := opens
  have first : nested.takeTurn .step = body := rfl
  have second : body.takeTurn .step = storing := rfl
  have third : storing.step.2 = popping := rfl
  have fourth : popping.step.2 = closing := rfl
  clear_value closing popping storing body
  have near : HasRoom nested.registers.sp 2 := sp ▸ room.weaken (by decide)
  have deep : HasRoom body.registers.sp 2 := sp' ▸ (room.weaken (by decide)).push
  have waits := holds_takeTurn_of_opens exist (Bus.holds_nil _ _) near opens
  rw [first] at waits
  have waits' := holds_takeTurn_of_opens waits.1 waits.2 deep opens'
  rw [second] at waits'
  have passes := passes_step waits'.1 waits'.2 (stores.2.2.trans stores.2.1.symm) apart
  rw [third] at passes
  have within := Balanced.pass passes .rest
  rw [← second] at within
  have inner : Balanced [⟨nested.bus.banks, 0x103⟩] (nested.takeTurn .step)
      [⟨body, .step, popping⟩] closing := by
    rw [first, ← fourth]
    exact .nest deep opens' within closes.1
      (fun address _ => congrArg (Cell.at? · address) banks.1) .rest
  have outer := Balanced.nest near opens inner closes.2
    (fun address _ => congrArg (Cell.at? · address) banks.2) .rest
  obtain ⟨rows, -, nests⟩ := stack_last_in_first_out nested exist
  obtain ⟨level, -, pairings⟩ := nests [] _ _ (Bus.holds_nil _ _) outer
  obtain ⟨-, -, returns, -⟩ := pairings ⟨nested, .step, closing⟩ (by simp)
  obtain ⟨-, -, -, -, restores⟩ := pairings ⟨body, .step, popping⟩ (by simp)
  have target := returns _ _ rfl fetches.1 rfl fetches.2.1 rfl
  have pair := restores .af rfl fetches.2.2.1 fetches.2.2.2
  rw [fourth] at pair
  refine ⟨target.trans behind, level.trans sp, pair, ?_⟩
  exact congrArg Prod.fst (rows [0x1234, 0xabcd, 0x0007] (sp ▸ room)).1

/-- A machine before CALL 0105 whose stack lies in bank 1 of work RAM. The subroutine is LD A,02;
LDH (70),A; RET, which shows bank 2 instead. -/
def switching : Machine where
  cpu := { registers := { Registers.powerOn true with sp := 0xd100 } }
  bus :=
    { cartridge :=
        .ofProgram #[] #[0xcd, 0x05, 0x01, 0x00, 0x00, 0x3e, 0x02, 0xe0, 0x70, 0xc9]
      color := true }

/-- The subroutine pushes and pops nothing, and both saved bytes still stand in their cells when it
returns. Yet it returns to the start of the address space, not behind the call: the stack pointer
names an address, and the bank there is another one. -/
theorem lost_in_other_bank :
    let body := switching.step.2
    let closing := body.step.2.step.2
    switching.fetch.1 = .ok (.call .always) ∧ body.top = switching.behind (.call .always) ∧
      body.stepStores = [] ∧ body.step.2.stepStores = [(0xff70, 0x02)] ∧
      closing.registers.sp = body.registers.sp ∧
      closing.bus.content ⟨.work, 1, 0xfe⟩ = lowByte (switching.behind (.call .always)) ∧
      closing.bus.content ⟨.work, 1, 0xff⟩ = highByte (switching.behind (.call .always)) ∧
      closing.fetch.1 = .ok (.ret .always) ∧ closing.step.2.registers.sp = 0xd100 ∧
      closing.step.2.pc = 0x0000 ∧ switching.behind (.call .always) = 0x103 := by
  decide +kernel

end Machine

end Handheld
