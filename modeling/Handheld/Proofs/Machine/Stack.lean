import Handheld.Proofs.Bus.Ram
import Handheld.Proofs.Machine.Stores

/-!
# The stack

The stack lies in RAM and grows downwards from the stack pointer. `Bus.Holds` says which words lie
on it, the latest first, and with which banks showing each of them was pushed. A push lengthens that
list and a pop shortens it; no push reaches a word that lies there already, because the bytes of a
stack never go all the way round the address space. Words come off in the opposite order.
-/
namespace Handheld

/-- So many bytes below the address lie in RAM. The address space wraps. -/
def HasRoom (address : UInt16) (bytes : Nat) : Prop :=
  ∀ distance, 0 < distance → distance ≤ bytes → IsRam (address - UInt16.ofNat distance)

/-- The addresses of so many bytes below an address. -/
def Below (address : UInt16) (bytes : Nat) (other : UInt16) : Prop :=
  ∃ distance, 0 < distance ∧ distance ≤ bytes ∧ other = address - UInt16.ofNat distance

/-- A word on the stack, and the banks that showed when it was pushed. With other banks showing its
addresses may read otherwise, while its cells still hold it. -/
structure Saved where
  banks : Banks
  value : UInt16

namespace Bus

/-- A word lies at an address of RAM, in the banks it was stored to, whichever banks show now. -/
structure HoldsWord (bus : Bus) (address : UInt16) (saved : Saved) : Prop where
  exist : saved.banks.Exist
  low : IsRam address
  high : IsRam (address + 1)
  reads : (bus.showing saved.banks).readWord address = saved.value

/-- Words lie on the stack from an address on, the latest first. -/
def Holds (bus : Bus) (address : UInt16) : List Saved → Prop
  | [] => True
  | saved :: deeper => bus.HoldsWord address saved ∧ bus.Holds (address + 2) deeper

theorem holds_nil (bus : Bus) (address : UInt16) : bus.Holds address [] := trivial

end Bus

/-! ## Room -/

/-- Below a pushed word: distances are counted on from it, and wrap with the stack pointer. -/
theorem sub_two_sub (address : UInt16) (distance : Nat) :
    address - 2 - UInt16.ofNat distance = address - UInt16.ofNat (distance + 2) := by
  have two : UInt16.ofNat 2 = 2 := rfl
  rw [UInt16.ofNat_add, two]
  grind

theorem add_two_add (address : UInt16) (distance : Nat) :
    address + 2 + UInt16.ofNat distance = address + UInt16.ofNat (distance + 2) := by
  rw [UInt16.ofNat_add, UInt16.add_comm (UInt16.ofNat distance), ← UInt16.add_assoc]
  rfl

namespace HasRoom

variable {address : UInt16} {bytes : Nat}

theorem weaken {fewer : Nat} (room : HasRoom address bytes) (within : fewer ≤ bytes) :
    HasRoom address fewer :=
  fun distance some inside => room distance some (Nat.le_trans inside within)

theorem first (room : HasRoom address 2) : IsRam (address - 1) := room 1 (by decide) (by decide)

theorem second (room : HasRoom address 2) : IsRam (address - 2) := room 2 (by decide) (by decide)

/-- The room that a push leaves. -/
theorem push (room : HasRoom address (bytes + 2)) : HasRoom (address - 2) bytes := by
  intro distance some inside
  rw [sub_two_sub]
  exact room (distance + 2) (by omega) (by omega)

end HasRoom

theorem Below.push {address : UInt16} {bytes : Nat} {other : UInt16}
    (below : Below (address - 2) bytes other) : Below address (bytes + 2) other := by
  obtain ⟨distance, some, inside, rfl⟩ := below
  exact ⟨distance + 2, by omega, by omega, sub_two_sub address distance⟩

namespace Bus.Holds

variable {bus after : Bus} {address : UInt16} {saved : List Saved}

/-! ## Words that lie on the stack -/

theorem ram (holds : bus.Holds address saved) {distance : Nat}
    (inside : distance < 2 * saved.length) : IsRam (address + UInt16.ofNat distance) := by
  induction saved generalizing address distance with
  | nil => cases inside
  | cons latest deeper ih =>
    obtain ⟨here, there⟩ := holds
    match distance with
    | 0 =>
      have same : address + UInt16.ofNat 0 = address := UInt16.add_zero address
      rw [same]
      exact here.low
    | 1 => exact here.high
    | distance + 2 =>
      rw [← add_two_add]
      exact ih there (by rw [List.length_cons] at inside; omega)

/-- The first address of all is not RAM, so no stack reaches round the address space. -/
theorem length_bound (holds : bus.Holds address saved) : 2 * saved.length + 2 ≤ 0x10000 := by
  by_contra long
  have bound := address.toNat_lt
  have reaches : (0x10000 - address.toNat) % 0x10000 < 2 * saved.length := by omega
  have ram := holds.ram reaches
  have zero : (address + UInt16.ofNat ((0x10000 - address.toNat) % 0x10000)).toNat = 0 := by
    rw [UInt16.toNat_add, UInt16.toNat_ofNat']
    omega
  unfold IsRam at ram
  omega

/-- The bytes that a push stores are none of those that lie on the stack. -/
theorem ne_below (holds : bus.Holds address saved) {distance below : Nat}
    (inside : distance < 2 * saved.length) (some : 0 < below) (near : below ≤ 2) :
    address - UInt16.ofNat below ≠ address + UInt16.ofNat distance := by
  intro same
  have bound := holds.length_bound
  have number := congrArg UInt16.toNat same
  rw [UInt16.toNat_sub, UInt16.toNat_add, UInt16.toNat_ofNat', UInt16.toNat_ofNat'] at number
  have := address.toNat_lt
  omega

/-- Words stay on the stack if their cells keep what they hold, whichever banks show. Each word is
looked for in the banks it was pushed under. -/
theorem of_content (holds : bus.Holds address saved)
    (kept : ∀ distance < 2 * saved.length, ∀ (banks : Banks) (cell : Cell), banks.Exist →
      Cell.at? banks (address + UInt16.ofNat distance) = some cell →
      after.content cell = bus.content cell) : after.Holds address saved := by
  induction saved generalizing address with
  | nil => trivial
  | cons latest deeper ih =>
    obtain ⟨here, there⟩ := holds
    have byte {place : UInt16} (ram : IsRam place) {distance : Nat} (near : distance < 2)
        (reached : place = address + UInt16.ofNat distance) :
        (after.showing latest.banks).read place = (bus.showing latest.banks).read place := by
      obtain ⟨cell, behind⟩ := Cell.exists_at?_of_ram ram latest.banks
      rw [read_showing after here.exist behind, read_showing bus here.exist behind]
      rw [reached] at behind
      exact kept distance (by rw [List.length_cons]; omega) latest.banks cell here.exist behind
    refine ⟨⟨here.exist, here.low, here.high, ?reads⟩, ih there ?deeper⟩
    case reads =>
      rw [← here.reads, readWord, readWord, byte here.low Nat.zero_lt_two
        (UInt16.add_zero address).symm, byte here.high Nat.one_lt_two rfl]
    case deeper =>
      intro distance inside banks cell exist behind
      rw [add_two_add] at behind
      exact kept (distance + 2) (by rw [List.length_cons]; omega) banks cell exist behind

/-- A store elsewhere leaves the words, even if it is a store that selects another bank. -/
theorem write (exist : bus.banks.Exist) (holds : bus.Holds address saved) {other : UInt16}
    (apart : ∀ distance < 2 * saved.length, other ≠ address + UInt16.ofNat distance)
    (value : UInt8) : (bus.write other value).Holds address saved := by
  refine holds.of_content fun distance inside banks cell shown behind => ?_
  exact content_write_elsewhere exist shown (holds.ram inside) behind (apart distance inside) value

/-- Stores that reach no byte of the stack leave its words. -/
theorem stores (exist : bus.banks.Exist) (holds : bus.Holds address saved)
    {bytes : List (UInt16 × UInt8)}
    (apart : ∀ byte ∈ bytes, ∀ distance < 2 * saved.length,
      byte.1 ≠ address + UInt16.ofNat distance) :
    (bus.stores bytes).banks.Exist ∧ (bus.stores bytes).Holds address saved := by
  have keeps : ∀ bus : Bus, ∀ byte ∈ bytes, bus.banks.Exist ∧ bus.Holds address saved →
      (bus.write byte.1 byte.2).banks.Exist ∧ (bus.write byte.1 byte.2).Holds address saved := by
    rintro bus byte member ⟨exist, holds⟩
    exact ⟨exist_write exist byte.1 byte.2, holds.write exist (apart byte member) byte.2⟩
  exact Bus.stores_induction bytes keeps bus ⟨exist, holds⟩

/-- Below the latest words lie the earlier ones. -/
theorem drop {later : List Saved} (holds : bus.Holds address (later ++ saved)) :
    bus.Holds (address + UInt16.ofNat (2 * later.length)) saved := by
  induction later generalizing address with
  | nil =>
    have same : address + UInt16.ofNat (2 * 0) = address := UInt16.add_zero address
    rw [List.length_nil, same]
    exact holds
  | cons latest later ih =>
    have deeper := ih holds.2
    rw [add_two_add] at deeper
    exact deeper

end Bus.Holds

/-- Where the same cells show as when a word was pushed, the word is what an address reads. -/
theorem Bus.HoldsWord.readWord {bus : Bus} {address : UInt16} {saved : Saved}
    (holds : bus.HoldsWord address saved)
    (low : Cell.at? bus.banks address = Cell.at? saved.banks address)
    (high : Cell.at? bus.banks (address + 1) = Cell.at? saved.banks (address + 1)) :
    bus.readWord address = saved.value := by
  have byte {place : UInt16} (ram : IsRam place)
      (same : Cell.at? bus.banks place = Cell.at? saved.banks place) :
      bus.read place = (bus.showing saved.banks).read place := by
    obtain ⟨cell, behind⟩ := Cell.exists_at?_of_ram ram saved.banks
    rw [read_showing bus holds.exist behind, read_eq_content (same.trans behind)]
  rw [← holds.reads, Bus.readWord, Bus.readWord, byte holds.low low, byte holds.high high]

namespace Machine

variable {machine : Machine} {saved : List Saved}

/-! ## One push -/

/-- The word that a pop would take. -/
def top (machine : Machine) : UInt16 := machine.bus.readWord machine.registers.sp

/-- The words on the stack of the machine. -/
def Holds (machine : Machine) (saved : List Saved) : Prop :=
  machine.bus.Holds machine.registers.sp saved

theorem top_of_holds {latest : Saved} (holds : machine.Holds (latest :: saved))
    (shows : latest.banks = machine.bus.banks) : machine.top = latest.value :=
  holds.1.readWord (by rw [shows]) (by rw [shows])

/-- RAM holds no bank register, so a push leaves the banks. -/
theorem banks_push (room : HasRoom machine.registers.sp 2) (value : UInt16) :
    (machine.push value).bus.banks = machine.bus.banks := by
  have first := Bus.banks_write_of_ram room.first machine.bus (highByte value)
  have second := Bus.banks_write_of_ram room.second
    (machine.bus.write (machine.registers.sp - 1) (highByte value)) (lowByte value)
  exact second.trans first

/-- A push changes its two bytes of memory and nothing else of the bus. -/
theorem sameBut_push (exist : machine.bus.banks.Exist) (room : HasRoom machine.registers.sp 2)
    (value : UInt16) :
    machine.bus.SameBut (machine.push value).bus (Below machine.registers.sp 2) := by
  have exist' : (machine.bus.write (machine.registers.sp - 1) (highByte value)).banks.Exist :=
    Bus.exist_write exist _ _
  have first : machine.bus.SameBut (machine.bus.write (machine.registers.sp - 1) (highByte value))
      (Below machine.registers.sp 2) :=
    .write exist room.first _ ⟨1, by decide, by decide, rfl⟩
  exact first.trans (.write exist' room.second _ ⟨2, by decide, by decide, rfl⟩)

/-- The pushed word reads back. -/
theorem readWord_push (exist : machine.bus.banks.Exist) (room : HasRoom machine.registers.sp 2)
    (value : UInt16) : (machine.push value).top = value := by
  have exist' : (machine.bus.write (machine.registers.sp - 1) (highByte value)).banks.Exist :=
    Bus.exist_write exist _ _
  have next : machine.registers.sp - 2 + 1 = machine.registers.sp - 1 := by grind
  have apart : machine.registers.sp - 2 ≠ machine.registers.sp - 1 := by grind
  have reads : (machine.push value).top =
      ((machine.bus.write (machine.registers.sp - 1) (highByte value)).write
        (machine.registers.sp - 2) (lowByte value)).readWord (machine.registers.sp - 2) := rfl
  rw [reads, Bus.readWord, Bus.read_write_of_ram exist' room.second,
    Bus.read_write_of_ram exist' room.second, Bus.read_write_of_ram exist room.first, if_pos rfl,
    next, if_neg apart, if_pos rfl, word_highByte_lowByte]

/-- A push puts a word on the stack and leaves those that lie there. -/
theorem holds_push (exist : machine.bus.banks.Exist) (room : HasRoom machine.registers.sp 2)
    (holds : machine.Holds saved) (value : UInt16) :
    (machine.push value).Holds (⟨machine.bus.banks, value⟩ :: saved) := by
  have banks := banks_push room value
  have next : machine.registers.sp - 2 + 1 = machine.registers.sp - 1 := by grind
  have back : machine.registers.sp - 2 + 2 = machine.registers.sp := by grind
  have byte {place : UInt16} (ram : IsRam place) :
      ((machine.push value).bus.showing machine.bus.banks).read place =
        (machine.push value).bus.read place := by
    obtain ⟨cell, behind⟩ := Cell.exists_at?_of_ram ram machine.bus.banks
    rw [Bus.read_showing _ exist behind, Bus.read_eq_content (banks ▸ behind)]
  have high : IsRam (machine.registers.sp - 2 + 1) := next ▸ room.first
  refine ⟨⟨exist, room.second, high, ?latest⟩, ?deeper⟩
  case latest =>
    have reads := readWord_push exist room value
    rw [top, Bus.readWord] at reads
    have sp : (machine.push value).registers.sp = machine.registers.sp - 2 := rfl
    rw [Bus.readWord, sp, byte high, byte room.second]
    exact reads
  case deeper =>
    have apart : ∀ byte ∈ machine.pushStores value, ∀ distance < 2 * saved.length,
        byte.1 ≠ machine.registers.sp + UInt16.ofNat distance := by
      intro byte member distance inside
      simp only [pushStores, List.mem_cons, List.not_mem_nil, or_false] at member
      obtain rfl | rfl := member
      · exact holds.ne_below inside Nat.zero_lt_one (Nat.le_succ 1)
      · exact holds.ne_below inside Nat.zero_lt_two (Nat.le_refl 2)
    have kept := (Bus.Holds.stores exist holds apart).2
    rw [← bus_push, ← back] at kept
    exact kept

/-! ## Many words -/

/-- Pushes words in the order of the list. -/
def pushAll (machine : Machine) (words : List UInt16) : Machine := words.foldl push machine

/-- Pops so many words, and lists them in the order in which they come. -/
def popAll (machine : Machine) : Nat → List UInt16 × Machine
  | 0 => ([], machine)
  | count + 1 =>
    let (value, popped) := machine.pop
    let (rest, last) := popped.popAll count
    (value :: rest, last)

/-- The machine with its stack pointer past so many words. -/
def unwind (machine : Machine) (words : Nat) : Machine :=
  machine.withRegisters fun registers =>
    { registers with sp := registers.sp + UInt16.ofNat (2 * words) }

theorem unwind_zero (machine : Machine) : machine.unwind 0 = machine := by
  have same : machine.cpu.registers.sp + UInt16.ofNat (2 * 0) = machine.cpu.registers.sp :=
    UInt16.add_zero _
  simp only [unwind, withRegisters, same]

theorem unwind_pop (machine : Machine) (words : Nat) :
    machine.pop.2.unwind words = machine.unwind (words + 1) := by
  simp only [pop, unwind, withRegisters, add_two_add]
  rfl

/-- Pushes move the stack pointer and nothing else of the processor. -/
theorem cpu_pushAll (machine : Machine) (words : List UInt16) :
    (machine.pushAll words).cpu = { machine.cpu with
      registers := { machine.cpu.registers with
        sp := machine.cpu.registers.sp - UInt16.ofNat (2 * words.length) } } := by
  induction words generalizing machine with
  | nil =>
    have same : machine.cpu.registers.sp - UInt16.ofNat (2 * 0) = machine.cpu.registers.sp :=
      UInt16.sub_zero _
    simp only [pushAll, List.foldl_nil, List.length_nil, same]
  | cons value words ih =>
    have pushed : (machine.push value).cpu = { machine.cpu with
        registers := { machine.cpu.registers with sp := machine.cpu.registers.sp - 2 } } := rfl
    have rest := ih (machine.push value)
    rw [pushed] at rest
    dsimp only at rest
    rw [sub_two_sub] at rest
    exact rest

theorem sameBut_pushAll (exist : machine.bus.banks.Exist) (words : List UInt16)
    (room : HasRoom machine.registers.sp (2 * words.length)) :
    machine.bus.SameBut (machine.pushAll words).bus
      (Below machine.registers.sp (2 * words.length)) := by
  induction words generalizing machine with
  | nil => exact .refl machine.bus _
  | cons value words ih =>
    have near : HasRoom machine.registers.sp 2 :=
      room.weaken (by rw [List.length_cons]; omega)
    have exist' : (machine.push value).bus.banks.Exist := by rwa [banks_push near]
    have first : machine.bus.SameBut (machine.push value).bus
        (Below machine.registers.sp (2 * (value :: words).length)) := by
      refine (sameBut_push exist near value).weaken ?_
      rintro _ ⟨distance, some, inside, rfl⟩
      exact ⟨distance, some, by rw [List.length_cons]; omega, rfl⟩
    exact first.trans ((ih exist' room.push).weaken fun _ below => below.push)

/-- Pushed words lie on the stack, the last on top, and those that lay there lie below them. -/
theorem holds_pushAll (exist : machine.bus.banks.Exist) (words : List UInt16)
    (room : HasRoom machine.registers.sp (2 * words.length)) (holds : machine.Holds saved) :
    (machine.pushAll words).Holds (words.reverse.map (Saved.mk machine.bus.banks) ++ saved) := by
  induction words generalizing machine saved with
  | nil => exact holds
  | cons value words ih =>
    have near : HasRoom machine.registers.sp 2 :=
      room.weaken (by rw [List.length_cons]; omega)
    have banks := banks_push near value
    have exist' : (machine.push value).bus.banks.Exist := by rwa [banks]
    have rest := ih exist' room.push (holds_push exist near holds value)
    rw [banks] at rest
    rw [List.reverse_cons, List.map_append, List.append_assoc]
    exact rest

theorem unwind_pushAll (machine : Machine) (words : List UInt16) :
    (machine.pushAll words).unwind words.length =
      { machine with bus := (machine.pushAll words).bus } := by
  have cpu := machine.cpu_pushAll words
  have back : machine.cpu.registers.sp - UInt16.ofNat (2 * words.length) +
      UInt16.ofNat (2 * words.length) = machine.cpu.registers.sp := UInt16.sub_add_cancel _ _
  simp only [unwind, withRegisters, cpu, back]

/-- The first word popped is the top, and the rest come from the stack behind it. -/
theorem popAll_succ (machine : Machine) (count : Nat) :
    machine.popAll (count + 1) =
      (machine.top :: (machine.pop.2.popAll count).1, (machine.pop.2.popAll count).2) := rfl

/-- Pops change nothing but the stack pointer. -/
theorem popAll_eq_unwind (machine : Machine) (count : Nat) :
    (machine.popAll count).2 = machine.unwind count := by
  induction count generalizing machine with
  | zero => exact machine.unwind_zero.symm
  | succ count ih => rw [popAll_succ, ih, unwind_pop]

/-- Pops take the words off from the top. -/
theorem popAll_of_holds (holds : machine.Holds saved)
    (shows : ∀ word ∈ saved, word.banks = machine.bus.banks) :
    (machine.popAll saved.length).1 = saved.map Saved.value := by
  induction saved generalizing machine with
  | nil => rfl
  | cons latest deeper ih =>
    have taken := top_of_holds holds (shows latest List.mem_cons_self)
    have rest : (machine.pop.2.popAll deeper.length).1 = deeper.map Saved.value :=
      ih holds.2 fun word member => shows word (List.mem_cons_of_mem latest member)
    rw [List.length_cons, popAll_succ, rest, taken, List.map_cons]

/-- Words come off the stack in the opposite order, and the pushes have changed nothing but their
own bytes. On the way there and back the top of the stack is the last word pushed, of those that
were not yet popped. -/
theorem popAll_pushAll (exist : machine.bus.banks.Exist) (words : List UInt16)
    (room : HasRoom machine.registers.sp (2 * words.length)) :
    let pushed := machine.pushAll words
    pushed.popAll words.length = (words.reverse, { machine with bus := pushed.bus }) ∧
      machine.bus.SameBut pushed.bus (Below machine.registers.sp (2 * words.length)) ∧
      ∀ earlier last later, words = earlier ++ last :: later →
        (machine.pushAll (earlier ++ [last])).top = last ∧
          (pushed.popAll later.length).2.top = last := by
  intro pushed
  have same := sameBut_pushAll exist words room
  have holds : pushed.Holds (words.reverse.map (Saved.mk machine.bus.banks)) := by
    have pushes := holds_pushAll exist words room (Bus.holds_nil _ _)
    rwa [List.append_nil] at pushes
  have length : (words.reverse.map (Saved.mk machine.bus.banks)).length = words.length := by
    rw [List.length_map, List.length_reverse]
  refine ⟨Prod.ext ?order ?machine, same, ?top⟩
  case order =>
    have taken := popAll_of_holds holds fun word member => by
      obtain ⟨value, -, rfl⟩ := List.mem_map.mp member
      exact same.banks.symm
    rw [length] at taken
    rw [taken, List.map_map]
    exact List.map_id _
  case machine => rw [popAll_eq_unwind, unwind_pushAll]
  case top =>
    rintro earlier last later rfl
    constructor
    · have fewer : HasRoom machine.registers.sp (2 * (earlier ++ [last]).length) :=
        room.weaken (by simp only [List.length_append, List.length_cons, List.length_nil]; omega)
      have banks := (sameBut_pushAll exist (earlier ++ [last]) fewer).banks
      have pushes := holds_pushAll exist (earlier ++ [last]) fewer (Bus.holds_nil _ _)
      rw [List.reverse_append] at pushes
      exact top_of_holds pushes banks.symm
    · rw [List.reverse_append, List.reverse_cons, List.append_assoc, List.map_append] at holds
      have deeper : (pushed.unwind later.length).Holds
          (⟨machine.bus.banks, last⟩ :: earlier.reverse.map (Saved.mk machine.bus.banks)) := by
        have below := Bus.Holds.drop holds
        rw [List.length_map, List.length_reverse] at below
        exact below
      rw [popAll_eq_unwind]
      exact top_of_holds deeper same.banks.symm

end Machine

end Handheld
