import Handheld.Proofs.Bus.Blocks
import Handheld.Proofs.Rig.Events

/-!
# The cells behind the bus

Video, work, object and high RAM are four memories of cells. Two of them are larger than the
windows through which the bus shows them, and the bank registers choose what shows. A cell is named
here by its memory, bank and offset; `Cell.at?` says which one an address stands for. The memories
keep all cells apart: a store through the bus changes the cell behind its address and no other.
-/
namespace Handheld

/-- The four memories. The cartridge and the ports are not among them. -/
inductive Memory where
  | video | work | object | high
  deriving DecidableEq, Repr

/-- Whether a place lies in the memory. -/
def Memory.holds : Memory → Nat → Prop
  | .video, place => place < 0x4000
  | .work, place => place < 0x8000
  | .object, place => place < 0xa0
  | .high, place => place < 0x7f

/-- A cell by its memory, its bank and its offset in the bank. A memory without banks has all of its
cells in bank 0. -/
structure Cell where
  memory : Memory
  bank : Nat
  offset : Nat
  deriving DecidableEq, Repr

/-- The banks that show in the two windows, by their numbers. -/
structure Banks where
  video : Nat
  work : Nat
  deriving DecidableEq, Repr

/-- The cell behind an address while these banks show.
Bank 0 of work RAM has a window of its own. -/
def Cell.at? (banks : Banks) (address : UInt16) : Option Cell :=
  let number := address.toNat
  if 0x8000 ≤ number ∧ number < 0xa000 then some ⟨.video, banks.video, number - 0x8000⟩
  else if 0xc000 ≤ number ∧ number < 0xd000 then some ⟨.work, 0, number - 0xc000⟩
  else if 0xd000 ≤ number ∧ number < 0xe000 then some ⟨.work, banks.work, number - 0xd000⟩
  else if 0xfe00 ≤ number ∧ number < 0xfea0 then some ⟨.object, 0, number - 0xfe00⟩
  else if 0xff80 ≤ number ∧ number < 0xffff then some ⟨.high, 0, number - 0xff80⟩
  else none

/-- The banks after a history of stores, of which the latest comes first. A monochrome machine has
no banks to choose. -/
def Banks.after (start : Banks) (color : Bool) (history : List (UInt16 × UInt8)) : Banks :=
  if color then
    { video := ((history.lookup 0xff4f).map fun value => value.toNat % 2).getD start.video
      work := ((history.lookup 0xff70).map fun value => max 1 (value.toNat % 8)).getD start.work }
  else { video := 0, work := 1 }

/-- The byte last stored to a cell, told from the banks that showed when the stores began. -/
def Cell.lastStored? (cell : Cell) (start : Banks) (color : Bool) :
    List (UInt16 × UInt8) → Option UInt8
  | [] => none
  | (address, value) :: earlier =>
    if Cell.at? (start.after color earlier) address = some cell then some value
    else cell.lastStored? start color earlier

namespace Banks

/-- Banks that are there. Bank 0 of work RAM is none of those that the switchable window shows. -/
structure Exist (banks : Banks) : Prop where
  video : banks.video < 2
  work : 1 ≤ banks.work ∧ banks.work < 8

/-- No history of stores selects a bank that is not there. -/
theorem Exist.after {start : Banks} (exist : start.Exist) (color : Bool)
    (history : List (UInt16 × UInt8)) : (start.after color history).Exist := by
  obtain ⟨video, work⟩ := exist
  unfold Banks.after
  cases color with
  | false => exact ⟨Nat.zero_lt_two, Nat.le_refl 1, Nat.one_lt_succ_succ 6⟩
  | true =>
    constructor
    case video =>
      cases history.lookup 0xff4f with
      | none => exact video
      | some value => exact Nat.mod_lt _ (by decide)
    case work =>
      cases history.lookup 0xff70 with
      | none => exact work
      | some value =>
        simp only [if_true, Option.map_some, Option.getD_some]
        omega

/-- The latest store decides, if it is to one of the two registers. A work bank of zero stands for
bank one. -/
theorem after_cons (start : Banks) (address : UInt16) (value : UInt8)
    (earlier : List (UInt16 × UInt8)) :
    start.after true ((address, value) :: earlier) =
      { video := if address = 0xff4f then value.toNat % 2 else (start.after true earlier).video
        work := if address = 0xff70 then max 1 (value.toNat % 8)
          else (start.after true earlier).work } := by
  have video : (0xff4f == address) = decide (address = 0xff4f) := by
    rw [Bool.beq_comm]
    rfl
  have work : (0xff70 == address) = decide (address = 0xff70) := by
    rw [Bool.beq_comm]
    rfl
  simp only [Banks.after, if_true, List.lookup_cons, video, work, Banks.mk.injEq]
  constructor <;> split_ifs <;> simp [*]

end Banks

namespace Cell

/-- A cell of a bank that is there. -/
def Exists (cell : Cell) : Prop :=
  match cell.memory with
  | .video => cell.bank < 2 ∧ cell.offset < 0x2000
  | .work => cell.bank < 8 ∧ cell.offset < 0x1000
  | .object => cell.bank = 0 ∧ cell.offset < 0xa0
  | .high => cell.bank = 0 ∧ cell.offset < 0x7f

/-- Where in its memory the byte of the cell lies. -/
def place (cell : Cell) : Nat :=
  match cell.memory with
  | .video => cell.bank * 0x2000 + cell.offset
  | .work => cell.bank * 0x1000 + cell.offset
  | .object | .high => cell.offset

/-- Bank and offset can be told from the place again, so that different cells never share a byte. -/
theorem place_injective {left right : Cell} (exists_left : left.Exists)
    (exists_right : right.Exists) (memory : left.memory = right.memory)
    (place : left.place = right.place) : left = right := by
  obtain ⟨kind, bank, offset⟩ := left
  obtain ⟨kind', bank', offset'⟩ := right
  cases memory
  cases kind <;> simp only [Exists, Cell.place] at exists_left exists_right place <;>
    simp only [mk.injEq, true_and] <;> omega

theorem Exists.holds_place {cell : Cell} (present : cell.Exists) :
    cell.memory.holds cell.place := by
  obtain ⟨memory, bank, offset⟩ := cell
  cases memory <;> simp only [Exists] at present <;> simp only [Memory.holds, place] <;> omega

variable {banks : Banks} {address : UInt16} {cell : Cell}

/-- The address map, told by regions as the bus does it and not by bounds. -/
theorem at?_eq_region (banks : Banks) (address : UInt16) :
    at? banks address =
      match Region.ofAddress address with
      | .videoRam => some ⟨.video, banks.video, address.toNat - 0x8000⟩
      | .workRam => some ⟨.work, 0, address.toNat - 0xc000⟩
      | .bankedWorkRam => some ⟨.work, banks.work, address.toNat - 0xd000⟩
      | .objectRam => some ⟨.object, 0, address.toNat - 0xfe00⟩
      | .highRam => some ⟨.high, 0, address.toNat - 0xff80⟩
      | _ => none := by
  obtain ⟨low, high⟩ := Region.bounds address
  unfold at?
  cases region : Region.ofAddress address <;> rw [region] at low high <;>
    simp only [Region.first, Region.last] at low high <;> dsimp only <;>
    split_ifs <;> first | rfl | omega

theorem exists_of_at? (exist : banks.Exist) (behind : at? banks address = some cell) :
    cell.Exists := by
  obtain ⟨video, work⟩ := exist
  unfold at? at behind
  dsimp only at behind
  split_ifs at behind <;> cases behind <;> dsimp only [Exists] <;> constructor <;> omega

end Cell

namespace Bus

variable {bus : Bus} {address : UInt16} {cell : Cell}

/-- The banks that show on this bus now. -/
def banks (bus : Bus) : Banks := ⟨bus.videoBank.toNat, bus.workBank.toNat⟩

/-- The same bus with other banks showing. -/
def showing (bus : Bus) (banks : Banks) : Bus :=
  { bus with videoBank := UInt8.ofNat banks.video, workBank := UInt8.ofNat banks.work }

/-- A memory by its places. -/
def load (bus : Bus) : Memory → Nat → UInt8
  | .video => bus.videoRam.read
  | .work => bus.workRam.read
  | .object => bus.objectRam.read
  | .high => bus.highRam.read

/-- The memory and the place in it that the bus looks up for an address. -/
def lookup? (bus : Bus) (address : UInt16) : Option (Memory × Nat) :=
  match Region.ofAddress address with
  | .videoRam => some (.video, bus.videoCell address)
  | .workRam => some (.work, (address - 0xc000).toNat)
  | .bankedWorkRam => some (.work, bus.workCell address)
  | .objectRam => some (.object, (address - 0xfe00).toNat)
  | .highRam => some (.high, pageCell address)
  | _ => none

/-! ## Places behind addresses -/

theorem workCell_eq (bus : Bus) (address : UInt16) :
    bus.workCell address = bus.workBank.toNat * 0x1000 + address.toNat % 0x1000 := by
  have offset : (address &&& 0x0fff).toNat = address.toNat % 0x1000 :=
    word_toNat_and_mask address 12 rfl
  rw [workCell, offset]

theorem toNat_sub_base {base : UInt16} (above : base.toNat ≤ address.toNat) :
    (address - base).toNat = address.toNat - base.toNat :=
  UInt16.toNat_sub_of_le _ _ (UInt16.le_iff_toNat_le.mpr above)

/-- What is looked up is the cell behind the address. -/
theorem lookup?_eq (bus : Bus) (address : UInt16) :
    bus.lookup? address =
      (Cell.at? bus.banks address).map fun cell => (cell.memory, cell.place) := by
  obtain ⟨low, high⟩ := Region.bounds address
  rw [Cell.at?_eq_region]
  unfold lookup?
  cases region : Region.ofAddress address <;> rw [region] at low high <;>
    simp only [Region.first, Region.last] at low high <;>
    simp only [Option.map_some, Option.map_none, Option.some.injEq, Prod.mk.injEq, true_and,
      Cell.place, banks]
  case videoRam =>
    rw [videoCell_eq]
    omega
  case workRam =>
    have offset : (address - 0xc000).toNat = address.toNat - 0xc000 := toNat_sub_base low
    rw [offset]
    omega
  case bankedWorkRam =>
    rw [workCell_eq]
    omega
  case objectRam => exact toNat_sub_base low
  case highRam =>
    rw [pageCell_eq]
    omega

theorem read_of_lookup? {memory : Memory} {place : Nat}
    (behind : bus.lookup? address = some (memory, place)) :
    bus.read address = bus.load memory place := by
  unfold lookup? at behind
  unfold read
  cases region : Region.ofAddress address <;> rw [region] at behind <;> cases behind <;> rfl

/-- Of the ports only those that start a copy reach the memories. -/
theorem load_writeIo (bus : Bus) (value : UInt8) (objects : address ≠ 0xff46)
    (blocks : address ≠ 0xff55) : (bus.writeIo address value).load = bus.load := by
  unfold writeIo
  cases device : IoRegister.ofAddress address <;> dsimp only
  case objectCopy => exact absurd ((IoRegister.ofAddress_eq_iff rfl).mp device) objects
  case copyControl => exact absurd ((IoRegister.ofAddress_eq_iff rfl).mp device) blocks
  case serialControl =>
    obtain ⟨io, sent, interrupts, shifted⟩ := (bus.setIo serialControl value).sendSerial_frame
    rw [shifted]
    split <;> rfl
  case speed | videoBank | workBank | backgroundIndex | backgroundData | objectIndex | objectData =>
    split <;> rfl
  all_goals rfl

/-- Without a place behind the address, only the two copies could reach a memory. -/
theorem load_write_of_none (bus : Bus) (value : UInt8) (nothing : bus.lookup? address = none)
    (objects : address ≠ 0xff46) (blocks : address ≠ 0xff55) :
    (bus.write address value).load = bus.load := by
  unfold lookup? at nothing
  unfold write
  cases region : Region.ofAddress address <;> rw [region] at nothing <;> cases nothing
  case io => exact bus.load_writeIo value objects blocks
  all_goals rfl

variable {memory other : Memory} {place : Nat}

/-- In the memory that the address falls in, the place changes and no other. -/
theorem load_write_same (bus : Bus) (value : UInt8)
    (behind : bus.lookup? address = some (memory, place)) (inside : memory.holds place)
    (elsewhere : Nat) :
    (bus.write address value).load memory elsewhere =
      if place = elsewhere then value else bus.load memory elsewhere := by
  unfold lookup? at behind
  unfold write
  cases region : Region.ofAddress address <;> rw [region] at behind <;> cases behind <;>
    exact Block.read_write _ value inside elsewhere

theorem load_write_other (bus : Bus) (value : UInt8)
    (behind : bus.lookup? address = some (memory, place)) (apart : memory ≠ other) :
    (bus.write address value).load other = bus.load other := by
  unfold lookup? at behind
  unfold write
  cases region : Region.ofAddress address <;> rw [region] at behind <;> cases behind <;>
    cases other <;> first | rfl | exact absurd rfl apart

/-! ## Cells under a store -/

/-- The byte that a cell holds, whether it shows or not. -/
def content (bus : Bus) (cell : Cell) : UInt8 := bus.load cell.memory cell.place

theorem read_eq_content (behind : Cell.at? bus.banks address = some cell) :
    bus.read address = bus.content cell := by
  apply read_of_lookup?
  rw [lookup?_eq, behind]
  rfl

/-- A store changes the cell behind its address and no other. -/
theorem content_write (exist : bus.banks.Exist) (present : cell.Exists) (value : UInt8)
    (objects : address ≠ 0xff46) (blocks : address ≠ 0xff55) :
    (bus.write address value).content cell =
      if Cell.at? bus.banks address = some cell then value else bus.content cell := by
  have looked := bus.lookup?_eq address
  unfold content
  cases behind : Cell.at? bus.banks address with
  | none =>
    rw [behind] at looked
    rw [bus.load_write_of_none value looked objects blocks, if_neg nofun]
  | some target =>
    rw [behind] at looked
    have target_present := Cell.exists_of_at? exist behind
    by_cases memory : target.memory = cell.memory
    · rw [← memory, bus.load_write_same value looked target_present.holds_place]
      by_cases place : target.place = cell.place
      · rw [if_pos place, if_pos (congrArg some
          (Cell.place_injective target_present present memory place))]
      · rw [if_neg place, if_neg]
        rintro same
        cases same
        exact place rfl
    · rw [bus.load_write_other value looked memory, if_neg]
      rintro same
      cases same
      exact memory rfl

/-! ## Banks under a store -/

theorem toNat_workBankOf (value : UInt8) : (workBankOf value).toNat = max 1 (value.toNat % 8) := by
  have bits : (value &&& 0x07).toNat = value.toNat % 8 := byte_toNat_and_mask value 3 rfl
  rw [← bits]
  exact toNat_nonzeroBank (value &&& 0x07)

/-- The invariant of every reachable bus gives banks that are there. -/
theorem exist_of_fits {color : Bool} (fits : bus.selection.Fits color) : bus.banks.Exist where
  video := Nat.lt_succ_of_le fits.videoBank
  work := ⟨fits.workBank.1, Nat.lt_succ_of_le fits.workBank.2⟩

/-- The step of `selection_stores`: one store more in the history. -/
theorem banks_write {start : Banks} {earlier : List (UInt16 × UInt8)} (value : UInt8)
    (idle : bus.copyActive = false)
    (now : bus.banks = start.after bus.color earlier) :
    (bus.write address value).banks = start.after bus.color ((address, value) :: earlier) := by
  have chosen := bus.selection_write address value
  have videoBank : (bus.write address value).videoBank = _ := congrArg Selection.videoBank chosen
  have workBank : (bus.write address value).workBank = _ := congrArg Selection.workBank chosen
  rw [banks, videoBank, workBank]
  cases color : bus.color with
  | false =>
    rw [bus.selection.store_of_monochrome value color]
    rw [color] at now
    exact now
  | true =>
    have odd : (value &&& 0x01).toNat = value.toNat % 2 := byte_toNat_and_mask value 1 rfl
    obtain ⟨video, work⟩ := bus.selection.banks_store value address color idle
    rw [color] at now
    rw [Banks.after_cons, ← now, video, work]
    simp only [apply_ite UInt8.toNat, odd, toNat_workBankOf]
    rfl

/-! ## Cells under any stores -/

theorem stores_reverse_cons (bus : Bus) (byte : UInt16 × UInt8)
    (earlier : List (UInt16 × UInt8)) :
    bus.stores (byte :: earlier).reverse = (bus.stores earlier.reverse).write byte.1 byte.2 := by
  simp [stores]

theorem banks_after_nil {color : Bool} (fits : bus.selection.Fits color) :
    bus.banks = bus.banks.after color [] := by
  cases color with
  | true => rfl
  | false =>
    obtain ⟨video, work, _⟩ := fits.monochrome rfl
    have videoBank : bus.videoBank = 0 := video
    have workBank : bus.workBank = 1 := work
    rw [banks, videoBank, workBank]
    rfl

/-- No store of the two copies, of which the first would overwrite object RAM and the second
video RAM. -/
def Plain (history : List (UInt16 × UInt8)) : Prop :=
  ∀ byte ∈ history, byte.1 ≠ 0xff46 ∧ byte.1 ≠ 0xff55

theorem Plain.tail {byte : UInt16 × UInt8} {earlier : List (UInt16 × UInt8)}
    (plain : Plain (byte :: earlier)) : Plain earlier :=
  fun other member => plain other (List.mem_cons_of_mem byte member)

/-- The run of the banks: after any history without a copy the selections fit and the banks are
those of the history. -/
theorem selection_stores {color : Bool} (fits : bus.selection.Fits color)
    (idle : bus.copyActive = false) {history : List (UInt16 × UInt8)} (plain : Plain history) :
    let after := bus.stores history.reverse
    after.selection.Fits color ∧ after.copyActive = false ∧
      after.banks = bus.banks.after color history := by
  induction history with
  | nil => exact ⟨fits, idle, banks_after_nil fits⟩
  | cons byte earlier ih =>
    obtain ⟨fits', idle', banks'⟩ := ih plain.tail
    have chosen := (bus.stores earlier.reverse).selection_write byte.1 byte.2
    have active := Selection.copyActive_store (bus.stores earlier.reverse).selection byte.2
      (plain byte List.mem_cons_self).2
    dsimp only
    rw [stores_reverse_cons]
    refine ⟨?fits, ?idle, ?banks⟩
    case fits =>
      rw [chosen]
      exact fits'.store byte.1 byte.2
    case idle => exact ((congrArg Selection.copyActive chosen).trans active).trans idle'
    case banks =>
      have mode : (bus.stores earlier.reverse).color = color := fits'.mode
      rw [← mode] at banks'
      rw [banks_write byte.2 idle' banks', mode]

/-- The run of the cells: each holds the byte last stored to it, and the byte it held before if
there was none. -/
theorem content_stores {color : Bool} (fits : bus.selection.Fits color)
    (idle : bus.copyActive = false) {history : List (UInt16 × UInt8)} (plain : Plain history)
    (present : cell.Exists) :
    (bus.stores history.reverse).content cell =
      (cell.lastStored? bus.banks color history).getD (bus.content cell) := by
  induction history with
  | nil => rfl
  | cons byte earlier ih =>
    obtain ⟨address, value⟩ := byte
    obtain ⟨fits', _, banks'⟩ := selection_stores fits idle plain.tail
    obtain ⟨objects, blocks⟩ := plain (address, value) List.mem_cons_self
    rw [stores_reverse_cons, content_write (exist_of_fits fits') present value objects blocks,
      banks', Cell.lastStored?]
    split
    · rfl
    · exact ih plain.tail

theorem banks_showing (bus : Bus) {banks : Banks} (exist : banks.Exist) :
    (bus.showing banks).banks = banks := by
  obtain ⟨video, work⟩ := exist
  simp only [Bus.banks, showing, UInt8.toNat_ofNat']
  rw [Nat.mod_eq_of_lt (by omega), Nat.mod_eq_of_lt (by omega)]

/-- Echo and the unusable page read as ones whatever is stored there. -/
theorem read_without_device (bus : Bus)
    (outside : (0xe000 ≤ address.toNat ∧ address.toNat < 0xfe00) ∨
      (0xfea0 ≤ address.toNat ∧ address.toNat < 0xff00)) : bus.read address = 0xff := by
  obtain ⟨low, high⟩ := Region.bounds address
  unfold read
  cases region : Region.ofAddress address <;> rw [region] at low high <;>
    simp only [Region.first, Region.last] at low high <;> first | rfl | omega

/-- The bus keeps the cells of its memories apart, on a machine of either mode after whatever has
happened to it, unless a copy of one block per line is in progress. Then, whatever is stored from
there on except to start a copy, `history` being the stores with the latest first:
`banks`: the banks that show are those last stored to their registers;
`cells`: an address reads as the byte last stored to its cell, or as it would have read before the
stores with the same banks showing;
`fixed`: the cells of the fixed window of work RAM are never those of the other window;
`elsewhere`: a store to an address without a cell changes no memory;
`nowhere`: addresses without a device read as ones. -/
theorem cells_kept_apart (cartridge : Cartridge) (color : Bool) (events : List Rig.Event)
    (history : List (UInt16 × UInt8))
    (idle : ((Rig.powerOn cartridge color).handleAll events).machine.bus.copyActive = false)
    (plain : ∀ byte ∈ history, byte.1 ≠ 0xff46 ∧ byte.1 ≠ 0xff55) :
    let bus := ((Rig.powerOn cartridge color).handleAll events).machine.bus
    let after := bus.stores history.reverse
    let shown (moment : List (UInt16 × UInt8)) : Banks := bus.banks.after color moment
    after.banks = shown history ∧
      (∀ address cell, Cell.at? (shown history) address = some cell →
        after.read address = (cell.lastStored? bus.banks color history).getD
          ((bus.showing (shown history)).read address)) ∧
      (∀ moment moment' (address other : UInt16),
        0xc000 ≤ address.toNat ∧ address.toNat < 0xd000 →
        0xd000 ≤ other.toNat ∧ other.toNat < 0xe000 →
        Cell.at? (shown moment) address ≠ Cell.at? (shown moment') other) ∧
      (∀ address value, Cell.at? (shown history) address = none → address ≠ 0xff46 →
        address ≠ 0xff55 →
        (after.write address value).videoRam = after.videoRam ∧
          (after.write address value).workRam = after.workRam ∧
          (after.write address value).objectRam = after.objectRam ∧
          (after.write address value).highRam = after.highRam) ∧
      ∀ address : UInt16, (0xe000 ≤ address.toNat ∧ address.toNat < 0xfe00) ∨
        (0xfea0 ≤ address.toNat ∧ address.toNat < 0xff00) → after.read address = 0xff := by
  intro bus after shown
  have fits : bus.selection.Fits color := Rig.fits_handleAll cartridge color events
  have exist (moment : List (UInt16 × UInt8)) : (shown moment).Exist :=
    (exist_of_fits fits).after color moment
  obtain ⟨_, _, banks⟩ := selection_stores fits idle plain
  refine ⟨banks, ?cells, ?fixed, ?elsewhere, fun _ outside => after.read_without_device outside⟩
  case cells =>
    intro address cell behind
    have here : Cell.at? after.banks address = some cell := banks ▸ behind
    have before : Cell.at? (bus.showing (shown history)).banks address = some cell := by
      rw [banks_showing bus (exist history)]
      exact behind
    rw [read_eq_content here, read_eq_content before]
    exact content_stores fits idle plain (Cell.exists_of_at? (exist history) behind)
  case fixed =>
    intro moment moment' address other inFixed inBanked same
    have chosen := (exist moment').work
    have left : Cell.at? (shown moment) address = some ⟨.work, 0, address.toNat - 0xc000⟩ := by
      unfold Cell.at?
      dsimp only
      rw [if_neg (by omega), if_pos inFixed]
    have right : Cell.at? (shown moment') other =
        some ⟨.work, (shown moment').work, other.toNat - 0xd000⟩ := by
      unfold Cell.at?
      dsimp only
      rw [if_neg (by omega), if_neg (by omega), if_pos inBanked]
    rw [left, right] at same
    have bank : 0 = (shown moment').work := congrArg Cell.bank (Option.some.inj same)
    omega
  case elsewhere =>
    intro address value nothing objects blocks
    have looked : after.lookup? address = none := by
      rw [lookup?_eq, banks, nothing]
      rfl
    have kept := after.load_write_of_none value looked objects blocks
    refine ⟨?_, ?_, ?_, ?_⟩ <;> refine Block.ext_read fun place _ => ?_
    · exact congrFun (congrFun kept .video) place
    · exact congrFun (congrFun kept .work) place
    · exact congrFun (congrFun kept .object) place
    · exact congrFun (congrFun kept .high) place

/-- Two banks of work RAM under one address: what was stored to bank 2 shows again once it is
selected again, and the byte stored to bank 1, selected by a zero, is another. -/
theorem cells_kept_apart_two_banks :
    let past : List Rig.Event := [.operate (.write 0xff4f 0x01)]
    let bus := ((Rig.powerOn Rig.leastCartridge true).handleAll past).machine.bus
    let history : List (UInt16 × UInt8) :=
      [(0xff70, 0x02), (0xd005, 0x11), (0xff70, 0x00), (0xd005, 0x22), (0xff70, 0x0a)]
    bus.copyActive = false ∧ (∀ byte ∈ history, byte.1 ≠ 0xff46 ∧ byte.1 ≠ 0xff55) ∧
      bus.banks = ⟨1, 1⟩ ∧ (bus.stores history.reverse).banks = ⟨1, 2⟩ ∧
      (bus.stores history.reverse).read 0xd005 = 0x22 := by
  intro past bus history
  have start : bus.banks = ⟨1, 1⟩ := by decide +kernel
  have idle : bus.copyActive = false := by decide +kernel
  have plain : ∀ byte ∈ history, byte.1 ≠ 0xff46 ∧ byte.1 ≠ 0xff55 := by simp [history]
  obtain ⟨banks, cells, _⟩ := cells_kept_apart Rig.leastCartridge true past history idle plain
  have shown : (bus.stores history.reverse).banks = bus.banks.after true history := banks
  have stored : Cell.at? (bus.banks.after true history) 0xd005 = some ⟨.work, 2, 5⟩ →
      (bus.stores history.reverse).read 0xd005 =
        (Cell.lastStored? ⟨.work, 2, 5⟩ bus.banks true history).getD _ := cells 0xd005 _
  rw [start] at shown stored
  exact ⟨idle, plain, start, shown.trans (by decide), (stored (by decide)).trans (by decide)⟩

end Bus

end Handheld
