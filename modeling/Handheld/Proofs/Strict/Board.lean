import Handheld.Cartridge
import Handheld.Proofs.Strict.Store

/-!
# Cartridges without a step out of range

The image may have any length from a header on, and the RAM any of five sizes. Whatever bank a
controller selects, every cell that a board looks up is there. `Controller.Sound` gives the width of
each banking register; no write leaves it.
-/
namespace Handheld

namespace Controller

/-- Every banking register is as wide as it is on the board. -/
def Sound : Controller → Prop
  | fixed => True
  | mbc1 mbc => 1 ≤ mbc.lowBank ∧ mbc.lowBank ≤ 0x1f ∧ mbc.highBank ≤ 0x03
  | mbc3 mbc => 1 ≤ mbc.romBank ∧ mbc.romBank ≤ 0x7f ∧ mbc.select ≤ 0x0f
  | mbc5 mbc => mbc.romBank ≤ 0x1ff ∧ mbc.ramBank ≤ 0x0f

/-- The cell at `offset` within a bank. -/
def bankCell? (size bankSize bank offset : Nat) : Option Nat := do
  let wrapped ← remainder? bank (max 1 (size / bankSize))
  let first ← product? 64 wrapped bankSize
  sum? 64 first offset

/-- The cell of the image behind an address. The sizes of banks and the offset in one are products
and sums that must fit. -/
def romCell? (controller : Controller) (size : Nat) (address : UInt16) : Option Nat :=
  let offset : UInt16 := address &&& 0x3fff
  let cellOf? (bank : Nat) : Option Nat := bankCell? size 0x4000 bank offset.toNat
  match controller with
  | fixed => some address.toNat
  | mbc1 mbc => cellOf? (if address < 0x4000 then mbc.lowerBank else mbc.upperBank)
  | mbc3 mbc => cellOf? (if address < 0x4000 then 0 else mbc.romBank.toNat)
  | mbc5 mbc => cellOf? (if address < 0x4000 then 0 else mbc.romBank.toNat)

/-- The RAM cell behind an address, or that there is none. -/
def ramCell? (size bank : Nat) (address : UInt16) : Option (Option Nat) :=
  if size = 0 then some none
  else do
    let offset : UInt16 := address &&& 0x1fff
    let cell ← bankCell? size 0x2000 bank offset.toNat
    some (if cell < size then some cell else none)

/-- What stands at the addresses of cartridge RAM. The number of a clock register is a difference,
which must not go below zero. -/
def window? (controller : Controller) : Option Window :=
  match controller with
  | mbc3 mbc =>
    if mbc.ramOpen && 8 ≤ mbc.select && mbc.select ≤ 12 then do
      let register ← byteDifference? mbc.select 8
      some (.clock register.toNat)
    else some controller.window
  | _ => some controller.window

/-- The register must be one of the five that were latched. -/
def readClock? (controller : Controller) (register : Nat) : Option UInt8 :=
  match controller with
  | mbc3 mbc => mbc.latched.read? register
  | _ => some 0xff

/-- The register must be one of the five. -/
def writeClock? (controller : Controller) (register : Nat) (value : UInt8) : Option Controller :=
  match controller with
  | mbc3 mbc => do
    let clock ← mbc.clock.write? register value
    some (.mbc3 { mbc with clock })
  | other => some other

/-- Banks are few enough for their cells to be numbered by a machine word. -/
theorem bankCell?_eq (size : Nat) {bankSize bank offset : Nat} (banks : bank < 2 ^ 16)
    (narrow : bankSize ≤ 2 ^ 16) (within : offset < 2 ^ 16) :
    bankCell? size bankSize bank offset =
      some (wrapBank size bankSize bank * bankSize + offset) := by
  have positive : max 1 (size / bankSize) ≠ 0 := by omega
  have wrapped : bank % max 1 (size / bankSize) ≤ 2 ^ 16 :=
    Nat.le_trans (Nat.mod_le _ _) (Nat.le_of_lt banks)
  have first : bank % max 1 (size / bankSize) * bankSize ≤ 2 ^ 16 * 2 ^ 16 :=
    Nat.mul_le_mul wrapped narrow
  have cell : bank % max 1 (size / bankSize) * bankSize + offset < 2 ^ 64 := by omega
  have base : bank % max 1 (size / bankSize) * bankSize < 2 ^ 64 := by omega
  simp only [bankCell?, remainder?_eq positive, product?_eq base, sum?_eq cell,
    Option.bind_eq_bind, Option.bind_some, wrapBank]

/-- The image may have any length: a bank number is a word, and so its cells have numbers that
fit. -/
theorem romCell?_eq (controller : Controller) (size : Nat) (address : UInt16) :
    controller.romCell? size address = some (controller.romCell size address) := by
  have offset : (address &&& 0x3fff).toNat < 2 ^ 16 := UInt16.toNat_lt _
  cases controller with
  | fixed => rfl
  | mbc1 mbc =>
    have high := mbc.highBank.toNat_lt
    have low := mbc.lowBank.toNat_lt
    refine bankCell?_eq size ?_ (by decide) offset
    unfold Mbc1.lowerBank Mbc1.upperBank
    split
    · split <;> omega
    · omega
  | mbc3 mbc =>
    have bank := mbc.romBank.toNat_lt
    refine bankCell?_eq size ?_ (by decide) offset
    split <;> omega
  | mbc5 mbc =>
    have bank := mbc.romBank.toNat_lt
    refine bankCell?_eq size ?_ (by decide) offset
    split <;> omega

/-- A cell that is looked up in RAM is in range; one that is not would lie past its end. -/
theorem ramCell?_eq {size bank : Nat} (address : UInt16) (banks : bank < 2 ^ 16) :
    ramCell? size bank address =
      some
        (if ramCell size bank address < size then some (ramCell size bank address) else none) := by
  have offset : (address &&& 0x1fff).toNat < 2 ^ 16 := UInt16.toNat_lt _
  unfold ramCell?
  split
  · rename_i empty
    simp [empty]
  · have cell := bankCell?_eq size banks (by decide : 0x2000 ≤ 2 ^ 16) offset
    simp only [cell, Option.bind_eq_bind, Option.bind_some]
    rfl

/-- The guard on the selection keeps the difference from going below zero. -/
theorem window?_eq (controller : Controller) : controller.window? = some controller.window := by
  cases controller with
  | mbc3 mbc =>
    dsimp only [window?]
    split
    · rename_i clock
      simp only [Bool.and_eq_true, decide_eq_true_eq] at clock
      obtain ⟨⟨opened, low⟩, high⟩ := clock
      have above : ¬ mbc.select ≤ 3 := by
        rw [UInt8.le_iff_toNat_le] at low ⊢
        intro below
        have crossed : (8 : Nat) ≤ 3 := Nat.le_trans low below
        omega
      have taken : (mbc.select - 8).toNat = mbc.select.toNat - 8 := UInt8.toNat_sub_of_le _ _ low
      rw [byteDifference?_eq low, Option.bind_eq_bind, Option.bind_some, taken]
      simp [window, Mbc3.window, opened, above, low, high]
    · rfl
  | _ => rfl

/-- The RAM bank that a window shows is a byte. -/
theorem bank_lt_of_window {controller : Controller} {number : Nat}
    (shown : controller.window = .bank number) : number < 2 ^ 8 := by
  cases controller with
  | fixed =>
    cases shown
    decide
  | mbc1 mbc =>
    have high := mbc.highBank.toNat_lt
    simp only [window, Mbc1.window] at shown
    split at shown
    · cases shown
      split <;> omega
    · cases shown
  | mbc3 mbc =>
    simp only [window, Mbc3.window] at shown
    split at shown
    · split at shown
      · cases shown
        exact mbc.select.toNat_lt
      · split at shown <;> cases shown
    · cases shown
  | mbc5 mbc =>
    simp only [window, Mbc5.window] at shown
    split at shown
    · cases shown
      exact mbc.ramBank.toNat_lt
    · cases shown

/-- A clock register that a window shows is one of five. -/
theorem register_lt_of_window {controller : Controller} {register : Nat}
    (shown : controller.window = .clock register) : register < 5 := by
  cases controller with
  | fixed => cases shown
  | mbc1 mbc =>
    simp only [window, Mbc1.window] at shown
    split at shown <;> cases shown
  | mbc3 mbc =>
    simp only [window, Mbc3.window] at shown
    split at shown
    · split at shown
      · cases shown
      · split at shown
        · rename_i clock
          cases shown
          have top : mbc.select.toNat ≤ 12 := clock.2
          omega
        · cases shown
    · cases shown
  | mbc5 mbc =>
    simp only [window, Mbc5.window] at shown
    split at shown <;> cases shown

theorem readClock?_eq (controller : Controller) {register : Nat} (few : register < 5) :
    controller.readClock? register = some (controller.readClock register) := by
  cases controller with
  | mbc3 mbc => exact mbc.latched.read?_eq few
  | _ => rfl

theorem writeClock?_eq (controller : Controller) {register : Nat} (value : UInt8)
    (few : register < 5) :
    controller.writeClock? register value = some (controller.writeClock register value) := by
  cases controller with
  | mbc3 mbc =>
    dsimp only [writeClock?]
    rw [mbc.clock.write?_eq value few]
    rfl
  | _ => rfl

/-! No write takes a banking register out of its width. -/

theorem nonzeroBank_bounds (value : UInt8) {mask : UInt8} (mask_pos : 1 ≤ mask) :
    1 ≤ nonzeroBank (value &&& mask) ∧ nonzeroBank (value &&& mask) ≤ mask := by
  have kept := toNat_and_le_right value mask
  unfold nonzeroBank
  split
  · exact ⟨UInt8.le_refl 1, mask_pos⟩
  · rename_i nonzero
    refine ⟨?_, kept⟩
    rw [UInt8.le_iff_toNat_le]
    have positive : (value &&& mask).toNat ≠ 0 := fun zero => nonzero (UInt8.toNat_inj.mp zero)
    exact Nat.one_le_iff_ne_zero.mpr positive

/-- The bank of the largest controller is made of eight low bits and one high bit. -/
theorem or_le_nineBits {left right : UInt16} (first : left.toNat < 2 ^ 9)
    (second : right.toNat < 2 ^ 9) : left ||| right ≤ 0x1ff := by
  rw [UInt16.le_iff_toNat_le, UInt16.toNat_or]
  exact Nat.le_of_lt_succ (Nat.or_lt_two_pow first second)

theorem sound_ofCode? {code : UInt8} {controller : Controller}
    (known : ofCode? code = some controller) : controller.Sound := by
  unfold ofCode? at known
  split at known
  · cases known
    trivial
  · split at known
    · cases known
      exact ⟨by decide, by decide, by decide⟩
    · split at known
      · cases known
        exact ⟨by decide, by decide, by decide⟩
      · split at known
        · cases known
          exact ⟨by decide, by decide⟩
        · cases known

/-- Each controller masks what it stores, so a write to the image keeps its banking registers in
range. -/
theorem Sound.control {controller : Controller} (sound : controller.Sound) (address : UInt16)
    (value : UInt8) : (controller.control address value).Sound := by
  cases controller with
  | fixed => trivial
  | mbc1 mbc =>
    obtain ⟨low, top, high⟩ := sound
    simp only [Controller.control, Mbc1.control]
    split
    · exact ⟨low, top, high⟩
    · split
      · obtain ⟨low, top⟩ := nonzeroBank_bounds value (by decide : (1 : UInt8) ≤ 0x1f)
        exact ⟨low, top, high⟩
      · split
        · exact ⟨low, top, toNat_and_le_right value 0x03⟩
        · split <;> exact ⟨low, top, high⟩
  | mbc3 mbc =>
    obtain ⟨low, top, select⟩ := sound
    simp only [Controller.control, Mbc3.control]
    split
    · exact ⟨low, top, select⟩
    · split
      · obtain ⟨low, top⟩ := nonzeroBank_bounds value (by decide : (1 : UInt8) ≤ 0x7f)
        exact ⟨low, top, select⟩
      · split
        · exact ⟨low, top, toNat_and_le_right value 0x0f⟩
        · split <;> exact ⟨low, top, select⟩
  | mbc5 mbc =>
    obtain ⟨rom, ram⟩ := sound
    simp only [Controller.control, Mbc5.control]
    split
    · exact ⟨rom, ram⟩
    · split
      · have high : (mbc.romBank &&& 0x100).toNat ≤ 0x100 := word_toNat_and_le_right _ _
        have low : value.toUInt16.toNat < 2 ^ 8 := by simpa using value.toNat_lt
        exact ⟨or_le_nineBits (by omega) (by omega), ram⟩
      · split
        · have low : (mbc.romBank &&& 0xff).toNat ≤ 0xff := word_toNat_and_le_right _ _
          refine ⟨or_le_nineBits (by omega) ?_, ram⟩
          split <;> decide
        · split
          · exact ⟨rom, toNat_and_le_right value 0x0f⟩
          · exact ⟨rom, ram⟩

/-- The registers of the clock select nothing, so that any byte may be put there. -/
theorem Sound.writeClock {controller : Controller} (sound : controller.Sound) (register : Nat)
    (value : UInt8) : (controller.writeClock register value).Sound := by
  cases controller <;> exact sound

end Controller

namespace Board

/-- A read of cartridge RAM. The cell that the window gives must exist, past the RAM as within
it. -/
def readRam? (board : Board) (address : UInt16) : Option UInt8 := do
  match ← board.controller.window? with
  | .closed => some 0xff
  | .bank number =>
    match ← Controller.ramCell? board.ram.size number address with
    | some cell => board.ram.read? cell
    | none => some 0xff
  | .clock register => board.controller.readClock? register

/-- A read through the board. A cell of the image may lie past its end, where the image answers with
ones by itself; cells of RAM must exist. -/
def read? (board : Board) (address : UInt16) : Option UInt8 :=
  if address < 0x8000 then do
    let cell ← board.controller.romCell? board.rom.size address
    some (board.rom.read cell)
  else if 0xa000 ≤ address ∧ address < 0xc000 then board.readRam? address
  else some 0xff

/-- A write of cartridge RAM, to a cell that must exist or to a register of the clock. -/
def writeRam? (board : Board) (address : UInt16) (value : UInt8) : Option Board := do
  match ← board.controller.window? with
  | .closed => some board
  | .bank number =>
    match ← Controller.ramCell? board.ram.size number address with
    | some cell =>
      let ram ← board.ram.write? cell value
      some { board with ram }
    | none => some board
  | .clock register =>
    let controller ← board.controller.writeClock? register value
    some { board with controller }

/-- Copies as many bytes as both the saved RAM and the fitted one have. -/
def loadRam? (board : Board) (saved : Bytes) : Option Board := do
  let count := min board.ram.size saved.size
  let copied ← saved.slice? 0 count
  let kept ← board.ram.slice? count board.ram.size
  some { board with ram := copied ++ kept }

/-- Whatever the controller selects: a bank that is larger than the RAM gives no cell at all, and
the read answers with ones. -/
theorem readRam?_eq (board : Board) (address : UInt16) :
    board.readRam? address = some (board.readRam address) := by
  simp only [readRam?, readRam, board.controller.window?_eq, Option.bind_eq_bind, Option.bind_some]
  cases shown : board.controller.window with
  | closed => rfl
  | bank number =>
    have few : number < 2 ^ 16 := Nat.lt_trans (Controller.bank_lt_of_window shown) (by decide)
    simp only [Controller.ramCell?_eq address few, Option.bind_some]
    by_cases inside : Controller.ramCell board.ram.size number address < board.ram.size
    · rw [if_pos inside]
      exact board.ram.read?_eq inside
    · rw [if_neg inside, Bytes.read_outside _ (Nat.not_lt.mp inside)]
  | clock register => exact board.controller.readClock?_eq (Controller.register_lt_of_window shown)

/-- No hypothesis about the board is needed; it may be one that no image made. -/
theorem read?_eq (board : Board) (address : UInt16) :
    board.read? address = some (board.read address) := by
  unfold read? read
  split
  · simp only [board.controller.romCell?_eq, Option.bind_eq_bind, Option.bind_some]
  · split
    · exact board.readRam?_eq address
    · rfl

theorem writeRam?_eq (board : Board) (address : UInt16) (value : UInt8) :
    board.writeRam? address value = some (board.writeRam address value) := by
  simp only [writeRam?, writeRam, board.controller.window?_eq, Option.bind_eq_bind,
    Option.bind_some]
  cases shown : board.controller.window with
  | closed => rfl
  | bank number =>
    have few : number < 2 ^ 16 := Nat.lt_trans (Controller.bank_lt_of_window shown) (by decide)
    simp only [Controller.ramCell?_eq address few, Option.bind_some]
    by_cases inside : Controller.ramCell board.ram.size number address < board.ram.size
    · rw [if_pos inside]
      simp only [board.ram.write?_eq value inside, Option.bind_some]
    · rw [if_neg inside]
      simp [Bytes.write, inside]
  | clock register =>
    have few := Controller.register_lt_of_window shown
    simp only [board.controller.writeClock?_eq value few, Option.bind_some]

theorem loadRam?_eq (board : Board) (saved : Bytes) :
    board.loadRam? saved = some (board.loadRam saved) := by
  have copied := saved.slice?_eq (Nat.zero_le (min board.ram.size saved.size))
    (Nat.min_le_right board.ram.size saved.size)
  have kept := board.ram.slice?_eq (Nat.min_le_left board.ram.size saved.size)
    (Nat.le_refl board.ram.size)
  simp only [loadRam?, copied, kept, Option.bind_eq_bind, Option.bind_some, loadRam]
  rcases Nat.le_total board.ram.size saved.size with short | long
  · rw [Nat.min_eq_left short]
    simp [Array.extract_eq_empty_of_le, short]
  · rw [Nat.min_eq_right long]
    have whole : Array.extract saved 0 board.ram.size = saved := by
      simp [Array.extract_eq_self_of_le, long]
    rw [whole]
    simp

end Board

/-- The header of an image, byte by byte. -/
def Header.inspect? (image : Bytes) : Option Header := do
  let _ ← image.slice? 0x134 0x143
  let color ← image.read? 0x143
  let boardCode ← image.read? 0x147
  let ramCode ← image.read? 0x149
  some { title := titleOf image, color := colorOf color, boardCode, ramCode }

theorem Header.inspect?_eq {image : Bytes} {header : Header}
    (found : ofImage? image = some header) : inspect? image = some header := by
  unfold ofImage? at found
  split at found
  · cases found
  · rename_i large
    rw [← found]
    have size : 0x150 ≤ Array.size image := Nat.not_lt.mp large
    have title := image.slice?_eq (by decide : 0x134 ≤ 0x143) (by omega)
    have color := image.read?_eq (by omega : 0x143 < Array.size image)
    have boardCode := image.read?_eq (by omega : 0x147 < Array.size image)
    have ramCode := image.read?_eq (by omega : 0x149 < Array.size image)
    simp only [inspect?, title, color, boardCode, ramCode, Option.bind_eq_bind, Option.bind_some]

theorem Cartridge.of_load {image : Bytes} {cartridge : Cartridge}
    (loaded : load image = .ok cartridge) :
    Header.ofImage? image = some cartridge.header ∧ cartridge.board.controller.Sound := by
  unfold load at loaded
  split at loaded
  · rename_i header found
    unfold assemble at loaded
    split at loaded
    · rename_i controller known
      cases loaded
      exact ⟨found, Controller.sound_ofCode? known⟩
    · cases loaded
  · cases loaded

end Handheld
