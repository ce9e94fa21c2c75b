import Handheld.Bus.PowerOn
import Handheld.Proofs.Bus.Frame
import Handheld.Proofs.Strict.Read

/-!
# Writing the bus without a step out of range

A write may set off a copy, a serial transfer or a change of bank. All of it is repeated here with
cells that must exist and sums that must fit. No write leaves `Bus.Sound`, so the next one is in
range too.
-/
namespace Handheld.Bus

/-! ## The strict writes -/

/-- A store in the page of ports, whose cell must be one of its 128. -/
def setIo? (bus : Bus) (cell : Nat) (value : UInt8) : Option Bus := do
  let io ← bus.io.write? cell value
  some { bus with io }

/-- A store in the bank of video RAM that is selected, at a cell that the bank must have. -/
def writeVideo? (bus : Bus) (address : UInt16) (value : UInt8) : Option Bus := do
  let cell ← bus.videoCell? address
  let videoRam ← bus.videoRam.write? cell value
  some { bus with videoRam }

/-- The copy of the first `count` object cells, byte by byte: each address must be readable and each
cell must exist. -/
def copyObjectCells? (bus : Bus) (source : UInt16) : Nat → Option Bus
  | 0 => some bus
  | count + 1 => do
    let bus ← bus.copyObjectCells? source count
    let value ← bus.read? (source + UInt16.ofNat count)
    let objectRam ← bus.objectRam.write? count value
    some { bus with objectRam }

/-- The loop of a block copy. The target is counted on as a word that must not wrap before it is
taken into the bank. -/
def copyVideo? (bus : Bus) (source target : UInt16) : Nat → Option Bus
  | 0 => some bus
  | count + 1 => do
    let value ← bus.read? source
    let bus ← bus.writeVideo? target value
    let next ← wordSum? target 1
    bus.copyVideo? (source + 1) (next &&& 0x1fff) count

/-- A source or target, from the two port cells that hold its halves. -/
def ioWord? (bus : Bus) (high low : Nat) : Option UInt16 := do
  let high ← bus.io.read? high
  let low ← bus.io.read? low
  some (word high low)

/-- A copy of `count` blocks. The length is a product that must fit in a word; the addresses behind
the last byte wrap by design. -/
def copyBlocks? (bus : Bus) (count : Nat) : Option Bus := do
  let source ← bus.ioWord? copySourceHigh copySourceLow
  let target ← bus.ioWord? copyTargetHigh copyTargetLow
  let source := source &&& 0xfff0
  let target := target &&& 0x1ff0
  let length ← product? 16 16 count
  let sourceEnd := source + UInt16.ofNat length
  let targetEnd := (target + UInt16.ofNat length) &&& 0x1fff
  let bus ← bus.copyVideo? source target length
  let bus ← bus.setIo? copySourceHigh (highByte sourceEnd)
  let bus ← bus.setIo? copySourceLow (lowByte sourceEnd)
  let bus ← bus.setIo? copyTargetHigh (highByte targetEnd)
  bus.setIo? copyTargetLow (lowByte targetEnd)

/-- A write of the copy's control: it ends a copy that is going on, or begins one. The number of
blocks is logged even where nothing else counts it, so its sum is taken in every branch. -/
def controlCopy? (bus : Bus) (value : UInt8) : Option Bus :=
  if value &&& 0x80 = 0 then
    if bus.copyActive then do
      let shown ← bus.io.read? copyControl
      let _ ← byteSum? (shown &&& 0x7f) 1
      ({ bus with copyActive := false }).setIo? copyControl (shown ||| 0x80)
    else do
      let blocks ← sum? 16 (value &&& 0x7f).toNat 1
      let bus ← bus.copyBlocks? blocks
      bus.setIo? copyControl 0xff
  else do
    let _ ← byteSum? (value &&& 0x7f) 1
    ({ bus with copyActive := true }).setIo? copyControl (value &&& 0x7f)

/-- What one line of the picture owes an active copy: a block, and then one fewer in the count,
which may not be zero when it is taken down. -/
def copyLineBlock? (bus : Bus) : Option Bus :=
  if bus.copyActive then do
    let bus ← bus.copyBlocks? 1
    let shown ← bus.io.read? copyControl
    if shown &&& 0x7f = 0 then ({ bus with copyActive := false }).setIo? copyControl 0xff
    else do
      let left ← byteDifference? (shown &&& 0x7f) 1
      bus.setIo? copyControl left
  else
    some bus

/-- The byte in the serial register goes out, and the register reads as ones. -/
def sendSerial? (bus : Bus) : Option Bus := do
  let byte ← bus.io.read? serialData
  let control ← bus.io.read? serialControl
  let bus ← ({ bus with sent := bus.sent.push byte }).setIo? serialData 0xff
  let bus ← bus.setIo? serialControl (control &&& 0x7f)
  some (bus.request .serial)

/-- The registers that look up a cell or count. The others cannot leave a range. -/
def writeIo? (bus : Bus) (address : UInt16) (value : UInt8) : Option Bus :=
  match IoRegister.ofAddress address with
  | .serialControl => do
    let bus ← bus.setIo? serialControl value
    if value &&& 0x81 = 0x81 then bus.sendSerial? else some bus
  | .lcdStatus => do
    let shown ← bus.io.read? lcdStatus
    bus.setIo? lcdStatus (0x80 ||| (value &&& 0x78) ||| (shown &&& 0x07))
  | .line => bus.setIo? line 0
  | .objectCopy => do
    let bus ← bus.setIo? objectSource value
    bus.copyObjectCells? (word value 0) 0xa0
  | .copyControl =>
    if bus.color then bus.controlCopy? value else bus.setIo? (pageCell address) value
  | .backgroundIndex =>
    if bus.color then some { bus with background := bus.background.writeIndex value }
    else bus.setIo? (pageCell address) value
  | .backgroundData =>
    if bus.color then do
      let background ← bus.background.writeData? value
      some { bus with background }
    else bus.setIo? (pageCell address) value
  | .objectIndex =>
    if bus.color then some { bus with objects := bus.objects.writeIndex value }
    else bus.setIo? (pageCell address) value
  | .objectData =>
    if bus.color then do
      let objects ← bus.objects.writeData? value
      some { bus with objects }
    else bus.setIo? (pageCell address) value
  | .copyAddress | .plain => bus.setIo? (pageCell address) value
  | .joypad | .timer | .requests | .speed | .videoBank | .workBank =>
    some (bus.writeIo address value)

/-- A store through the memory map. Where the region is a plain array the address must not lie
before its start, and the cell must exist. -/
def write? (bus : Bus) (address : UInt16) (value : UInt8) : Option Bus :=
  match Region.ofAddress address with
  | .rom => some (bus.controlBoard address value)
  | .videoRam => bus.writeVideo? address value
  | .cartridgeRam => do
    let board ← bus.cartridge.board.writeRam? address value
    some { bus with cartridge := { bus.cartridge with board } }
  | .workRam => do
    let cell ← wordDifference? address 0xc000
    let workRam ← bus.workRam.write? cell.toNat value
    some { bus with workRam }
  | .bankedWorkRam => do
    let cell ← bus.workCell? address
    let workRam ← bus.workRam.write? cell value
    some { bus with workRam }
  | .objectRam => do
    let cell ← wordDifference? address 0xfe00
    let objectRam ← bus.objectRam.write? cell.toNat value
    some { bus with objectRam }
  | .echo | .unusable => some bus
  | .io => bus.writeIo? address value
  | .highRam => do
    let highRam ← bus.highRam.write? (pageCell address) value
    some { bus with highRam }
  | .interruptEnable => some { bus with interrupts := bus.interrupts.write address value }

/-- The low byte first. The second address may wrap, as that of a push at the bottom does. -/
def writeWord? (bus : Bus) (address : UInt16) (value : UInt16) : Option Bus := do
  let bus ← bus.write? address (lowByte value)
  bus.write? (address + 1) (highByte value)

/-- Bytes at successive addresses, which may wrap. -/
def writeAll? (bus : Bus) (address : UInt16) : List UInt8 → Option Bus
  | [] => some bus
  | value :: rest => do
    let bus ← bus.write? address value
    bus.writeAll? (address + 1) rest

/-- A store that the Lcd makes past the register's own behavior. -/
def storeIo? (bus : Bus) (address : UInt16) (value : UInt8) : Option Bus :=
  if 0xff00 ≤ address ∧ address ≤ 0xff7f then bus.setIo? (pageCell address) value else some bus

/-- The timer's clocks. Its own sums are those that may not fit. -/
def tick? (bus : Bus) (clocks : Nat) : Option Bus := do
  match ← bus.timer.tick? clocks with
  | (true, timer) => some { bus with timer, interrupts := bus.interrupts.request .timer }
  | (false, timer) => some { bus with timer }

/-- Saved RAM put into the cartridge at power-on, cell by cell as far as both reach. -/
def loadRam? (bus : Bus) (saved : Bytes) : Option Bus := do
  let board ← bus.cartridge.board.loadRam? saved
  some { bus with cartridge := { bus.cartridge with board } }

/-- A list of stores, such as those of power-on. -/
def writeEach? (bus : Bus) : List (UInt16 × UInt8) → Option Bus
  | [] => some bus
  | (address, value) :: rest => do
    let bus ← bus.write? address value
    bus.writeEach? rest

/-- Memory at power-on. The writes go through the memory map, the control of the copy past it. -/
def powerOn? (cartridge : Cartridge) (color : Bool) : Option Bus := do
  let blank : Bus := { cartridge, color }
  let started ← blank.writeEach? startupWrites
  started.setIo? copyControl 0xff

/-! ## What the writes keep -/

variable {bus : Bus}

/-- Soundness is about the registers that select a cell, whatever memory holds. -/
theorem Sound.of_same (sound : bus.Sound) {next : Bus}
    (same : (next.videoBank, next.workBank, next.background, next.objects,
        next.cartridge.board.controller, next.timer) =
      (bus.videoBank, bus.workBank, bus.background, bus.objects,
        bus.cartridge.board.controller, bus.timer)) : next.Sound := by
  simp only [Prod.mk.injEq] at same
  obtain ⟨videoBank, workBank, background, objects, controller, timer⟩ := same
  constructor
  · rw [videoBank]
    exact sound.videoBank
  · rw [workBank]
    exact sound.workBank
  · rw [background]
    exact sound.background
  · rw [objects]
    exact sound.objects
  · rw [controller]
    exact sound.controller
  · rw [timer]
    exact sound.timer

theorem Sound.setIo (sound : bus.Sound) (cell : Nat) (value : UInt8) :
    (bus.setIo cell value).Sound := sound.of_same rfl

/-- The copy changes object cells only, none of which selects a bank. -/
theorem Sound.copyObjectCells (sound : bus.Sound) (source : UInt16) (count : Nat) :
    (bus.copyObjectCells source count).Sound := by
  obtain ⟨objectRam, copied⟩ := bus.copyObjectCells_frame source count
  rw [copied]
  exact sound.of_same rfl

theorem Sound.copyLineBlock (sound : bus.Sound) : bus.copyLineBlock.Sound := by
  obtain ⟨videoRam, io, copyActive, copied⟩ := bus.copyLineBlock_frame
  rw [copied]
  exact sound.of_same rfl

/-- The bank that a value selects is never bank 0 and never past the last. So the second half of
working RAM has a cell for every address. -/
theorem workBankOf_bounds (value : UInt8) : 1 ≤ workBankOf value ∧ workBankOf value ≤ 7 :=
  Controller.nonzeroBank_bounds value (by decide : (1 : UInt8) ≤ 7)

/-- The ports of the banks, the palettes and the timer reduce what they store to a selection in
range, and no other port enters into soundness. -/
theorem Sound.writeIo (sound : bus.Sound) (address : UInt16) (value : UInt8) :
    (bus.writeIo address value).Sound := by
  unfold Bus.writeIo
  cases IoRegister.ofAddress address <;> dsimp only
  case serialControl =>
    split
    · obtain ⟨io, sent, interrupts, transferred⟩ :=
        (bus.setIo serialControl value).sendSerial_frame
      rw [transferred]
      exact sound.of_same rfl
    · exact sound.setIo _ _
  case timer => exact { sound with timer := sound.timer.write address value }
  case objectCopy => exact (sound.setIo objectSource value).copyObjectCells (word value 0) 0xa0
  case videoBank =>
    split
    · exact { sound with videoBank := toNat_and_le_right value 0x01 }
    · exact sound
  case workBank =>
    split
    · exact { sound with workBank := workBankOf_bounds value }
    · exact sound
  case copyControl =>
    split
    · obtain ⟨videoRam, io, copyActive, copied⟩ := bus.controlCopy_frame value
      rw [copied]
      exact sound.of_same rfl
    · exact sound.setIo _ _
  case backgroundIndex =>
    split
    · exact { sound with background := bus.background.sound_writeIndex value }
    · exact sound.setIo _ _
  case backgroundData =>
    split
    · exact { sound with background := sound.background.writeData value }
    · exact sound.setIo _ _
  case objectIndex =>
    split
    · exact { sound with objects := bus.objects.sound_writeIndex value }
    · exact sound.setIo _ _
  case objectData =>
    split
    · exact { sound with objects := sound.objects.writeData value }
    · exact sound.setIo _ _
  case speed =>
    split
    · exact sound.of_same rfl
    · exact sound
  all_goals exact sound.of_same rfl

theorem Sound.write (sound : bus.Sound) (address : UInt16) (value : UInt8) :
    (bus.write address value).Sound := by
  unfold Bus.write
  cases Region.ofAddress address <;> dsimp only
  case rom => exact { sound with controller := sound.controller.control address value }
  case cartridgeRam =>
    refine { sound with controller := ?_ }
    simp only [Bus.writeBoardRam, Board.writeRam]
    split
    · exact sound.controller
    · exact sound.controller
    · exact sound.controller.writeClock _ value
  case io => exact sound.writeIo address value
  case echo | unusable => exact sound
  all_goals exact sound.of_same rfl

theorem Sound.tick (sound : bus.Sound) (clocks : Nat) : (bus.tick clocks).Sound := by
  have timer := sound.timer.tick clocks
  unfold Bus.tick
  split
  · rename_i ticked
    rw [ticked] at timer
    exact { sound with timer }
  · rename_i ticked
    rw [ticked] at timer
    exact { sound with timer }

theorem Sound.switchSpeed (sound : bus.Sound) : bus.switchSpeed.2.Sound := by
  unfold Bus.switchSpeed
  split
  · exact { sound with timer := bus.timer.sound_resetDivider }
  · exact sound

/-- A key shows in the port and may ask for an interrupt. Neither selects a cell. -/
theorem Sound.press (sound : bus.Sound) (key : Key) : (bus.press key).Sound := by
  unfold Bus.press
  split <;> exact sound.of_same rfl

theorem Sound.writeAll (sound : bus.Sound) (address : UInt16) (values : List UInt8) :
    (bus.writeAll address values).Sound := by
  induction values generalizing bus address with
  | nil => exact sound
  | cons value rest ih => exact ih (sound.write address value) (address + 1)

theorem Sound.storeIo (sound : bus.Sound) (address : UInt16) (value : UInt8) :
    (bus.storeIo address value).Sound := by
  unfold Bus.storeIo
  split
  · exact sound.setIo _ _
  · exact sound

/-! ## The strict writes succeed -/

/-- The one hypothesis is about the port cell, so that the registers' own stores discharge it by
`decide`. -/
theorem setIo?_eq (bus : Bus) {cell : Nat} (value : UInt8) (inside : cell < 0x80) :
    bus.setIo? cell value = some (bus.setIo cell value) := by
  simp only [setIo?, bus.io.write?_eq value inside, Option.bind_eq_bind, Option.bind_some]
  rfl

/-- A sound bus has its bank of video RAM within the two, so the cell exists for any address. -/
theorem writeVideo?_eq (sound : bus.Sound) (address : UInt16) (value : UInt8) :
    bus.writeVideo? address value = some (bus.writeVideo address value) := by
  simp only [writeVideo?, bus.videoCell?_eq,
    bus.videoRam.write?_eq value (sound.videoCell_lt address), Option.bind_eq_bind,
    Option.bind_some]
  rfl

/-- An object copy never asks for more than the 160 cells there are. -/
theorem copyObjectCells?_eq (sound : bus.Sound) (source : UInt16) {count : Nat}
    (within : count ≤ 0xa0) :
    bus.copyObjectCells? source count = some (bus.copyObjectCells source count) := by
  induction count with
  | zero => rfl
  | succ count ih =>
    have copied := ih (by omega)
    have value := read?_eq (sound.copyObjectCells source count) (source + UInt16.ofNat count)
    have inside : count < 0xa0 := within
    simp only [copyObjectCells?, copied, value, Block.write?_eq _ _ inside, Option.bind_eq_bind,
      Option.bind_some, copyObjectCells_succ]

/-- The target stays within a bank, so going on by one never leaves a word. -/
theorem copyVideo?_eq (sound : bus.Sound) (source : UInt16) {target : UInt16}
    (within : target.toNat ≤ 0x1fff) (count : Nat) :
    bus.copyVideo? source target count = some (bus.copyVideo source target count) := by
  induction count generalizing bus source target with
  | zero => rfl
  | succ count ih =>
    have one : (1 : UInt16).toNat = 1 := rfl
    have fits : target.toNat + (1 : UInt16).toNat < 2 ^ 16 := by omega
    have next := wordSum?_eq fits
    have written : (bus.writeVideo target (bus.read source)).Sound := sound.of_same rfl
    have rest := ih written (source + 1) (word_toNat_and_le_right (target + 1) 0x1fff)
    simp only [copyVideo?, read?_eq sound, writeVideo?_eq sound, next, rest,
      Option.bind_eq_bind, Option.bind_some, copyVideo]

theorem ioWord?_eq (bus : Bus) {high low : Nat} (first : high < 0x80) (second : low < 0x80) :
    bus.ioWord? high low = some (word (bus.io.read high) (bus.io.read low)) := by
  simp only [ioWord?, bus.io.read?_eq first, bus.io.read?_eq second, Option.bind_eq_bind,
    Option.bind_some]

/-- The length is 16 times at most 128, and so fits in a word. -/
theorem copyBlocks?_eq (sound : bus.Sound) {count : Nat} (few : count ≤ 0x80) :
    bus.copyBlocks? count = some (bus.copyBlocks count) := by
  have sourceHigh : copySourceHigh < 0x80 := by decide
  have sourceLow : copySourceLow < 0x80 := by decide
  have targetHigh : copyTargetHigh < 0x80 := by decide
  have targetLow : copyTargetLow < 0x80 := by decide
  have source := bus.ioWord?_eq sourceHigh sourceLow
  have target := bus.ioWord?_eq targetHigh targetLow
  have short : 16 * count < 2 ^ 16 := by omega
  have length := product?_eq short
  have within : bus.copyTarget.toNat ≤ 0x1fff :=
    Nat.le_trans (word_toNat_and_le_right _ 0x1ff0) (by decide)
  have copied := copyVideo?_eq sound bus.copySource within (16 * count)
  unfold copySource copyTarget at copied
  simp only [copyBlocks?, source, target, length, copied, Option.bind_eq_bind, Option.bind_some]
  simp only [setIo?_eq _ _ sourceHigh, setIo?_eq _ _ sourceLow, setIo?_eq _ _ targetHigh,
    setIo?_eq _ _ targetLow, Option.bind_some]
  rfl

/-- The seven bits of the count plus one make 128 at most: neither the logged sum nor the length of
the copy leaves its width. -/
theorem controlCopy?_eq (sound : bus.Sound) (value : UInt8) :
    bus.controlCopy? value = some (bus.controlCopy value) := by
  have inside : copyControl < 0x80 := by decide
  have logged (byte : UInt8) : byteSum? (byte &&& 0x7f) 1 = some ((byte &&& 0x7f) + 1) := by
    have low : (byte &&& 0x7f).toNat ≤ 0x7f := toNat_and_le_right byte 0x7f
    have one : (1 : UInt8).toNat = 1 := rfl
    exact byteSum?_eq (by omega)
  have low : (value &&& 0x7f).toNat ≤ 0x7f := toNat_and_le_right value 0x7f
  have few : (value &&& 0x7f).toNat + 1 ≤ 0x80 := by omega
  have short : (value &&& 0x7f).toNat + 1 < 2 ^ 16 := by omega
  have blocks := sum?_eq short
  have copied := copyBlocks?_eq sound few
  unfold controlCopy? controlCopy
  simp only [bus.io.read?_eq inside, logged, blocks, copied, setIo?_eq _ _ inside,
    Option.bind_eq_bind, Option.bind_some]
  split
  · split <;> rfl
  · rfl

theorem copyLineBlock?_eq (sound : bus.Sound) :
    bus.copyLineBlock? = some bus.copyLineBlock := by
  have inside : copyControl < 0x80 := by decide
  have few : 1 ≤ 0x80 := by decide
  unfold copyLineBlock? copyLineBlock
  simp only [copyBlocks?_eq sound few, Block.read?_eq _ inside, setIo?_eq _ _ inside,
    Option.bind_eq_bind, Option.bind_some]
  split
  · split
    · rfl
    · rename_i more
      have left : 1 ≤ (bus.copyBlocks 1).io.read copyControl &&& 0x7f := by
        rw [UInt8.le_iff_toNat_le]
        have positive : ((bus.copyBlocks 1).io.read copyControl &&& 0x7f).toNat ≠ 0 :=
          fun zero => more (UInt8.toNat_inj.mp zero)
        exact Nat.one_le_iff_ne_zero.mpr positive
      simp only [byteDifference?_eq left, Option.bind_some]
  · rfl

theorem sendSerial?_eq (bus : Bus) : bus.sendSerial? = some bus.sendSerial := by
  have data : serialData < 0x80 := by decide
  have control : serialControl < 0x80 := by decide
  simp only [sendSerial?, bus.io.read?_eq data, bus.io.read?_eq control, setIo?_eq _ _ data,
    setIo?_eq _ _ control, Option.bind_eq_bind, Option.bind_some]
  rfl

theorem writeIo?_eq (sound : bus.Sound) (address : UInt16) (value : UInt8) :
    bus.writeIo? address value = some (bus.writeIo address value) := by
  have plain := bus.setIo?_eq value (pageCell_lt address)
  unfold writeIo? writeIo
  cases IoRegister.ofAddress address <;> dsimp only
  case serialControl =>
    have control : serialControl < 0x80 := by decide
    simp only [setIo?_eq _ _ control, sendSerial?_eq, Option.bind_eq_bind, Option.bind_some]
    split <;> rfl
  case lcdStatus =>
    have status : lcdStatus < 0x80 := by decide
    simp only [bus.io.read?_eq status, setIo?_eq _ _ status, Option.bind_eq_bind,
      Option.bind_some]
    rfl
  case line => exact bus.setIo?_eq 0 (by decide)
  case objectCopy =>
    have register : objectSource < 0x80 := by decide
    have kept := sound.setIo objectSource value
    have copied := copyObjectCells?_eq kept (word value 0) (Nat.le_refl 0xa0)
    simp only [setIo?_eq _ _ register, copied, Option.bind_eq_bind, Option.bind_some,
      copyObjects_eq_cells]
  case copyControl =>
    simp only [controlCopy?_eq sound, plain]
    split <;> rfl
  case backgroundIndex | objectIndex =>
    simp only [plain]
    split <;> rfl
  case backgroundData =>
    simp only [Palette.writeData?_eq sound.background, plain, Option.bind_eq_bind,
      Option.bind_some]
    split <;> rfl
  case objectData =>
    simp only [Palette.writeData?_eq sound.objects, plain, Option.bind_eq_bind, Option.bind_some]
    split <;> rfl
  case copyAddress | plain => exact plain

/-- Each region's offset lies in its array, and a sound bus keeps the banked ones inside. -/
theorem write?_eq (sound : bus.Sound) (address : UInt16) (value : UInt8) :
    bus.write? address value = some (bus.write address value) := by
  have bounds := Region.bounds address
  unfold write? write
  cases region : Region.ofAddress address <;> rw [region] at bounds <;> dsimp only
  case videoRam => exact writeVideo?_eq sound address value
  case cartridgeRam =>
    simp only [Board.writeRam?_eq, Option.bind_eq_bind, Option.bind_some]
    rfl
  case workRam =>
    obtain ⟨cell, inside⟩ := offset_lt 0xc000 0x1000 bounds.1
      (Nat.lt_succ_of_le bounds.2)
    have there : (address - 0xc000).toNat < 0x8000 := by omega
    simp only [cell, bus.workRam.write?_eq value there, Option.bind_eq_bind, Option.bind_some]
  case bankedWorkRam =>
    simp only [bus.workCell?_eq, bus.workRam.write?_eq value (sound.workCell_lt address),
      Option.bind_eq_bind, Option.bind_some]
  case objectRam =>
    obtain ⟨cell, inside⟩ := offset_lt 0xfe00 0xa0 bounds.1
      (Nat.lt_succ_of_le bounds.2)
    simp only [cell, bus.objectRam.write?_eq value inside, Option.bind_eq_bind, Option.bind_some]
  case io => exact writeIo?_eq sound address value
  case highRam =>
    simp only [bus.highRam.write?_eq value (highRamCell_lt bounds.1 bounds.2),
      Option.bind_eq_bind, Option.bind_some]

theorem writeWord?_eq (sound : bus.Sound) (address : UInt16) (value : UInt16) :
    bus.writeWord? address value = some (bus.writeWord address value) := by
  simp only [writeWord?, write?_eq sound, write?_eq (sound.write _ _), Option.bind_eq_bind,
    Option.bind_some]
  rfl

theorem writeAll?_eq (sound : bus.Sound) (address : UInt16) (values : List UInt8) :
    bus.writeAll? address values = some (bus.writeAll address values) := by
  induction values generalizing bus address with
  | nil => rfl
  | cons value rest ih =>
    have first := write?_eq sound address value
    have others := ih (sound.write address value) (address + 1)
    simp only [writeAll?, first, others, Option.bind_eq_bind, Option.bind_some, writeAll]

theorem storeIo?_eq (bus : Bus) (address : UInt16) (value : UInt8) :
    bus.storeIo? address value = some (bus.storeIo address value) := by
  unfold storeIo? storeIo
  rw [bus.setIo?_eq value (pageCell_lt address)]
  split <;> rfl

/-- The timer is the one device with a sum that can fail. Its 32-bit accumulator must hold the
clocks, and only while the timer is on. -/
theorem tick?_eq {clocks : Nat}
    (fits : bus.timer.enabled = true → bus.timer.elapsed + clocks < 2 ^ 32) :
    bus.tick? clocks = some (bus.tick clocks) := by
  simp only [tick?, Timer.tick?_eq fits, Option.bind_eq_bind, Option.bind_some, tick]
  cases bus.timer.tick clocks with
  | mk overflowed timer => cases overflowed <;> rfl

theorem loadRam?_eq (bus : Bus) (saved : Bytes) :
    bus.loadRam? saved = some (bus.loadRam saved) := by
  simp only [loadRam?, Board.loadRam?_eq, Option.bind_eq_bind, Option.bind_some]
  rfl

/-- Memory before anything is stored in it. -/
theorem sound_blank {cartridge : Cartridge} (color : Bool)
    (controller : cartridge.board.controller.Sound) : Sound { cartridge, color } where
  videoBank := (by decide : (0 : UInt8) ≤ 1)
  workBank := (by decide : (1 : UInt8) ≤ 1 ∧ (1 : UInt8) ≤ 7)
  background := (by decide : (0 : UInt8) < 64)
  objects := (by decide : (0 : UInt8) < 64)
  controller := controller
  timer := Timer.period_pos _

/-- The stores all succeed, and the bus that they leave is sound again. -/
theorem writeEach?_eq (sound : bus.Sound) (bytes : List (UInt16 × UInt8)) :
    let stored := bytes.foldl (fun bus (address, value) => bus.write address value) bus
    bus.writeEach? bytes = some stored ∧ stored.Sound := by
  induction bytes generalizing bus with
  | nil => exact ⟨rfl, sound⟩
  | cons byte rest ih =>
    obtain ⟨others, kept⟩ := ih (sound.write byte.1 byte.2)
    refine ⟨?_, kept⟩
    simp only [writeEach?, write?_eq sound, Option.bind_eq_bind, Option.bind_some]
    exact others

/-- Power-on needs no more than a controller within its ranges, and leaves a bus that is sound. -/
theorem powerOn?_eq {cartridge : Cartridge} (color : Bool)
    (controller : cartridge.board.controller.Sound) :
    powerOn? cartridge color = some (powerOn cartridge color) ∧
      (powerOn cartridge color).Sound := by
  obtain ⟨started, sound⟩ := writeEach?_eq (sound_blank color controller) startupWrites
  refine ⟨?_, sound.setIo copyControl 0xff⟩
  simp only [powerOn?, started, Option.bind_eq_bind, Option.bind_some]
  exact setIo?_eq _ 0xff (by decide)

end Handheld.Bus
