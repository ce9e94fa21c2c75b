import Mathlib.Logic.Function.Iterate
import Handheld.Proofs.Bus.Actions
import Handheld.Proofs.Cartridge.Program

/-!
# Block copies

A block copy reads through the whole bus while it fills video RAM, and it finds where to read and
where to write in registers that it moves on itself. None of these registers can be read back, so a
copy cut into parts leaves what a copy in one go leaves: `line_copies_eq_general` says so for one
block per line, and also says what is left.
-/
namespace Handheld

/-! ## Addresses

Sources are multiples of sixteen; targets are that within a bank of 0x2000 bytes. -/

theorem toNat_and_bank (address : UInt16) :
    (address &&& 0x1fff).toNat = address.toNat % 0x2000 :=
  word_toNat_and_mask address 13 rfl

/-- The mask of a source drops the part of it that does not fill sixteen bytes. -/
theorem toNat_and_block (address : UInt16) :
    (address &&& 0xfff0).toNat = address.toNat / 16 * 16 := by
  have bound := address.toNat_lt
  have mask : (0xfff0 : UInt16).toNat = (2 ^ 12 - 1) <<< 4 := rfl
  rw [UInt16.toNat_and, mask]
  apply Nat.eq_of_testBit_eq
  intro bit
  have shifted : address.toNat / 16 * 16 = (address.toNat >>> 4) <<< 4 := by
    rw [Nat.shiftRight_eq_div_pow, Nat.shiftLeft_eq]
  rw [shifted, Nat.testBit_and, Nat.testBit_shiftLeft, Nat.testBit_shiftLeft,
    Nat.testBit_shiftRight, Nat.testBit_two_pow_sub_one]
  by_cases low : 4 ≤ bit
  · have same : 4 + (bit - 4) = bit := by omega
    by_cases high : bit - 4 < 12
    · simp [low, high, same]
    · have beyond : 2 ^ 16 ≤ 2 ^ bit := Nat.pow_le_pow_right (by decide) (by omega)
      have above : address.toNat.testBit bit = false :=
        Nat.testBit_lt_two_pow (Nat.lt_of_lt_of_le bound beyond)
      simp [high, same, above]
  · simp [low]

theorem toNat_and_target (address : UInt16) :
    (address &&& 0x1ff0).toNat = address.toNat % 0x2000 / 16 * 16 := by
  have masks : (0x1ff0 : UInt16) = 0x1fff &&& 0xfff0 := rfl
  rw [masks, ← UInt16.and_assoc, toNat_and_block, toNat_and_bank]

/-- Addresses of a copy wrap at the end of the address space, however long it is. -/
theorem toNat_add_ofNat (address : UInt16) (count : Nat) :
    (address + UInt16.ofNat count).toNat = (address.toNat + count) % 0x10000 := by
  rw [UInt16.toNat_add, UInt16.toNat_ofNat']
  omega

theorem add_ofNat_add (address : UInt16) (first second : Nat) :
    address + UInt16.ofNat (first + second) =
      address + UInt16.ofNat first + UInt16.ofNat second := by
  rw [UInt16.ofNat_add, UInt16.add_assoc]

namespace Bus

/-- The cell of an address depends on its place within a bank only, so that targets may be compared
by that. -/
theorem videoCell_eq (bus : Bus) (address : UInt16) :
    bus.videoCell address = bus.videoBank.toNat * 0x2000 + address.toNat % 0x2000 := by
  rw [videoCell, toNat_and_bank]

/-! ## What a read depends on -/

/-- The registers of the block copy, but for the one that controls it, do not show in any read: they
stand at addresses that do not show them. So a copy may go on while they move. -/
theorem read_of_registers (bus : Bus) {io : Block 0x80} {copyActive : Bool}
    (same : ∀ cell, cell ∉ copyRegisters → io.read cell = bus.io.read cell) {address : UInt16}
    (control : address = 0xff55 → io.read copyControl = bus.io.read copyControl) :
    ({ bus with io, copyActive } : Bus).read address = bus.read address := by
  unfold read
  cases region : Region.ofAddress address <;> dsimp only
  case io =>
    unfold readIo
    have hidden : ∀ cell ∈ copyRegisters, IoRegister.ofAddress (port cell) = .copyAddress ∨
        IoRegister.ofAddress (port cell) = .copyControl := by decide
    have page (device : IoRegister.ofAddress address ≠ .copyAddress ∧
        IoRegister.ofAddress address ≠ .copyControl) :
        io.read (pageCell address) = bus.io.read (pageCell address) := by
      apply same
      intro shown
      have register := hidden _ shown
      rw [port_pageCell region] at register
      exact register.elim device.1 device.2
    cases device : IoRegister.ofAddress address <;> rw [device] at page <;> dsimp only
    case serialControl => rw [same serialControl (by decide)]
    case lcdStatus | line | objectCopy | plain => exact page (by decide)
    case copyControl => rw [control ((IoRegister.ofAddress_eq_iff rfl).mp device)]
    all_goals rfl
  all_goals rfl

theorem read_of_videoRam {bus : Bus} {videoRam : Block 0x4000} {address : UInt16}
    (outside : Region.ofAddress address ≠ .videoRam) :
    ({ bus with videoRam } : Bus).read address = bus.read address := by
  unfold read
  cases region : Region.ofAddress address <;> first | rfl | exact absurd region outside

/-- A source in video RAM may be a cell that the copy has filled. -/
theorem read_in_videoRam {bus : Bus} {address : UInt16}
    (inside : Region.ofAddress address = .videoRam) :
    bus.read address = bus.videoRam.read (bus.videoCell address) := by
  unfold read
  rw [inside]

/-! ## Copies byte by byte -/

/-- The video RAM that a copy leaves. -/
def copiedRam (bus : Bus) (source target : UInt16) (count : Nat) : Block 0x4000 :=
  (bus.copyVideo source target count).videoRam

theorem copyVideo_eq (bus : Bus) (source target : UInt16) (count : Nat) :
    bus.copyVideo source target count =
      { bus with videoRam := bus.copiedRam source target count } := by
  obtain ⟨videoRam, copied⟩ := bus.copyVideo_frame source target count
  unfold copiedRam
  rw [copied]

/-- Only the place within a bank counts, not the address that it comes from. -/
theorem writeVideo_congr (bus : Bus) {target other : UInt16} (value : UInt8)
    (same : target.toNat % 0x2000 = other.toNat % 0x2000) :
    bus.writeVideo target value = bus.writeVideo other value := by
  unfold writeVideo
  rw [videoCell_eq, videoCell_eq, same]

/-- The last byte of a copy comes from a bus that the bytes before it may have changed. Copies are
taken from their end here, since each byte is read in the state that those before it have left. -/
theorem copyVideo_succ (bus : Bus) (source target : UInt16) (count : Nat) :
    bus.copyVideo source target (count + 1) =
      let copied := bus.copyVideo source target count
      copied.writeVideo (target + UInt16.ofNat count)
        (copied.read (source + UInt16.ofNat count)) := by
  induction count generalizing bus source target with
  | zero =>
    have nothing : UInt16.ofNat 0 = 0 := rfl
    simp only [copyVideo, nothing, UInt16.add_zero]
  | succ count ih =>
    have first : copyVideo bus source target (count + 1) =
        (bus.writeVideo target (bus.read source)).copyVideo (source + 1)
          ((target + 1) &&& 0x1fff) count := rfl
    have from_source : source + 1 + UInt16.ofNat count = source + UInt16.ofNat (count + 1) := by
      rw [Nat.add_comm count 1, add_ofNat_add]
      rfl
    have to_target : (((target + 1) &&& 0x1fff) + UInt16.ofNat count).toNat % 0x2000 =
        (target + UInt16.ofNat (count + 1)).toNat % 0x2000 := by
      have one := toNat_add_ofNat target 1
      rw [toNat_add_ofNat, toNat_and_bank, toNat_add_ofNat]
      change (target + 1).toNat = _ at one
      omega
    rw [copyVideo, ih]
    dsimp only
    rw [first, from_source, writeVideo_congr _ _ to_target]

/-- A copy in two parts. The second goes on at the addresses behind the first, which may have
wrapped. -/
theorem copyVideo_add (bus : Bus) (source target : UInt16) (first second : Nat) :
    bus.copyVideo source target (first + second) =
      (bus.copyVideo source target first).copyVideo (source + UInt16.ofNat first)
        (target + UInt16.ofNat first) second := by
  induction second with
  | zero => rfl
  | succ second ih =>
    rw [← Nat.add_assoc, copyVideo_succ, copyVideo_succ, ih, add_ofNat_add, add_ofNat_add]

/-- As for one byte: targets that fall on the same place of a bank fill the same cells. -/
theorem copyVideo_congr (bus : Bus) (source : UInt16) {target other : UInt16}
    (same : target.toNat % 0x2000 = other.toNat % 0x2000) (count : Nat) :
    bus.copyVideo source target count = bus.copyVideo source other count := by
  induction count with
  | zero => rfl
  | succ count ih =>
    have next : (target + UInt16.ofNat count).toNat % 0x2000 =
        (other + UInt16.ofNat count).toNat % 0x2000 := by
      rw [toNat_add_ofNat, toNat_add_ofNat]
      omega
    rw [copyVideo_succ, copyVideo_succ, ih]
    exact writeVideo_congr _ _ next

/-- A copy does not look at its own registers. -/
theorem copyVideo_of_registers (bus : Bus) {io : Block 0x80} {copyActive : Bool}
    (same : ∀ cell, cell ∉ copyRegisters → io.read cell = bus.io.read cell)
    (source target : UInt16) {count : Nat}
    (control : ∀ i < count, source + UInt16.ofNat i = 0xff55 →
      io.read copyControl = bus.io.read copyControl) :
    ({ bus with io, copyActive } : Bus).copyVideo source target count =
      { bus.copyVideo source target count with io, copyActive } := by
  induction count with
  | zero => rfl
  | succ count ih =>
    have copied := ih fun i before => control i (Nat.lt_succ_of_lt before)
    rw [copyVideo_succ, copyVideo_succ, copied, copyVideo_eq]
    generalize bus.copiedRam source target count = videoRam
    have reads : ({ bus with videoRam, io, copyActive } : Bus).read (source + UInt16.ofNat count) =
        ({ bus with videoRam } : Bus).read (source + UInt16.ofNat count) :=
      read_of_registers { bus with videoRam } same (control count (Nat.lt_succ_self count))
    dsimp only
    rw [reads]
    rfl

/-- What a copy leaves does not depend on its own registers, unless one of the bytes it reads is the
register that shows its progress. -/
theorem copiedRam_of_registers (bus : Bus) {io : Block 0x80} {copyActive : Bool}
    (same : ∀ cell, cell ∉ copyRegisters → io.read cell = bus.io.read cell)
    (source target : UInt16) {count : Nat}
    (control : ∀ i < count, source + UInt16.ofNat i = 0xff55 →
      io.read copyControl = bus.io.read copyControl) :
    ({ bus with io, copyActive } : Bus).copiedRam source target count =
      bus.copiedRam source target count := by
  unfold copiedRam
  rw [bus.copyVideo_of_registers same source target control]

/-- A copy that never reads what it has written moves each byte as it was before. -/
theorem copyVideo_moves {bus : Bus} (bank : bus.videoBank ≤ 1) (source target : UInt16)
    {count : Nat} (short : count ≤ 0x2000)
    (fresh : ∀ i j, i < j → j < count → Region.ofAddress (source + UInt16.ofNat j) = .videoRam →
      bus.videoCell (source + UInt16.ofNat j) ≠ bus.videoCell (target + UInt16.ofNat i)) :
    (∀ i < count, (bus.copiedRam source target count).read
        (bus.videoCell (target + UInt16.ofNat i)) = bus.read (source + UInt16.ofNat i)) ∧
      ∀ cell, (∀ i < count, cell ≠ bus.videoCell (target + UInt16.ofNat i)) →
        (bus.copiedRam source target count).read cell = bus.videoRam.read cell := by
  induction count with
  | zero => exact ⟨fun i before => absurd before (Nat.not_lt_zero i), fun _ _ => rfl⟩
  | succ count ih =>
    obtain ⟨moved, kept⟩ :=
      ih (by omega) fun i j before within => fresh i j before (Nat.lt_succ_of_lt within)
    have read : (bus.copyVideo source target count).read (source + UInt16.ofNat count) =
        bus.read (source + UInt16.ofNat count) := by
      rw [copyVideo_eq]
      by_cases inside : Region.ofAddress (source + UInt16.ofNat count) = .videoRam
      · rw [read_in_videoRam inside, read_in_videoRam inside]
        exact kept _ fun i before => fresh i count before (Nat.lt_succ_self count) inside
      · exact read_of_videoRam inside
    have last : bus.copiedRam source target (count + 1) =
        (bus.copiedRam source target count).write (bus.videoCell (target + UInt16.ofNat count))
          (bus.read (source + UInt16.ofNat count)) := by
      rw [copiedRam, copyVideo_succ]
      dsimp only
      rw [read, copyVideo_eq]
      rfl
    have there : bus.videoCell (target + UInt16.ofNat count) < 0x4000 := by
      have low : bus.videoBank.toNat ≤ 1 := bank
      rw [videoCell_eq]
      omega
    refine ⟨?moved, ?kept⟩
    case moved =>
      intro i before
      rw [last]
      by_cases here : i = count
      · rw [here, Block.read_write_self _ _ there]
      · have earlier : i < count := by omega
        have apart : bus.videoCell (target + UInt16.ofNat count) ≠
            bus.videoCell (target + UInt16.ofNat i) := by
          rw [videoCell_eq, videoCell_eq, toNat_add_ofNat, toNat_add_ofNat]
          omega
        rw [Block.read_write_of_ne _ _ apart]
        exact moved i earlier
    case kept =>
      intro cell outside
      rw [last, Block.read_write_of_ne _ _ (outside count (Nat.lt_succ_self count)).symm]
      exact kept cell fun i before => outside i (Nat.lt_succ_of_lt before)

/-! ## Copies block by block -/

/-- The I/O page with both addresses of the copy set. -/
def copyPage (io : Block 0x80) (source target : UInt16) : Block 0x80 :=
  (((io.write copySourceHigh (highByte source)).write copySourceLow (lowByte source)).write
    copyTargetHigh (highByte target)).write copyTargetLow (lowByte target)

/-- The page after the four stores of a copy, cell by cell. The last of them counts. -/
theorem read_copyPage (io : Block 0x80) (source target : UInt16) (cell : Nat) :
    (copyPage io source target).read cell =
      if copyTargetLow = cell then lowByte target
      else if copyTargetHigh = cell then highByte target
      else if copySourceLow = cell then lowByte source
      else if copySourceHigh = cell then highByte source
      else io.read cell := by
  unfold copyPage
  rw [Block.read_write _ _ (by decide), Block.read_write _ _ (by decide),
    Block.read_write _ _ (by decide), Block.read_write _ _ (by decide)]

theorem read_copyPage_of_ne (io : Block 0x80) (source target : UInt16) {cell : Nat}
    (apart : cell ∉ copyAddresses) : (copyPage io source target).read cell = io.read cell := by
  simp only [copyAddresses, List.mem_cons, List.not_mem_nil, or_false, not_or] at apart
  obtain ⟨sourceHigh, sourceLow, targetHigh, targetLow⟩ := apart
  rw [read_copyPage, if_neg (Ne.symm targetLow), if_neg (Ne.symm targetHigh),
    if_neg (Ne.symm sourceLow), if_neg (Ne.symm sourceHigh)]

theorem source_copyPage (io : Block 0x80) (source target : UInt16) :
    word ((copyPage io source target).read copySourceHigh)
      ((copyPage io source target).read copySourceLow) = source := by
  rw [read_copyPage, read_copyPage]
  exact word_highByte_lowByte source

theorem target_copyPage (io : Block 0x80) (source target : UInt16) :
    word ((copyPage io source target).read copyTargetHigh)
      ((copyPage io source target).read copyTargetLow) = target := by
  rw [read_copyPage, read_copyPage]
  exact word_highByte_lowByte target

theorem copyPage_copyPage (io : Block 0x80) (source target nextSource nextTarget : UInt16) :
    copyPage (copyPage io source target) nextSource nextTarget =
      copyPage io nextSource nextTarget := by
  apply Block.ext_read
  intro cell _
  simp only [read_copyPage]
  grind

/-- The register that shows the progress is none of the four, so the order does not matter. -/
theorem copyPage_write (io : Block 0x80) (source target : UInt16) (shown : UInt8) :
    copyPage (io.write copyControl shown) source target =
      (copyPage io source target).write copyControl shown := by
  have inside : copyControl < 0x80 := by decide
  apply Block.ext_read
  intro cell _
  simp only [read_copyPage, Block.read_write _ _ inside]
  grind

/-- A copy of any number of blocks: video RAM is filled and the page has both addresses moved on.
All else of the bus stays as it is. -/
theorem copyBlocks_eq (bus : Bus) (count : Nat) :
    bus.copyBlocks count =
      { bus with
        videoRam := bus.copiedRam bus.copySource bus.copyTarget (16 * count)
        io :=
          copyPage bus.io (bus.copySource + UInt16.ofNat (16 * count))
            ((bus.copyTarget + UInt16.ofNat (16 * count)) &&& 0x1fff) } := by
  unfold copyBlocks
  dsimp only
  rw [copyVideo_eq]
  rfl

/-- A copy leaves the register that shows its progress to those who asked for it. -/
theorem control_copyBlocks (bus : Bus) (count : Nat) :
    (bus.copyBlocks count).io.read copyControl = bus.io.read copyControl := by
  rw [copyBlocks_eq]
  exact read_copyPage_of_ne _ _ _ (by decide)

/-- The source is a multiple of sixteen, and stays one. -/
theorem copySource_copyBlocks (bus : Bus) (count : Nat) :
    (bus.copyBlocks count).copySource = bus.copySource + UInt16.ofNat (16 * count) := by
  rw [copySource, copyBlocks_eq]
  dsimp only
  rw [source_copyPage]
  have aligned := toNat_and_block (word (bus.io.read copySourceHigh) (bus.io.read copySourceLow))
  rw [← copySource] at aligned
  apply UInt16.toNat_inj.mp
  rw [toNat_and_block, toNat_add_ofNat]
  omega

theorem copyTarget_copyBlocks (bus : Bus) (count : Nat) :
    (bus.copyBlocks count).copyTarget =
      (bus.copyTarget + UInt16.ofNat (16 * count)) &&& 0x1fff := by
  rw [copyTarget, copyBlocks_eq]
  dsimp only
  rw [target_copyPage]
  have aligned := toNat_and_target (word (bus.io.read copyTargetHigh) (bus.io.read copyTargetLow))
  rw [← copyTarget] at aligned
  apply UInt16.toNat_inj.mp
  rw [toNat_and_target, toNat_and_bank, toNat_add_ofNat]
  omega

theorem copyPage_same {bus : Bus} (source target : UInt16) (cell : Nat)
    (outside : cell ∉ copyRegisters) :
    (copyPage bus.io source target).read cell = bus.io.read cell := by
  apply read_copyPage_of_ne
  intro member
  have among : ∀ cell ∈ copyAddresses, cell ∈ copyRegisters := by decide
  exact outside (among cell member)

/-- The blocks that follow are read from a bus that differs from the copied one in registers
only. -/
theorem copiedRam_copyBlocks (bus : Bus) (first second : Nat) :
    (bus.copyBlocks first).copiedRam (bus.copySource + UInt16.ofNat (16 * first))
        ((bus.copyTarget + UInt16.ofNat (16 * first)) &&& 0x1fff) (16 * second) =
      bus.copiedRam bus.copySource bus.copyTarget (16 * (first + second)) := by
  have target : ((bus.copyTarget + UInt16.ofNat (16 * first)) &&& 0x1fff).toNat % 0x2000 =
      (bus.copyTarget + UInt16.ofNat (16 * first)).toNat % 0x2000 := by
    rw [toNat_and_bank]
    exact Nat.mod_mod _ _
  have control : copyControl ∉ copyAddresses := by decide
  rw [copyBlocks_eq]
  refine (copiedRam_of_registers
    { bus with videoRam := bus.copiedRam bus.copySource bus.copyTarget (16 * first) }
    (copyPage_same _ _) _ _ fun _ _ _ => read_copyPage_of_ne _ _ _ control).trans ?_
  rw [← copyVideo_eq, copiedRam, copyVideo_congr _ _ target, ← copyVideo_add, ← Nat.mul_add]
  rfl

/-- Copies may be cut into parts: both addresses go on where they stopped, and none of what moves
them can be read. This carries the copy of one block per line. -/
theorem copyBlocks_add (bus : Bus) (first second : Nat) :
    bus.copyBlocks (first + second) = (bus.copyBlocks first).copyBlocks second := by
  have source : bus.copySource + UInt16.ofNat (16 * first) + UInt16.ofNat (16 * second) =
      bus.copySource + UInt16.ofNat (16 * (first + second)) := by
    rw [Nat.mul_add, add_ofNat_add]
  have target : ((bus.copyTarget + UInt16.ofNat (16 * first)) &&& 0x1fff) +
        UInt16.ofNat (16 * second) &&& 0x1fff =
      bus.copyTarget + UInt16.ofNat (16 * (first + second)) &&& 0x1fff := by
    apply UInt16.toNat_inj.mp
    rw [toNat_and_bank, toNat_add_ofNat, toNat_and_bank, toNat_add_ofNat, toNat_and_bank,
      toNat_add_ofNat]
    omega
  rw [copyBlocks_eq (bus.copyBlocks first), copySource_copyBlocks, copyTarget_copyBlocks,
    copiedRam_copyBlocks, source, target, copyBlocks_eq, copyBlocks_eq]
  dsimp only
  rw [copyPage_copyPage]

/-- So many blocks have moved from the source to the target of the copy, within the current bank of
video RAM: their bytes are those that stood at the source before, and both addresses are past
them. -/
structure MovesBlocks (before after : Bus) (count : Nat) : Prop where
  moved : ∀ i < 16 * count,
    after.videoRam.read
        (before.videoBank.toNat * 0x2000 + (before.copyTarget.toNat + i) % 0x2000) =
      before.read (before.copySource + UInt16.ofNat i)
  kept : ∀ cell,
    (∀ i < 16 * count,
      cell ≠ before.videoBank.toNat * 0x2000 + (before.copyTarget.toNat + i) % 0x2000) →
    after.videoRam.read cell = before.videoRam.read cell
  source : word (after.io.read copySourceHigh) (after.io.read copySourceLow) =
    before.copySource + UInt16.ofNat (16 * count)
  target : word (after.io.read copyTargetHigh) (after.io.read copyTargetLow) =
    (before.copyTarget + UInt16.ofNat (16 * count)) &&& 0x1fff

/-- Where no byte is read after it was written, the bytes are those that were there before. The
hypothesis can fail within video RAM only, and there for sources behind the target. -/
theorem copyBlocks_moves {bus : Bus} (bank : bus.videoBank ≤ 1) {count : Nat}
    (short : 16 * count ≤ 0x2000)
    (fresh : ∀ i j, i < j → j < 16 * count →
      Region.ofAddress (bus.copySource + UInt16.ofNat j) = .videoRam →
      bus.videoCell (bus.copySource + UInt16.ofNat j) ≠
        bus.videoCell (bus.copyTarget + UInt16.ofNat i)) :
    bus.MovesBlocks (bus.copyBlocks count) count := by
  obtain ⟨moved, kept⟩ := copyVideo_moves bank bus.copySource bus.copyTarget short fresh
  have cell (i : Nat) : bus.videoCell (bus.copyTarget + UInt16.ofNat i) =
      bus.videoBank.toNat * 0x2000 + (bus.copyTarget.toNat + i) % 0x2000 := by
    rw [videoCell_eq, toNat_add_ofNat]
    omega
  simp only [cell] at moved kept
  rw [copyBlocks_eq]
  exact ⟨moved, kept, source_copyPage _ _ _, target_copyPage _ _ _⟩

/-! ## The register that controls a copy -/

/-- The bus with a copy in progress or not, and a byte in the register that shows it. -/
def withCopy (bus : Bus) (active : Bool) (shown : UInt8) : Bus :=
  ({ bus with copyActive := active }).setIo copyControl shown

theorem withCopy_withCopy (bus : Bus) (first second : Bool) (shown next : UInt8) :
    (bus.withCopy first shown).withCopy second next = bus.withCopy second next := by
  simp only [withCopy, setIo, Block.write_write_self]

theorem control_withCopy (bus : Bus) (active : Bool) (shown : UInt8) :
    (bus.withCopy active shown).io.read copyControl = shown :=
  Block.read_write_self _ _ (by decide)

theorem read_withCopy_of_ne (bus : Bus) (active : Bool) (shown : UInt8) {cell : Nat}
    (apart : copyControl ≠ cell) :
    (bus.withCopy active shown).io.read cell = bus.io.read cell :=
  read_setIo_of_ne _ shown apart

/-- The flag and the byte of progress are none of what a copy moves. -/
theorem MovesBlocks.withCopy {before after : Bus} {count : Nat}
    (moves : before.MovesBlocks after count) (active : Bool) (shown : UInt8) :
    before.MovesBlocks (after.withCopy active shown) count where
  moved := moves.moved
  kept := moves.kept
  source := by
    rw [read_withCopy_of_ne _ _ _ (by decide), read_withCopy_of_ne _ _ _ (by decide)]
    exact moves.source
  target := by
    rw [read_withCopy_of_ne _ _ _ (by decide), read_withCopy_of_ne _ _ _ (by decide)]
    exact moves.target

theorem copySource_withCopy (bus : Bus) (active : Bool) (shown : UInt8) :
    (bus.withCopy active shown).copySource = bus.copySource := by
  rw [copySource, read_withCopy_of_ne _ _ _ (by decide), read_withCopy_of_ne _ _ _ (by decide),
    copySource]

theorem copyTarget_withCopy (bus : Bus) (active : Bool) (shown : UInt8) :
    (bus.withCopy active shown).copyTarget = bus.copyTarget := by
  rw [copyTarget, read_withCopy_of_ne _ _ _ (by decide), read_withCopy_of_ne _ _ _ (by decide),
    copyTarget]

/-- The bytes that so many blocks are read from do not include the register that shows the progress.
It is the one address whose byte differs between the two ways to copy. -/
def SourceAvoids (bus : Bus) (count : Nat) : Prop :=
  ∀ i < 16 * count, bus.copySource + UInt16.ofNat i ≠ 0xff55

/-- A copy whose bytes do not include the progress goes the same way whatever it shows. -/
theorem copyBlocks_withCopy {bus : Bus} {count : Nat} (avoids : bus.SourceAvoids count)
    (active : Bool) (shown : UInt8) :
    (bus.withCopy active shown).copyBlocks count =
      (bus.copyBlocks count).withCopy active shown := by
  have ram : (bus.withCopy active shown).copiedRam bus.copySource bus.copyTarget (16 * count) =
      bus.copiedRam bus.copySource bus.copyTarget (16 * count) := by
    refine copiedRam_of_registers bus ?same _ _ ?control
    case same =>
      intro cell outside
      exact Block.read_write_of_ne _ _ fun same => outside (same ▸ by decide)
    case control =>
      intro i before same
      exact absurd same (avoids i before)
  rw [copyBlocks_eq, copyBlocks_eq, copySource_withCopy, copyTarget_withCopy, ram]
  simp only [withCopy, setIo, copyPage_write]

theorem copyLineBlock_of_active {bus : Bus} (active : bus.copyActive = true) :
    bus.copyLineBlock =
      let left := bus.io.read copyControl &&& 0x7f
      if left = 0 then (bus.copyBlocks 1).withCopy false 0xff
      else (bus.copyBlocks 1).withCopy true (left - 1) := by
  have going : ({ bus.copyBlocks 1 with copyActive := true } : Bus) = bus.copyBlocks 1 := by
    rw [copyBlocks_eq, ← active]
  unfold copyLineBlock
  rw [if_pos active]
  dsimp only
  rw [control_copyBlocks]
  split
  · rfl
  · rw [withCopy, going]

theorem copyLineBlock_of_idle {bus : Bus} (idle : bus.copyActive = false) :
    bus.copyLineBlock = bus := by
  unfold copyLineBlock
  rw [if_neg (by simp [idle])]

theorem copyLineBlock_withCopy {bus : Bus} (avoids : bus.SourceAvoids 1) (left : UInt8) :
    (bus.withCopy true left).copyLineBlock =
      if left &&& 0x7f = 0 then (bus.copyBlocks 1).withCopy false 0xff
      else (bus.copyBlocks 1).withCopy true ((left &&& 0x7f) - 1) := by
  rw [copyLineBlock_of_active rfl, control_withCopy, copyBlocks_withCopy avoids]
  simp only [withCopy_withCopy]

theorem count_and_mask {count : Nat} (few : count < 0x80) :
    UInt8.ofNat count &&& 0x7f = UInt8.ofNat count := by
  apply UInt8.toNat_inj.mp
  rw [UInt8.toNat_and, UInt8.toNat_ofNat']
  have masked := Nat.and_two_pow_sub_one_eq_mod (count % 2 ^ 8) 7
  have same : count % 2 ^ 8 % 2 ^ 7 = count % 2 ^ 8 := by omega
  exact masked.trans same

/-- The bus when so many blocks have moved. With none the registers keep their lowest bits, which a
copy drops; this is why the case of none stands for itself. -/
def afterBlocks (bus : Bus) : Nat → Bus
  | 0 => bus
  | count + 1 => bus.copyBlocks (count + 1)

theorem copyBlocks_afterBlocks (bus : Bus) (count : Nat) :
    (bus.afterBlocks count).copyBlocks 1 = bus.afterBlocks (count + 1) := by
  cases count with
  | zero => rfl
  | succ count => exact (bus.copyBlocks_add (count + 1) 1).symm

/-- The source goes on by sixteen with each block and may wrap. -/
theorem copySource_afterBlocks (bus : Bus) (count : Nat) :
    (bus.afterBlocks count).copySource = bus.copySource + UInt16.ofNat (16 * count) := by
  cases count with
  | zero => exact (UInt16.add_zero _).symm
  | succ count => exact bus.copySource_copyBlocks (count + 1)

/-- What holds of the bytes that a copy reads holds of those that its next block reads. -/
theorem next_block {bus : Bus} (holds : UInt16 → Prop) {count blocks : Nat}
    (bytes : ∀ i < 16 * blocks, holds (bus.copySource + UInt16.ofNat i)) (more : count < blocks) :
    ∀ i < 16 * 1, holds ((bus.afterBlocks count).copySource + UInt16.ofNat i) := by
  intro i before
  rw [copySource_afterBlocks, ← add_ofNat_add]
  exact bytes (16 * count + i) (by omega)

/-- A copy of one block per line is in progress, with so many blocks left. The register shows one
less. -/
structure LineCopy (bus : Bus) (blocks : Nat) : Prop where
  some : 1 ≤ blocks
  most : blocks ≤ 128
  active : bus.copyActive = true
  left : bus.io.read copyControl = UInt8.ofNat (blocks - 1)

/-- A copy in progress shows one less than the blocks that are left. -/
theorem LineCopy.withCopy_self {bus : Bus} {blocks : Nat} (copies : bus.LineCopy blocks) :
    bus.withCopy true (UInt8.ofNat (blocks - 1)) = bus := by
  have io : bus.io.write copyControl (UInt8.ofNat (blocks - 1)) = bus.io := by
    apply Block.ext_read
    intro cell _
    rw [Block.read_write _ _ (by decide)]
    split
    · rename_i same
      rw [← same, copies.left]
    · rfl
  unfold withCopy setIo
  dsimp only
  rw [io, ← copies.active]

/-- A count that is not zero shows as a byte that is not, and the next lower one as the next lower
byte. -/
theorem count_succ {count : Nat} (few : count + 1 < 0x80) :
    UInt8.ofNat (count + 1) ≠ 0 ∧ UInt8.ofNat (count + 1) - 1 = UInt8.ofNat count := by
  constructor
  · intro none
    have zero := congrArg UInt8.toNat none
    rw [UInt8.toNat_ofNat'] at zero
    change (count + 1) % 2 ^ 8 = 0 at zero
    omega
  · rw [UInt8.ofNat_add]
    exact UInt8.add_sub_cancel _ _

/-- The lines go on with a copy until its blocks are moved, and then leave it alone. -/
theorem LineCopy.iterate_eq {bus : Bus} {blocks : Nat} (copies : bus.LineCopy blocks)
    (avoids : bus.SourceAvoids blocks) (lines : Nat) :
    copyLineBlock^[lines] bus =
      if lines < blocks then
        (bus.afterBlocks lines).withCopy true (UInt8.ofNat (blocks - 1 - lines))
      else (bus.afterBlocks blocks).withCopy false 0xff := by
  have most := copies.most
  induction lines with
  | zero =>
    rw [Function.iterate_zero_apply, if_pos (Nat.lt_of_succ_le copies.some)]
    exact copies.withCopy_self.symm
  | succ lines ih =>
    rw [Function.iterate_succ_apply', ih]
    by_cases more : lines < blocks
    · have next := next_block (· ≠ 0xff55) avoids more
      rw [if_pos more, copyLineBlock_withCopy next, count_and_mask (by omega),
        copyBlocks_afterBlocks]
      by_cases last : lines + 1 = blocks
      · have none : blocks - 1 - lines = 0 := by omega
        have zero : UInt8.ofNat 0 = 0 := rfl
        rw [none, if_pos zero, if_neg (Nat.not_lt_of_le (Nat.le_of_eq last.symm)), last]
      · obtain ⟨rest, number⟩ : ∃ rest, blocks - 1 - lines = rest + 1 :=
          ⟨blocks - 1 - (lines + 1), by omega⟩
        have next : blocks - 1 - (lines + 1) = rest := by omega
        obtain ⟨some, less⟩ : UInt8.ofNat (rest + 1) ≠ 0 ∧ _ := count_succ (by omega)
        rw [number, if_neg some, less, if_pos (by omega), next]
    · rw [if_neg more, if_neg (by omega)]
      exact copyLineBlock_of_idle rfl

/-- A copy of one block per line, from its start to its last line. -/
theorem iterate_copyLineBlock {bus : Bus} {count : Nat} (few : count < 0x80)
    (avoids : bus.SourceAvoids (count + 1)) :
    copyLineBlock^[count + 1] (bus.withCopy true (UInt8.ofNat count)) =
      (bus.copyBlocks (count + 1)).withCopy false 0xff := by
  have copies : (bus.withCopy true (UInt8.ofNat count)).LineCopy (count + 1) :=
    ⟨Nat.succ_pos count, few, rfl, control_withCopy _ _ _⟩
  have avoids' : (bus.withCopy true (UInt8.ofNat count)).SourceAvoids (count + 1) := by
    unfold SourceAvoids
    rw [copySource_withCopy]
    exact avoids
  rw [copies.iterate_eq avoids', if_neg (Nat.lt_irrefl _), afterBlocks, copyBlocks_withCopy avoids,
    withCopy_withCopy]

/-! ## Stores to the register -/

theorem write_control {bus : Bus} (color : bus.color = true) (value : UInt8) :
    bus.write 0xff55 value = bus.controlCopy value := if_pos color

/-- With bit 7 set a copy of one block per line begins. -/
theorem write_control_start {bus : Bus} (color : bus.color = true) {value : UInt8}
    (start : value &&& 0x80 ≠ 0) :
    bus.write 0xff55 value = bus.withCopy true (value &&& 0x7f) := by
  rw [write_control color, controlCopy, if_neg start]
  rfl

/-- With bit 7 clear a copy in progress stops, ... -/
theorem write_control_stop {bus : Bus} (color : bus.color = true) (active : bus.copyActive = true)
    {value : UInt8} (stop : value &&& 0x80 = 0) :
    bus.write 0xff55 value = bus.withCopy false (bus.io.read copyControl ||| 0x80) := by
  rw [write_control color, controlCopy, if_pos stop, if_pos active]
  rfl

/-- ... and if there is none, all blocks move at once. -/
theorem write_control_general {bus : Bus} (color : bus.color = true)
    (idle : bus.copyActive = false) {value : UInt8} (general : value &&& 0x80 = 0) :
    bus.write 0xff55 value =
      (bus.copyBlocks ((value &&& 0x7f).toNat + 1)).withCopy false 0xff := by
  have rests : ¬ bus.copyActive = true := by simp [idle]
  have kept (count : Nat) :
      ({ bus.copyBlocks count with copyActive := false } : Bus) = bus.copyBlocks count := by
    rw [copyBlocks_eq, ← idle]
  rw [write_control color, controlCopy, if_pos general, if_neg rests, withCopy, kept]

/-- One block per line and all blocks at once are the same copy. Unless it reads the register that
shows its progress, which differs on the way, a copy cut into lines leaves the whole bus as a
general copy of as many blocks does; addresses that wrap and blocks that overlap are no exception.
What that is, is told for a source that the copy does not change: every byte is the one that stood
there before. -/
theorem line_copies_eq_general {bus : Bus} (color : bus.color = true)
    (idle : bus.copyActive = false) {count : Nat} (some : 1 ≤ count) (most : count ≤ 128)
    (avoids : bus.SourceAvoids count) :
    let general := bus.write 0xff55 (UInt8.ofNat (count - 1))
    copyLineBlock^[count] (bus.write 0xff55 (0x80 ||| UInt8.ofNat (count - 1))) = general ∧
      (bus.videoBank ≤ 1 →
        (∀ i < 16 * count, Region.ofAddress (bus.copySource + UInt16.ofNat i) ≠ .videoRam) →
        bus.MovesBlocks general count) := by
  obtain ⟨less, rfl⟩ : ∃ less, count = less + 1 := ⟨count - 1, by omega⟩
  have few : less < 0x80 := by omega
  have masked := count_and_mask few
  have begins (value : UInt8) : (0x80 ||| value) &&& 0x80 ≠ 0 ∧
      (0x80 ||| value) &&& 0x7f = value &&& 0x7f := by
    revert value
    exact forall_byte (by decide +kernel)
  have number : (UInt8.ofNat less &&& 0x7f).toNat = less := by
    rw [masked, UInt8.toNat_ofNat']
    omega
  have clear : UInt8.ofNat less &&& 0x80 = 0 := by
    rw [← masked, UInt8.and_assoc]
    exact UInt8.and_zero
  rw [Nat.add_sub_cancel, write_control_general color idle clear, number,
    write_control_start color (begins _).1, (begins _).2, masked]
  refine ⟨iterate_copyLineBlock few avoids, ?_⟩
  intro bank outside
  have fresh : ∀ i j, i < j → j < 16 * (less + 1) →
      Region.ofAddress (bus.copySource + UInt16.ofNat j) = .videoRam →
      bus.videoCell (bus.copySource + UInt16.ofNat j) ≠
        bus.videoCell (bus.copyTarget + UInt16.ofNat i) :=
    fun _ j _ within inside => absurd inside (outside j within)
  exact (copyBlocks_moves bank (by omega) fresh).withCopy false 0xff

/-- A copy whose source runs past the end of the address space and whose target runs past the end
of the bank. -/
def wrapping : Bus where
  cartridge := .ofProgram (Array.replicate 0x100 0x5a) #[]
  color := true
  videoBank := 1
  io := copyPage (.filled _ 0) 0xffe0 0x1ff0
  highRam := .filled _ 0xa5

/-- Three lines on that bus leave what a general copy of three blocks leaves, past both ends. -/
theorem line_copies_eq_general_wrapping :
    wrapping.color = true ∧ wrapping.copyActive = false ∧ wrapping.SourceAvoids 3 ∧
      copyLineBlock^[3] (wrapping.write 0xff55 0x82) = wrapping.write 0xff55 0x02 ∧
      wrapping.MovesBlocks (wrapping.write 0xff55 0x02) 3 := by
  have source : wrapping.copySource = 0xffe0 := by decide +kernel
  have avoids : wrapping.SourceAvoids 3 := by
    unfold SourceAvoids
    rw [source]
    decide +kernel
  have outside : ∀ i < 16 * 3,
      Region.ofAddress (wrapping.copySource + UInt16.ofNat i) ≠ .videoRam := by
    rw [source]
    decide +kernel
  obtain ⟨same, moves⟩ :=
    line_copies_eq_general (rfl : wrapping.color = true) rfl (by decide : 1 ≤ 3) (by decide) avoids
  exact ⟨rfl, rfl, avoids, same, moves (by decide) outside⟩

end Bus

end Handheld
