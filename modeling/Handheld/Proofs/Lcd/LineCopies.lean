import Handheld.Proofs.Bus.CopyProgress
import Handheld.Proofs.Lcd.ClosedForm

/-!
# Block copies and the picture

A copy of one block per line goes on whenever the LCD brings a line of the picture to rest, until
its own register has counted the blocks down. The LCD also stores to the line and the status
register, before the blocks and between them; a copy from outside the I/O page reads neither, so
that it leaves what the blocks alone would leave. `line_copy_follows_picture` counts the lines that
come to rest during any steps, and says that the copy has moved one block for each.
-/
namespace Handheld

namespace Bus

variable {bus later : Bus}

/-! ## Copies from outside the I/O page -/

/-- So many blocks lie outside the I/O page at the source. -/
def SourceOutsidePage (bus : Bus) (count : Nat) : Prop :=
  ∀ i < 16 * count, Region.ofAddress (bus.copySource + UInt16.ofNat i) ≠ .io

theorem region_ne_io {address : UInt16} (outside : ¬ (0xff00 ≤ address ∧ address ≤ 0xff7f)) :
    Region.ofAddress address ≠ .io := by
  intro inPage
  obtain ⟨low, high⟩ := Region.bounds address
  rw [inPage] at low high
  exact outside ⟨UInt16.le_iff_toNat_le.mpr low, UInt16.le_iff_toNat_le.mpr high⟩

theorem SourceOutsidePage.avoids {count : Nat} (outside : bus.SourceOutsidePage count) :
    bus.SourceAvoids count := by
  intro i before control
  exact outside i before (control ▸ (by decide : Region.ofAddress 0xff55 = .io))

theorem read_of_page (bus : Bus) {io : Block 0x80} {address : UInt16}
    (outside : Region.ofAddress address ≠ .io) :
    ({ bus with io } : Bus).read address = bus.read address := by
  unfold read
  cases region : Region.ofAddress address <;> first | rfl | exact absurd region outside

theorem copyVideo_of_page (bus : Bus) {io : Block 0x80} (source target : UInt16) {count : Nat}
    (outside : ∀ i < count, Region.ofAddress (source + UInt16.ofNat i) ≠ .io) :
    ({ bus with io } : Bus).copyVideo source target count =
      { bus.copyVideo source target count with io } := by
  induction count with
  | zero => rfl
  | succ count ih =>
    have copied := ih fun i before => outside i (Nat.lt_succ_of_lt before)
    rw [copyVideo_succ, copyVideo_succ, copied, copyVideo_eq]
    generalize bus.copiedRam source target count = videoRam
    have reads : ({ bus with videoRam, io } : Bus).read (source + UInt16.ofNat count) =
        ({ bus with videoRam } : Bus).read (source + UInt16.ofNat count) :=
      read_of_page { bus with videoRam } (outside count (Nat.lt_succ_self count))
    dsimp only
    rw [reads]
    rfl

/-! ## Buses that show another line -/

/-- The buses differ in the line and the status register at most. A copy from outside the page
cannot tell them apart. -/
structure SameButShown (bus later : Bus) : Prop where
  frame : ∃ io, later = { bus with io }
  io : ∀ cell, cell ≠ line → cell ≠ lcdStatus → later.io.read cell = bus.io.read cell

namespace SameButShown

/-- The relation is reflexive and transitive: the steps of the LCD that only show something are put
together with those that copy. -/
theorem refl (bus : Bus) : bus.SameButShown bus := ⟨⟨bus.io, rfl⟩, fun _ _ _ => rfl⟩

theorem trans {latest : Bus} (first : bus.SameButShown later) (second : later.SameButShown latest) :
    bus.SameButShown latest where
  frame := by
    obtain ⟨_, rfl⟩ := first.frame
    obtain ⟨io, rfl⟩ := second.frame
    exact ⟨io, rfl⟩
  io cell notLine notStatus :=
    (second.io cell notLine notStatus).trans (first.io cell notLine notStatus)

theorem setIo (bus : Bus) {cell : Nat} (shown : cell = line ∨ cell = lcdStatus) (value : UInt8) :
    bus.SameButShown (bus.setIo cell value) where
  frame := ⟨_, rfl⟩
  io other notLine notStatus := by
    apply read_setIo_of_ne
    rcases shown with rfl | rfl
    · exact notLine.symm
    · exact notStatus.symm

/-- The relation keeps what a copy goes by. The lemmas up to `copyTarget` read it off. -/
theorem copyActive (same : bus.SameButShown later) : later.copyActive = bus.copyActive := by
  obtain ⟨io, rfl⟩ := same.frame
  rfl

theorem videoRam (same : bus.SameButShown later) : later.videoRam = bus.videoRam := by
  obtain ⟨io, rfl⟩ := same.frame
  rfl

theorem color (same : bus.SameButShown later) : later.color = bus.color := by
  obtain ⟨io, rfl⟩ := same.frame
  rfl

/-- The registers of the copy are neither the line nor the status. -/
theorem of_copyRegister (same : bus.SameButShown later) {cell : Nat}
    (register : cell ∈ copyRegisters) : later.io.read cell = bus.io.read cell := by
  have others : ∀ cell ∈ copyRegisters, cell ≠ line ∧ cell ≠ lcdStatus := by decide
  exact same.io cell (others cell register).1 (others cell register).2

theorem copySource (same : bus.SameButShown later) : later.copySource = bus.copySource := by
  rw [Bus.copySource, same.of_copyRegister (by decide), same.of_copyRegister (by decide),
    Bus.copySource]

theorem copyTarget (same : bus.SameButShown later) : later.copyTarget = bus.copyTarget := by
  rw [Bus.copyTarget, same.of_copyRegister (by decide), same.of_copyRegister (by decide),
    Bus.copyTarget]

/-- Blocks from outside the page move alike on both sides, and leave the relation. -/
theorem copyBlocks (same : bus.SameButShown later) {count : Nat}
    (outside : bus.SourceOutsidePage count) :
    (bus.copyBlocks count).SameButShown (later.copyBlocks count) := by
  have source := same.copySource
  have target := same.copyTarget
  have cells := same.io
  obtain ⟨io, rfl⟩ := same.frame
  have ram : ({ bus with io } : Bus).copiedRam bus.copySource bus.copyTarget (16 * count) =
      bus.copiedRam bus.copySource bus.copyTarget (16 * count) := by
    unfold copiedRam
    rw [copyVideo_of_page bus _ _ outside]
  rw [copyBlocks_eq, copyBlocks_eq, source, target, ram]
  refine ⟨⟨_, rfl⟩, fun cell notLine notStatus => ?_⟩
  dsimp only
  rw [read_copyPage, read_copyPage, cells cell notLine notStatus]

theorem withCopy (same : bus.SameButShown later) (active : Bool) (shown : UInt8) :
    (bus.withCopy active shown).SameButShown (later.withCopy active shown) where
  frame := by
    obtain ⟨io, rfl⟩ := same.frame
    exact ⟨_, rfl⟩
  io cell notLine notStatus := by
    by_cases register : copyControl = cell
    · rw [← register, control_withCopy, control_withCopy]
    · rw [read_withCopy_of_ne _ _ _ register, read_withCopy_of_ne _ _ _ register]
      exact same.io cell notLine notStatus

theorem copyLineBlock (same : bus.SameButShown later)
    (outside : bus.copyActive = true → bus.SourceOutsidePage 1) :
    bus.copyLineBlock.SameButShown later.copyLineBlock := by
  cases running : bus.copyActive with
  | false =>
    rw [copyLineBlock_of_idle running, copyLineBlock_of_idle (same.copyActive.trans running)]
    exact same
  | true =>
    have copied := same.copyBlocks (outside running)
    rw [copyLineBlock_of_active running, copyLineBlock_of_active (same.copyActive.trans running),
      same.of_copyRegister (by decide : copyControl ∈ copyRegisters)]
    dsimp only
    split
    · exact copied.withCopy _ _
    · exact copied.withCopy _ _

end SameButShown

/-! ## General copies -/

/-- The count in the register is one less than the blocks that move. -/
theorem write_control_count (color : bus.color = true) (idle : bus.copyActive = false) {count : Nat}
    (few : count < 0x80) :
    bus.write 0xff55 (UInt8.ofNat count) = (bus.copyBlocks (count + 1)).withCopy false 0xff := by
  have masked := count_and_mask few
  have clear : UInt8.ofNat count &&& 0x80 = 0 := by
    rw [← masked, UInt8.and_assoc]
    exact UInt8.and_zero
  have number : (UInt8.ofNat count).toNat = count := by
    rw [UInt8.toNat_ofNat']
    omega
  rw [write_control_general color idle clear, masked, number]

/-- The bus that a general copy of so many blocks leaves, when it finds the same registers and no
copy in progress. -/
def generalCopy (bus : Bus) : Nat → Bus
  | 0 => bus
  | count + 1 => ({ bus with copyActive := false } : Bus).write 0xff55 (UInt8.ofNat count)

theorem generalCopy_succ (color : bus.color = true) {count : Nat} (few : count < 0x80) :
    bus.generalCopy (count + 1) = (bus.afterBlocks (count + 1)).withCopy false 0xff := by
  have stopped : ({ bus with copyActive := false } : Bus).copiedRam bus.copySource bus.copyTarget
      (16 * (count + 1)) = bus.copiedRam bus.copySource bus.copyTarget (16 * (count + 1)) :=
    copiedRam_of_registers bus (fun _ _ => rfl) _ _ fun _ _ _ => rfl
  have colored : ({ bus with copyActive := false } : Bus).color = true := color
  have source : ({ bus with copyActive := false } : Bus).copySource = bus.copySource := rfl
  have target : ({ bus with copyActive := false } : Bus).copyTarget = bus.copyTarget := rfl
  rw [generalCopy, write_control_count colored rfl few, afterBlocks, copyBlocks_eq,
    copyBlocks_eq, source, target, stopped]
  rfl

theorem color_afterBlocks (bus : Bus) (count : Nat) :
    (bus.afterBlocks count).color = bus.color := by
  cases count with
  | zero => rfl
  | succ count =>
    obtain ⟨videoRam, io, copied⟩ := bus.copyBlocks_frame (count + 1)
    rw [afterBlocks, copied]

theorem color_withCopy (bus : Bus) (active : Bool) (shown : UInt8) :
    (bus.withCopy active shown).color = bus.color := rfl

theorem videoRam_withCopy (bus : Bus) (active : Bool) (shown : UInt8) :
    (bus.withCopy active shown).videoRam = bus.videoRam := rfl

/-- A general copy differs from its blocks in the register that controls it. -/
theorem generalCopy_blocks (color : bus.color = true) {count : Nat} (few : count ≤ 128) :
    (bus.generalCopy count).videoRam = (bus.afterBlocks count).videoRam ∧
      ∀ cell, copyControl ≠ cell →
        (bus.generalCopy count).io.read cell = (bus.afterBlocks count).io.read cell := by
  cases count with
  | zero => exact ⟨rfl, fun _ _ => rfl⟩
  | succ count =>
    rw [generalCopy_succ color few]
    exact ⟨videoRam_withCopy _ _ _, fun _ apart => read_withCopy_of_ne _ _ _ apart⟩

/-! ## Some lines of a copy -/

/-- What so many lines leave of a copy, whether it goes on behind them or not. -/
theorem LineCopy.after_lines {blocks : Nat} (copies : bus.LineCopy blocks)
    (outside : bus.SourceOutsidePage blocks) (lines : Nat) :
    Bus.copyLineBlock^[lines] bus =
      (bus.afterBlocks (min lines blocks)).withCopy (lines < blocks)
        (if blocks ≤ lines then 0xff else UInt8.ofNat (blocks - 1 - lines)) := by
  rw [copies.iterate_eq outside.avoids]
  rcases Nat.lt_or_ge lines blocks with more | enough
  · rw [if_pos more, Nat.min_eq_left (Nat.le_of_lt more), if_neg (Nat.not_le_of_lt more),
      decide_eq_true more]
  · rw [if_neg (Nat.not_lt_of_le enough), Nat.min_eq_right enough, if_pos enough,
      decide_eq_false (Nat.not_lt_of_le enough)]

/-- The block that a line moves next lies outside the I/O page with all the others. -/
theorem LineCopy.next_outside {blocks lines : Nat} (copies : bus.LineCopy blocks)
    (outside : bus.SourceOutsidePage blocks)
    (active : (Bus.copyLineBlock^[lines] bus).copyActive = true) :
    (Bus.copyLineBlock^[lines] bus).SourceOutsidePage 1 := by
  rw [copies.after_lines outside] at active ⊢
  have more : lines < blocks := of_decide_eq_true active
  unfold SourceOutsidePage
  rw [copySource_withCopy, Nat.min_eq_left (Nat.le_of_lt more)]
  exact next_block (Region.ofAddress · ≠ .io) outside more

end Bus

namespace Lcd

/-- At this moment a line of some picture comes to rest. -/
def Rests (moment : Nat) : Prop := ∃ line < height, IsAt line transferEnd moment

theorem rests_iff (moment : Nat) :
    Rests moment ↔
      moment % frameClocks / lineClocks < height ∧ moment % lineClocks = transferEnd := by
  show (∃ line < 144, moment % (154 * 456) = line * 456 + 252) ↔
    moment % (154 * 456) / 456 < 144 ∧ moment % 456 = 252
  constructor
  · rintro ⟨line, inPicture, reached⟩
    omega
  · rintro ⟨inPicture, rests⟩
    exact ⟨moment % (154 * 456) / 456, inPicture, by omega⟩

instance : DecidablePred Rests := fun moment => decidable_of_iff _ (rests_iff moment).symm

variable {lcd : Lcd} {bus : Bus}

/-! ## One clock -/

theorem rests_mod (moment : Nat) : Rests (moment % frameClocks) ↔ Rests moment := by
  simp only [Rests, isAt_mod]

theorem Sound.rests_next (sound : lcd.Sound) :
    Rests (lcd.position + 1) ↔ lcd.line < height ∧ lcd.clock + 1 = transferEnd := by
  have clock : lcd.clock < 456 := sound.clock
  have line : lcd.line < 154 := sound.line
  rw [rests_iff]
  show (lcd.line * 456 + lcd.clock + 1) % (154 * 456) / 456 < 144 ∧
      (lcd.line * 456 + lcd.clock + 1) % 456 = 252 ↔
    lcd.line < 144 ∧ lcd.clock + 1 = 252
  omega

/-- The mode of a resting line begins where the line comes to rest, and nowhere else. -/
theorem Settled.begins_hblank (settled : lcd.Settled) :
    ((lcd.advance 1).modeAt ≠ lcd.mode ∧ (lcd.advance 1).modeAt = .hblank) ↔
      lcd.line < height ∧ lcd.clock + 1 = transferEnd := by
  rw [settled.mode]
  unfold modeAt Lcd.advance
  dsimp only
  by_cases blank : height ≤ lcd.line
  · simp [blank]
  · simp only [if_neg blank]
    grind

/-- The line and the outcome of its comparison are all that a new line stores. -/
theorem sameButShown_showLine (lcd : Lcd) (bus : Bus) :
    bus.SameButShown (lcd.showLine bus).bus := by
  have line (value : UInt8) := Bus.SameButShown.setIo bus (.inl rfl : Bus.line = _ ∨ _) value
  simp only [showLine]
  split
  · exact (line _).trans (.setIo _ (.inr rfl) _)
  · exact (line _).trans (.setIo _ (.inr rfl) _)

/-- Of a new mode the status is stored, and at rest a block may move before that. -/
theorem sameButShown_showMode (lcd : Lcd) (bus : Bus) :
    (if lcd.modeAt ≠ lcd.mode ∧ lcd.modeAt = .hblank then bus.copyLineBlock else bus).SameButShown
      (lcd.showMode bus).bus := by
  simp only [showMode]
  by_cases agrees : lcd.modeAt = lcd.mode
  · rw [if_pos agrees, if_neg fun begins => begins.1 agrees]
    exact .refl bus
  · rw [if_neg agrees]
    simp only [ne_eq, agrees, not_false_eq_true, true_and]
    exact .setIo _ (.inr rfl) _

/-- A clock moves a block if it brings a line to rest, and none otherwise. No line rests at its
start, so that the mode that begins there moves nothing. -/
theorem Settled.sameButShown_move_one (settled : lcd.Settled) (bus : Bus) :
    (if Rests (lcd.position + 1) then bus.copyLineBlock else bus).SameButShown
      (lcd.move 1 bus).bus := by
  rcases Nat.lt_or_eq_of_le settled.clock with inLine | last
  · have moved := lcd.move_in_line bus (Nat.ne_of_lt inLine)
    have shown := sameButShown_showMode (lcd.advance 1) bus
    rw [moved]
    simp only [settled.rests_next, ← settled.begins_hblank]
    exact shown
  · have later : ¬ Rests (lcd.position + 1) := by
      rw [settled.rests_next]
      rintro ⟨_, rests⟩
      exact absurd (last.symm.trans rests) (by decide)
    have start : (lcd.advance 1).begun.modeAt ≠ .hblank := by
      have scanning : (lcd.advance 1).begun.clock < scanEnd := (by decide : 0 < scanEnd)
      rw [modeAt, if_pos scanning]
      split <;> decide
    have shown := sameButShown_showMode (lcd.advance 1).begun
      ((lcd.advance 1).begun.showLine bus).bus
    rw [if_neg fun begins => start begins.2] at shown
    rw [if_neg later, move_line_end lcd bus last, nextLine_eq]
    dsimp only
    rw [unit_showLine]
    exact (sameButShown_showLine _ bus).trans shown

/-! ## Any number of clocks -/

/-- The lines of the picture that come to rest during so many clocks. -/
def restsIn (lcd : Lcd) (clocks : Nat) : Nat :=
  ((Finset.Ioc lcd.position (lcd.position + clocks)).filter Rests).card

theorem restsIn_zero (lcd : Lcd) : lcd.restsIn 0 = 0 := by
  simp [restsIn]

theorem restsIn_succ (lcd : Lcd) (clocks : Nat) :
    lcd.restsIn (clocks + 1) =
      lcd.restsIn clocks + if Rests (lcd.position + clocks + 1) then 1 else 0 := by
  have ahead : lcd.position + clocks + 1 ∉
      (Finset.Ioc lcd.position (lcd.position + clocks)).filter Rests := by simp
  unfold restsIn
  rw [passed_succ, Finset.filter_insert]
  split
  · exact Finset.card_insert_of_notMem ahead
  · rfl

/-- The blocks that lines at rest move are all that a step does to video RAM and the copy. -/
theorem Settled.sameButShown_step (settled : lcd.Settled) (on : On bus)
    (outside : ∀ count, (Bus.copyLineBlock^[count] bus).copyActive = true →
      (Bus.copyLineBlock^[count] bus).SourceOutsidePage 1)
    (clocks : Nat) :
    (Bus.copyLineBlock^[lcd.restsIn clocks] bus).SameButShown (lcd.step clocks bus).bus := by
  refine (settled.step_induction
    (motive := fun clocks after =>
      (Bus.copyLineBlock^[lcd.restsIn clocks] bus).SameButShown after.bus)
    on ?start ?next clocks).2.2
  case start =>
    rw [restsIn_zero]
    exact .refl bus
  case next =>
    intro clocks before between place _ same
    have moment : Rests (before.unit.position + 1) ↔ Rests (lcd.position + clocks + 1) := by
      rw [place, ← rests_mod, Nat.mod_add_mod, rests_mod]
    have one := between.sameButShown_move_one before.bus
    rw [restsIn_succ]
    by_cases rests : Rests (lcd.position + clocks + 1)
    · rw [if_pos (moment.mpr rests)] at one
      rw [if_pos rests, Function.iterate_succ_apply']
      exact (same.copyLineBlock (outside _)).trans one
    · rw [if_neg (mt moment.mp rests)] at one
      rw [if_neg rests]
      exact same.trans one

/-- While the screen is on, a copy of one block per line moves a block for each line of the picture
that comes to rest, as long as it has any left, however the clocks are handed over. Video RAM and
the addresses of the copy are then those that a general copy of as many blocks leaves, and the
register counts the rest. A copy from the I/O page is left out, as it may read the line or the
status. Lines of the vertical blank do not rest and move nothing. -/
theorem line_copy_follows_picture {blocks : Nat} (settled : lcd.Settled) (on : On bus)
    (color : bus.color = true) (copies : bus.LineCopy blocks)
    (outside : ∀ i < 16 * blocks, ¬ (0xff00 ≤ bus.copySource + UInt16.ofNat i ∧
      bus.copySource + UInt16.ofNat i ≤ 0xff7f))
    (batches : List Nat) :
    let after := (lcd.steps bus batches).bus
    let lines := lcd.restsIn batches.sum
    let general := bus.generalCopy (min lines blocks)
    after.videoRam = general.videoRam ∧
      (∀ cell ∈ Bus.copyAddresses, after.io.read cell = general.io.read cell) ∧
      after.copySource = bus.copySource + UInt16.ofNat (16 * min lines blocks) ∧
      (after.copyActive = true ↔ lines < blocks) ∧
      after.read 0xff55 = if blocks ≤ lines then 0xff else UInt8.ofNat (blocks - 1 - lines) := by
  intro after lines general
  have page : bus.SourceOutsidePage blocks := fun i before => Bus.region_ne_io (outside i before)
  have same : (Bus.copyLineBlock^[lines] bus).SameButShown after := by
    have shown := settled.sameButShown_step on (fun _ => copies.next_outside page) batches.sum
    rw [← settled.steps_eq on] at shown
    exact shown
  rw [copies.after_lines page] at same
  obtain ⟨ram, cells⟩ :=
    Bus.generalCopy_blocks color ((Nat.min_le_right lines blocks).trans copies.most)
  refine ⟨?videoRam, ?addresses, ?source, ?going, ?control⟩
  case videoRam => rw [same.videoRam, Bus.videoRam_withCopy, ram]
  case addresses =>
    intro cell address
    have others : ∀ cell ∈ Bus.copyAddresses, cell ∈ Bus.copyRegisters ∧ Bus.copyControl ≠ cell :=
      by decide
    obtain ⟨register, apart⟩ := others cell address
    rw [same.of_copyRegister register, Bus.read_withCopy_of_ne _ _ _ apart, cells cell apart]
  case source => rw [same.copySource, Bus.copySource_withCopy, Bus.copySource_afterBlocks]
  case going =>
    rw [same.copyActive]
    exact decide_eq_true_iff
  case control =>
    have colored : after.color = true := by
      rw [same.color, Bus.color_withCopy, Bus.color_afterBlocks, color]
    rw [Bus.read_control colored, same.of_copyRegister (by decide), Bus.control_withCopy]

/-- The last line of the picture comes to rest on the way, and moves one block of two. No line of
the vertical blank that follows moves the other. -/
theorem line_copy_follows_picture_copying :
    let last : Lcd := { clock := 250, line := 143, mode := .transfer }
    let bus := copying.withCopy true 1
    let after := (last.steps bus [1, 1, 203, 1, 500]).bus
    last.Settled ∧ On bus ∧ bus.LineCopy 2 ∧ last.restsIn 706 = 1 ∧
      after.videoRam = (({ bus with copyActive := false } : Bus).write 0xff55 0).videoRam ∧
      after.copySource = 16 ∧ after.copyActive = true ∧ after.read 0xff55 = 0 := by
  intro last bus after
  have settled : last.Settled := ⟨⟨by decide, by decide⟩, by decide⟩
  have on : On bus := by
    have shown : bus.io.read Bus.lcdControl &&& 0x80 = 0x80 := by decide +kernel
    unfold On
    rw [shown]
    decide
  have copies : bus.LineCopy 2 :=
    ⟨by decide, by decide, rfl, Bus.control_withCopy copying true 1⟩
  have source : bus.copySource = 0 := by decide +kernel
  have outside : ∀ i < 16 * 2, ¬ (0xff00 ≤ bus.copySource + UInt16.ofNat i ∧
      bus.copySource + UInt16.ofNat i ≤ 0xff7f) := by
    rw [source]
    decide +kernel
  have one : last.restsIn 706 = 1 := by decide +kernel
  obtain ⟨ram, _, moved, going, shown⟩ :=
    line_copy_follows_picture settled on rfl copies outside [1, 1, 203, 1, 500]
  have sum : [1, 1, 203, 1, 500].sum = 706 := rfl
  rw [sum, one] at ram moved going shown
  rw [source] at moved
  exact ⟨settled, on, copies, one, ram, moved, going.mpr (by decide), shown⟩

end Lcd

end Handheld
