import Handheld.Proofs.Lcd.LineCopies

/-!
# What the LCD may touch

The LCD stores to the line and to the low three bits of the status register. While it is on and a
copy of one block per line is in progress, it also lets that copy have its blocks, which fill the
bank of video RAM that shows and move the copy's own registers on. Nothing else on the bus is
changed, however many lines and pictures a step goes through: `step_within_seam`.
-/
namespace Handheld

namespace Bus

/-- The status bits that are no business of the LCD. -/
abbrev statusKept : UInt8 := 0xf8

/-- The buses differ at most in what the LCD may touch.
`frame`: all fields are the same but video RAM, the I/O page and the mark of a copy in progress.
`page`: of the I/O page only the line, the status and the registers of the copy may differ,
`status`: the status in its low three bits only.
`hidden`: the bank of video RAM that does not show is the same.
`idle`: without a copy in progress there are but the line and the status to differ in. -/
structure SameButVideo (bus later : Bus) : Prop where
  frame : ∃ videoRam io copyActive, later = { bus with videoRam, io, copyActive }
  page : ∀ cell, cell ∉ Lcd.storedCells → later.io.read cell = bus.io.read cell
  status : later.io.read lcdStatus &&& statusKept = bus.io.read lcdStatus &&& statusKept
  hidden : ∀ place, place / 0x2000 ≠ bus.videoBank.toNat →
    later.videoRam.read place = bus.videoRam.read place
  idle : bus.copyActive = false → bus.SameButShown later

variable {bus later : Bus}

/-! ## Block copies fill the bank that shows -/

/-- A cell of the bank that shows lies in that bank, whatever the address. -/
theorem videoCell_bank (bus : Bus) (address : UInt16) :
    bus.videoCell address / 0x2000 = bus.videoBank.toNat := by
  rw [videoCell_eq]
  omega

theorem copiedRam_hidden (bus : Bus) (source target : UInt16) (count : Nat) {place : Nat}
    (other : place / 0x2000 ≠ bus.videoBank.toNat) :
    (bus.copiedRam source target count).read place = bus.videoRam.read place := by
  induction count with
  | zero => rfl
  | succ count ih =>
    have apart (address : UInt16) : bus.videoCell address ≠ place := by
      rintro rfl
      exact other (bus.videoCell_bank address)
    rw [copiedRam, copyVideo_succ, copyVideo_eq]
    exact (Block.read_write_of_ne _ _ (apart _)).trans ih

theorem copyLineBlock_hidden (bus : Bus) {place : Nat}
    (other : place / 0x2000 ≠ bus.videoBank.toNat) :
    bus.copyLineBlock.videoRam.read place = bus.videoRam.read place := by
  have copied : (bus.copyBlocks 1).videoRam.read place = bus.videoRam.read place := by
    rw [copyBlocks_eq]
    exact bus.copiedRam_hidden _ _ _ other
  cases running : bus.copyActive with
  | false => rw [copyLineBlock_of_idle running]
  | true =>
    rw [copyLineBlock_of_active running]
    dsimp only
    split
    · rw [videoRam_withCopy, copied]
    · rw [videoRam_withCopy, copied]

/-! ## What the LCD does to the bus -/

namespace SameButVideo

/-- The relation is reflexive and transitive: parts of a step within the seam make a step within
it. -/
theorem refl (bus : Bus) : bus.SameButVideo bus :=
  ⟨⟨_, _, _, rfl⟩, fun _ _ => rfl, rfl, fun _ _ => rfl, fun _ => .refl bus⟩

theorem trans {latest : Bus} (first : bus.SameButVideo later)
    (second : later.SameButVideo latest) : bus.SameButVideo latest where
  frame := by
    obtain ⟨_, _, _, rfl⟩ := first.frame
    obtain ⟨videoRam, io, copyActive, rfl⟩ := second.frame
    exact ⟨videoRam, io, copyActive, rfl⟩
  page cell untouched := (second.page cell untouched).trans (first.page cell untouched)
  status := second.status.trans first.status
  hidden place other := by
    have bank : later.videoBank = bus.videoBank := by
      obtain ⟨_, _, _, rfl⟩ := first.frame
      rfl
    exact (second.hidden place (bank ▸ other)).trans (first.hidden place other)
  idle rests := by
    have shown := first.idle rests
    exact shown.trans (second.idle (shown.copyActive.trans rests))

/-- Where only the two registers differ, the status must keep the bits of the program. -/
theorem of_shown (same : bus.SameButShown later)
    (status : later.io.read lcdStatus &&& statusKept = bus.io.read lcdStatus &&& statusKept) :
    bus.SameButVideo later where
  frame := by
    obtain ⟨io, rfl⟩ := same.frame
    exact ⟨_, io, _, rfl⟩
  page cell untouched :=
    same.io cell (fun line => untouched (line ▸ by decide))
      fun status => untouched (status ▸ by decide)
  status := status
  hidden place _ := by rw [same.videoRam]
  idle _ := same

theorem setLine (bus : Bus) (value : UInt8) : bus.SameButVideo (bus.setIo line value) := by
  refine of_shown (.setIo bus (.inl rfl) value) ?_
  rw [Lcd.status_shown]

theorem setStatus (bus : Bus) {value : UInt8}
    (kept : value &&& statusKept = bus.io.read lcdStatus &&& statusKept) :
    bus.SameButVideo (bus.setIo lcdStatus value) := by
  have stored : (bus.setIo lcdStatus value).io.read lcdStatus = value :=
    Block.read_write_self _ _ (by decide)
  refine of_shown (.setIo bus (.inr rfl) value) ?_
  rw [stored, kept]

/-- A block changes video RAM in the bank that shows and the registers of the copy, and nothing if
no copy is in progress. -/
theorem copyLineBlock (bus : Bus) : bus.SameButVideo bus.copyLineBlock where
  frame := bus.copyLineBlock_frame
  page _ untouched := bus.io_copyLineBlock fun register =>
    untouched (List.mem_cons_of_mem _ (List.mem_cons_of_mem _ register))
  status := by rw [bus.io_copyLineBlock Lcd.status_not_copied]
  hidden _ other := bus.copyLineBlock_hidden other
  idle rests := by
    rw [copyLineBlock_of_idle rests]
    exact .refl bus

/-- Every address reads the same but those of video RAM, the two registers of the LCD and the
register that shows how far a copy is. The other cells that may differ show at no port. -/
theorem read (same : bus.SameButVideo later) {address : UInt16}
    (outside : Region.ofAddress address ≠ .videoRam)
    (ports : address ∉ [0xff41, 0xff44, 0xff55]) : later.read address = bus.read address := by
  have page := same.page
  obtain ⟨videoRam, io, copyActive, rfl⟩ := same.frame
  simp only [List.mem_cons, List.not_mem_nil, or_false, not_or] at ports
  obtain ⟨status, line, control⟩ := ports
  unfold Bus.read
  cases region : Region.ofAddress address <;> dsimp only
  case videoRam => exact absurd region outside
  case io =>
    have table : ∀ cell ∈ Lcd.storedCells, IoRegister.ofAddress (port cell) ≠ .objectCopy ∧
        IoRegister.ofAddress (port cell) ≠ .plain := by decide
    have shown (plain : IoRegister.ofAddress address = .objectCopy ∨
        IoRegister.ofAddress address = .plain) :
        io.read (pageCell address) = bus.io.read (pageCell address) := by
      refine page _ fun stored => ?_
      have register := table _ stored
      rw [port_pageCell region] at register
      exact plain.elim register.1 register.2
    unfold readIo
    cases device : IoRegister.ofAddress address <;> rw [device] at shown <;> dsimp only
    case lcdStatus => exact absurd ((IoRegister.ofAddress_eq_iff rfl).mp device) status
    case line => exact absurd ((IoRegister.ofAddress_eq_iff rfl).mp device) line
    case copyControl => exact absurd ((IoRegister.ofAddress_eq_iff rfl).mp device) control
    case serialControl => rw [page serialControl (by decide)]
    case objectCopy | plain => exact shown (by decide)
    all_goals rfl
  all_goals rfl

end SameButVideo

end Bus

namespace Lcd

/-! ## Parts of a step -/

theorem sameButVideo_showLine (lcd : Lcd) (bus : Bus) :
    bus.SameButVideo (lcd.showLine bus).bus := by
  have kept (byte : UInt8) : (byte ||| 0x04) &&& Bus.statusKept = byte &&& Bus.statusKept ∧
      (byte &&& ~~~0x04) &&& Bus.statusKept = byte &&& Bus.statusKept := by
    revert byte
    refine forall_byte ?_
    decide +kernel
  have line := Bus.SameButVideo.setLine bus (UInt8.ofNat lcd.line)
  simp only [showLine]
  split
  · exact line.trans (.setStatus _ (kept _).1)
  · exact line.trans (.setStatus _ (kept _).2)

/-- A new mode stores in two bits of the status, and may let a block be copied before. -/
theorem sameButVideo_showMode (lcd : Lcd) (bus : Bus) :
    bus.SameButVideo (lcd.showMode bus).bus := by
  have kept (mode : Mode) (byte : UInt8) :
      ((byte &&& ~~~0x03) ||| mode.code) &&& Bus.statusKept = byte &&& Bus.statusKept := by
    revert byte
    refine forall_byte ?_
    cases mode <;> decide +kernel
  have copied : bus.SameButVideo (if lcd.modeAt = .hblank then bus.copyLineBlock else bus) := by
    split
    · exact .copyLineBlock bus
    · exact .refl bus
  simp only [showMode]
  split
  · exact .refl bus
  · exact copied.trans (.setStatus _ (kept _ _))

theorem sameButVideo_move (lcd : Lcd) (clocks : Nat) (bus : Bus) :
    bus.SameButVideo (lcd.move clocks bus).bus := by
  simp only [move]
  split
  · rw [nextLine_eq]
    exact (sameButVideo_showLine _ bus).trans (sameButVideo_showMode _ _)
  · exact sameButVideo_showMode _ bus

theorem sameButVideo_run (lcd : Lcd) (clocks : Nat) (bus : Bus) (requests : UInt8) :
    bus.SameButVideo (lcd.run clocks bus requests).bus := by
  fun_induction Lcd.run lcd clocks bus requests with
  | case1 lcd clocks bus requests _ part moved ih => exact (sameButVideo_move lcd part bus).trans ih
  | case2 lcd clocks bus requests => exact .refl bus

/-- A screen that is off rests at the first line and lets no block be copied. -/
theorem sameButShown_park (lcd : Lcd) (bus : Bus) : bus.SameButShown (lcd.park bus).bus :=
  (Bus.SameButShown.setIo bus (.inl rfl) 0).trans (.setIo _ (.inr rfl) _)

theorem sameButVideo_park (lcd : Lcd) (bus : Bus) : bus.SameButVideo (lcd.park bus).bus := by
  have kept (byte : UInt8) : (byte &&& ~~~0x03) &&& Bus.statusKept = byte &&& Bus.statusKept := by
    revert byte
    refine forall_byte ?_
    decide +kernel
  refine .of_shown (lcd.sameButShown_park bus) ?_
  rw [status_park, kept]

/-! ## A step -/

/-- A step of any number of clocks, with the screen on or off, changes nothing on the bus but what
the LCD may touch. Unless the screen is on and a copy of one block per line is in progress, that is
the line and three bits of the status alone. Seen from a program, every address outside video RAM
reads the same but those of these registers and of the copy's progress. -/
theorem step_within_seam (lcd : Lcd) (clocks : Nat) (bus : Bus) :
    let later := (lcd.step clocks bus).bus
    bus.SameButVideo later ∧
      (¬ (On bus ∧ bus.copyActive = true) → bus.SameButShown later) ∧
      ∀ address, Region.ofAddress address ≠ .videoRam → address ∉ [0xff41, 0xff44, 0xff55] →
        later.read address = bus.read address := by
  intro later
  have same : bus.SameButVideo later ∧ (¬ On bus → bus.SameButShown later) := by
    by_cases on : On bus
    · have ran : later = (lcd.run clocks bus 0).bus := congrArg VideoStep.bus (step_of_on lcd on _)
      rw [ran]
      exact ⟨lcd.sameButVideo_run clocks bus 0, fun off => absurd on off⟩
    · have parked : later = (lcd.park bus).bus :=
        congrArg VideoStep.bus (if_pos (not_not.mp on) : lcd.step clocks bus = lcd.park bus)
      rw [parked]
      exact ⟨lcd.sameButVideo_park bus, fun _ => lcd.sameButShown_park bus⟩
  refine ⟨same.1, ?quiet, fun _ => same.1.read⟩
  case quiet =>
    intro quiet
    by_cases on : On bus
    · exact same.1.idle (Bool.eq_false_iff.mpr fun active => quiet ⟨on, active⟩)
    · exact same.2 on

/-- Three pictures with a copy in progress and three without. The first leave the image, the
interrupts that the program enabled and the other bank of video RAM, the second all of video RAM. -/
theorem step_within_seam_copying :
    let after := (({} : Lcd).step 210672 copying).bus
    let idle : Bus := { copying with copyActive := false }
    let afterIdle := (({} : Lcd).step 210672 idle).bus
    after.read 0x00ff = 0x5a ∧ after.read 0xff41 &&& 0xf8 = 0x78 ∧
      after.videoRam.read 0x2000 = 0 ∧
      ¬ (On idle ∧ idle.copyActive = true) ∧ afterIdle.videoRam = idle.videoRam := by
  intro after idle afterIdle
  obtain ⟨same, _, reads⟩ := step_within_seam {} 210672 copying
  obtain ⟨_, quiet, _⟩ := step_within_seam {} 210672 idle
  have rests : ¬ (On idle ∧ idle.copyActive = true) := fun both => Bool.false_ne_true both.2
  have image : after.read 0x00ff = copying.read 0x00ff := reads 0x00ff (by decide) (by decide)
  have hidden : after.videoRam.read 0x2000 = copying.videoRam.read 0x2000 :=
    same.hidden 0x2000 (by decide)
  have shown : idle.SameButShown afterIdle := quiet rests
  refine ⟨image.trans (by decide +kernel), same.status.trans (by decide +kernel),
    hidden.trans (by decide +kernel), rests, shown.videoRam⟩

end Lcd

end Handheld
