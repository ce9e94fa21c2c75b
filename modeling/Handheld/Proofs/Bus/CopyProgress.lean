import Mathlib.Data.List.Induction
import Handheld.Proofs.Bus.Blocks
import Handheld.Proofs.Bus.Selection

/-!
# The progress of a copy of one block per line

Whether a copy is in progress is kept twice, in a flag that no program sees and in bit 7 of the
copy register; the other bits count the blocks left, less one. Stores that start, restart or stop a
copy, general copies, blocks copied and the last block all change both. `copy_progress` says what
the register shows after any history, and that a copy moves the blocks that were requested, one for
each line.
-/
namespace Handheld.Bus

/-- Whether an action is a store to the copy register. Only these begin or end a copy ahead of its
last line. -/
def Action.Controls (action : Action) : Prop := ∃ value, action = .write 0xff55 value

/-- The blocks that a copy in progress has still to move. -/
def blocksLeft (bus : Bus) : Nat :=
  if bus.copyActive then (bus.io.read copyControl).toNat + 1 else 0

/-- How many of the lines found a copy in progress. Each of them moves one block, by
`copyLineBlock_moves`. -/
def linesServed (bus : Bus) : List Action → Nat
  | [] => 0
  | action :: rest =>
    (if action = .copyLineBlock ∧ bus.copyActive = true then 1 else 0) +
      (bus.perform action).linesServed rest

/-- The register shows whether a copy is in progress, and the banks are those there are. This is the
invariant that stores, lines and all other actions keep; the count in the register is not part of
it. -/
structure ShowsCopy (bus : Bus) : Prop where
  color : bus.color = true
  bank : bus.videoBank ≤ 1
  shows : bus.copyActive = true ↔ bus.io.read copyControl &&& 0x80 = 0

variable {bus : Bus}

/-! ## What actions leave alone -/

/-- Stores to other ports do not reach the copy. They may choose another bank. -/
theorem write_keeps_copy {address : UInt16} (bus : Bus) (value : UInt8)
    (apart : address ≠ 0xff55) :
    (bus.write address value).color = bus.color ∧
      (bus.write address value).copyActive = bus.copyActive ∧
      (bus.videoBank ≤ 1 → (bus.write address value).videoBank ≤ 1) := by
  have chosen := bus.selection_write address value
  have color := congrArg Selection.color chosen
  have copyActive := congrArg Selection.copyActive chosen
  have videoBank : (bus.write address value).videoBank = _ := congrArg Selection.videoBank chosen
  refine ⟨color.trans (bus.selection.color_store value),
    copyActive.trans (bus.selection.copyActive_store value apart), fun bank => ?_⟩
  rw [videoBank]
  exact bus.selection.videoBank_store_le value bank

/-- An action is a store, the end of a line, or has no part in the copy. -/
theorem perform_cases (bus : Bus) (action : Action) :
    (∃ address value, action = .write address value) ∨ action = .copyLineBlock ∨
      (∀ address value, action ≠ .write address value) ∧ action ≠ .copyLineBlock ∧
        (bus.perform action).color = bus.color ∧
        (bus.perform action).videoBank = bus.videoBank ∧
        (bus.perform action).copyActive = bus.copyActive ∧
        (bus.perform action).io = bus.io := by
  cases action with
  | write address value => exact .inl ⟨address, value, rfl⟩
  | copyLineBlock => exact .inr (.inl rfl)
  | release key => exact .inr (.inr ⟨nofun, nofun, rfl, rfl, rfl, rfl⟩)
  | tick clocks =>
    obtain ⟨timer, interrupts, ticked⟩ := bus.tick_frame clocks
    rw [perform, ticked]
    exact .inr (.inr ⟨nofun, nofun, rfl, rfl, rfl, rfl⟩)
  | press key =>
    obtain ⟨joypad, interrupts, pressed⟩ := bus.press_frame key
    rw [perform, pressed]
    exact .inr (.inr ⟨nofun, nofun, rfl, rfl, rfl, rfl⟩)
  | switchSpeed =>
    obtain ⟨speedArmed, doubleSpeed, timer, switched⟩ := bus.switchSpeed_frame
    rw [perform, switched]
    exact .inr (.inr ⟨nofun, nofun, rfl, rfl, rfl, rfl⟩)

/-! ## The register and the flag agree -/

theorem ShowsCopy.withCopy (shows : bus.ShowsCopy) {active : Bool} {shown : UInt8}
    (agrees : active = true ↔ shown &&& 0x80 = 0) : (bus.withCopy active shown).ShowsCopy where
  color := shows.color
  bank := shows.bank
  shows := by
    rw [control_withCopy]
    exact agrees

theorem ShowsCopy.copyBlocks (shows : bus.ShowsCopy) (count : Nat) :
    (bus.copyBlocks count).ShowsCopy := by
  have control := bus.control_copyBlocks count
  obtain ⟨videoRam, io, copied⟩ := bus.copyBlocks_frame count
  rw [copied] at control ⊢
  exact ⟨shows.color, shows.bank, control ▸ shows.shows⟩

/-- The step for a store: to the copy's register, or to another port that may select a bank. -/
theorem ShowsCopy.write (shows : bus.ShowsCopy) (address : UInt16) (value : UInt8) :
    (bus.write address value).ShowsCopy := by
  have masked (byte : UInt8) : byte &&& 0x7f &&& 0x80 = 0 ∧ (byte ||| 0x80) &&& 0x80 ≠ 0 := by
    revert byte
    refine forall_byte ?_
    decide +kernel
  by_cases control : address = 0xff55
  · subst control
    by_cases start : value &&& 0x80 = 0
    · cases running : bus.copyActive with
      | true =>
        rw [write_control_stop shows.color running start]
        exact shows.withCopy (by simp [masked])
      | false =>
        rw [write_control_general shows.color running start]
        exact (shows.copyBlocks _).withCopy (iff_of_false nofun (by decide))
    · rw [write_control_start shows.color start]
      exact shows.withCopy (by simp [masked])
  · obtain ⟨color, active, bank⟩ := bus.write_keeps_copy value control
    have register : (bus.write address value).io.read copyControl = bus.io.read copyControl :=
      bus.io_write_of_ne value control (by decide)
    refine ⟨color.trans shows.color, ?bank, ?shows⟩
    case bank => exact bank shows.bank
    case shows =>
      rw [active, register]
      exact shows.shows

/-- A block count in the register has bit 7 clear, and so has the next lower one. -/
theorem shown_of_active {shown : UInt8} (running : shown &&& 0x80 = 0) :
    shown &&& 0x7f = shown ∧ (shown ≠ 0 → (shown - 1) &&& 0x80 = 0 ∧
      (shown - 1).toNat + 1 = shown.toNat) := by
  have table (byte : UInt8) : byte &&& 0x80 = 0 → byte &&& 0x7f = byte ∧
      (byte ≠ 0 → (byte - 1) &&& 0x80 = 0 ∧ (byte - 1).toNat + 1 = byte.toNat) := by
    revert byte
    refine forall_byte ?_
    decide +kernel
  exact table shown running

theorem ShowsCopy.copyLineBlock (shows : bus.ShowsCopy) : bus.copyLineBlock.ShowsCopy := by
  cases running : bus.copyActive with
  | false =>
    rw [copyLineBlock_of_idle running]
    exact shows
  | true =>
    obtain ⟨masked, less⟩ := shown_of_active (shows.shows.mp running)
    rw [copyLineBlock_of_active running]
    dsimp only
    rw [masked]
    split
    · exact (shows.copyBlocks 1).withCopy (iff_of_false nofun (by decide))
    · rename_i more
      exact (shows.copyBlocks 1).withCopy (by simp [less more])

theorem ShowsCopy.perform (shows : bus.ShowsCopy) (action : Action) :
    (bus.perform action).ShowsCopy := by
  obtain ⟨address, value, rfl⟩ | rfl | ⟨_, _, color, bank, active, io⟩ := bus.perform_cases action
  · exact shows.write address value
  · exact shows.copyLineBlock
  · refine ⟨color.trans shows.color, bank ▸ shows.bank, ?_⟩
    rw [active, io]
    exact shows.shows

theorem ShowsCopy.performAll (shows : bus.ShowsCopy) (actions : List Action) :
    (bus.performAll actions).ShowsCopy := by
  induction actions generalizing bus with
  | nil => exact shows
  | cons action rest ih => exact ih (shows.perform action)

/-- No store of the start-up program goes to the copy register, which then shows no copy. -/
theorem showsCopy_powerOn (cartridge : Cartridge) :
    (powerOn cartridge true).ShowsCopy ∧ (powerOn cartridge true).copyActive = false := by
  have elsewhere : ∀ byte ∈ startupWrites, byte.1 ≠ 0xff55 := by simp [startupWrites]
  obtain ⟨started, ⟨color, bank, idle⟩, power⟩ :=
    powerOn_induction
      (motive := fun bus => bus.color = true ∧ bus.videoBank ≤ 1 ∧ bus.copyActive = false)
      cartridge true ⟨rfl, (by decide : (0 : UInt8) ≤ 1), rfl⟩ (by
        intro bus byte member ⟨color, bank, idle⟩
        obtain ⟨sameColor, sameActive, newBank⟩ :=
          bus.write_keeps_copy byte.2 (elsewhere byte member)
        exact ⟨sameColor.trans color, newBank bank, sameActive.trans idle⟩)
  rw [power]
  refine ⟨⟨color, bank, ?_⟩, idle⟩
  have register : (started.setIo copyControl 0xff).io.read copyControl = 0xff :=
    Block.read_write_self _ _ (by decide)
  rw [register]
  exact iff_of_false (fun active => by cases idle.symm.trans active) (by decide)

/-! ## The blocks left -/

theorem active_iff_blocksLeft (bus : Bus) : bus.copyActive = true ↔ 0 < bus.blocksLeft := by
  unfold blocksLeft
  split
  · rename_i active
    simp [active]
  · rename_i idle
    simp [idle]

theorem blocksLeft_withCopy (bus : Bus) (active : Bool) (shown : UInt8) :
    (bus.withCopy active shown).blocksLeft = if active then shown.toNat + 1 else 0 := by
  rw [blocksLeft, control_withCopy]
  rfl

theorem blocksLeft_of_same {after : Bus} (active : after.copyActive = bus.copyActive)
    (control : after.io.read copyControl = bus.io.read copyControl) :
    after.blocksLeft = bus.blocksLeft := by
  unfold blocksLeft
  rw [active, control]

/-- A store to the register with bit 7 set requests blocks; any other leaves none to be moved. -/
theorem blocksLeft_write_control (shows : bus.ShowsCopy) (value : UInt8) :
    (bus.write 0xff55 value).blocksLeft =
      if value &&& 0x80 = 0 then 0 else (value &&& 0x7f).toNat + 1 := by
  split
  · rename_i clear
    cases running : bus.copyActive with
    | true =>
      rw [write_control_stop shows.color running clear]
      exact blocksLeft_withCopy _ _ _
    | false =>
      rw [write_control_general shows.color running clear]
      exact blocksLeft_withCopy _ _ _
  · rename_i start
    rw [write_control_start shows.color start]
    exact blocksLeft_withCopy _ _ _

/-- The end of a line takes one block off, and none where none is left. -/
theorem blocksLeft_copyLineBlock (shows : bus.ShowsCopy) :
    bus.copyLineBlock.blocksLeft = bus.blocksLeft - 1 := by
  cases running : bus.copyActive with
  | false =>
    rw [copyLineBlock_of_idle running, blocksLeft, if_neg (by simp [running])]
  | true =>
    obtain ⟨masked, less⟩ := shown_of_active (shows.shows.mp running)
    have left : bus.blocksLeft = (bus.io.read copyControl).toNat + 1 := if_pos running
    rw [copyLineBlock_of_active running, left, Nat.add_sub_cancel]
    dsimp only
    rw [masked]
    split
    · rename_i last
      rw [last]
      exact blocksLeft_withCopy _ _ _
    · rename_i more
      rw [blocksLeft_withCopy]
      exact (less more).2

/-- Without a store to the register, each line takes one block off those left. -/
theorem blocksLeft_perform (shows : bus.ShowsCopy) {action : Action} (plain : ¬ action.Controls) :
    (bus.perform action).blocksLeft =
      bus.blocksLeft - if action = .copyLineBlock then 1 else 0 := by
  obtain ⟨address, value, rfl⟩ | rfl | ⟨_, other, _, _, active, io⟩ := bus.perform_cases action
  · have apart : address ≠ 0xff55 := fun same => plain ⟨value, by rw [same]⟩
    obtain ⟨_, active, _⟩ := bus.write_keeps_copy value apart
    rw [if_neg nofun, Nat.sub_zero]
    exact blocksLeft_of_same active (bus.io_write_of_ne value apart (by decide))
  · rw [if_pos rfl]
    exact blocksLeft_copyLineBlock shows
  · rw [if_neg other, Nat.sub_zero]
    exact blocksLeft_of_same active (by rw [io])

/-- The blocks that a copy moves are those that were left, as far as there are lines. -/
theorem linesServed_eq (shows : bus.ShowsCopy) {actions : List Action}
    (plain : ∀ action ∈ actions, ¬ action.Controls) :
    (bus.performAll actions).blocksLeft = bus.blocksLeft - actions.count .copyLineBlock ∧
      bus.linesServed actions = min bus.blocksLeft (actions.count .copyLineBlock) := by
  induction actions generalizing bus with
  | nil => simp [performAll, linesServed]
  | cons action rest ih =>
    have first := blocksLeft_perform shows (plain action List.mem_cons_self)
    obtain ⟨left, served⟩ := ih (shows.perform action)
      fun other member => plain other (List.mem_cons_of_mem _ member)
    have active := bus.active_iff_blocksLeft
    have split : bus.performAll (action :: rest) = (bus.perform action).performAll rest := rfl
    rw [split, left, linesServed, served, first, List.count_cons]
    by_cases line : action = .copyLineBlock
    · simp only [line, active, beq_self_eq_true, if_true, true_and]
      split <;> omega
    · simp [line]

/-- A copy in progress was requested by the last store to the register. -/
theorem request_of_active (shows : bus.ShowsCopy) (idle : bus.copyActive = false)
    {actions : List Action} (active : (bus.performAll actions).copyActive = true) :
    ∃ before request later, actions = before ++ .write 0xff55 request :: later ∧
      request &&& 0x80 ≠ 0 ∧ ∀ action ∈ later, ¬ action.Controls := by
  induction actions using List.reverseRecOn with
  | nil => cases idle.symm.trans active
  | append_singleton front last ih =>
    have reached := shows.performAll front
    have step : bus.performAll (front ++ [last]) = (bus.performAll front).perform last :=
      bus.performAll_append front [last]
    rw [step, active_iff_blocksLeft] at active
    by_cases controls : last.Controls
    · obtain ⟨request, rfl⟩ := controls
      refine ⟨front, request, [], rfl, ?_, nofun⟩
      intro clear
      have none := blocksLeft_write_control reached request
      rw [if_pos clear] at none
      change 0 < ((bus.performAll front).write 0xff55 request).blocksLeft at active
      omega
    · have less := blocksLeft_perform reached controls
      have before : (bus.performAll front).copyActive = true := by
        rw [active_iff_blocksLeft]
        omega
      obtain ⟨early, request, later, rfl, start, plain⟩ := ih before
      refine ⟨early, request, later ++ [last], by simp, start, ?_⟩
      intro action member
      obtain earlier | new := List.mem_append.mp member
      · exact plain action earlier
      · rw [List.mem_singleton.mp new]
        exact controls

/-- The register of a copy in progress counts the lines since its request down from the blocks
requested. -/
theorem shown_since_request (shows : bus.ShowsCopy) (idle : bus.copyActive = false)
    {actions : List Action} (active : (bus.performAll actions).copyActive = true) :
    ∃ before request later, actions = before ++ .write 0xff55 request :: later ∧
      request &&& 0x80 ≠ 0 ∧ (∀ action ∈ later, ¬ action.Controls) ∧
      ((bus.performAll actions).io.read copyControl).toNat + 1 + later.count .copyLineBlock =
        (request &&& 0x7f).toNat + 1 := by
  obtain ⟨before, request, later, rfl, start, plain⟩ := request_of_active shows idle active
  refine ⟨before, request, later, rfl, start, plain, ?_⟩
  have reached := shows.performAll before
  have requested := blocksLeft_write_control reached request
  obtain ⟨left, _⟩ := linesServed_eq (reached.write 0xff55 request) plain
  have split : bus.performAll (before ++ .write 0xff55 request :: later) =
      ((bus.performAll before).write 0xff55 request).performAll later :=
    performAll_append _ before (.write 0xff55 request :: later)
  have some : (bus.performAll (before ++ .write 0xff55 request :: later)).blocksLeft =
      ((bus.performAll (before ++ .write 0xff55 request :: later)).io.read copyControl).toNat + 1 :=
    if_pos active
  rw [if_neg start] at requested
  rw [← split, requested] at left
  omega

/-- As many lines as there are blocks, and no more, find a requested copy in progress. -/
theorem linesServed_request (shows : bus.ShowsCopy) {request : UInt8}
    (start : request &&& 0x80 ≠ 0) {later : List Action}
    (plain : ∀ action ∈ later, ¬ action.Controls) :
    let requested := bus.write 0xff55 request
    let blocks := (request &&& 0x7f).toNat + 1
    requested.linesServed later = min blocks (later.count .copyLineBlock) ∧
      ((requested.performAll later).copyActive = true ↔ later.count .copyLineBlock < blocks) := by
  intro requested blocks
  have asked : requested.blocksLeft = blocks :=
    (blocksLeft_write_control shows request).trans (if_neg start)
  obtain ⟨left, served⟩ := linesServed_eq (shows.write 0xff55 request) plain
  change (requested.performAll later).blocksLeft = _ at left
  refine ⟨asked ▸ served, ?_⟩
  rw [active_iff_blocksLeft, left, asked]
  omega

/-! ## The protocol -/

theorem read_control (color : bus.color = true) : bus.read 0xff55 = bus.io.read copyControl :=
  if_pos color

/-- A line that finds a copy in progress moves one block. As sources and targets are multiples of
sixteen, the block is the one that stood there before even where the copy reads its own target. -/
theorem copyLineBlock_moves (shows : bus.ShowsCopy) (active : bus.copyActive = true) :
    bus.MovesBlocks bus.copyLineBlock 1 := by
  have source := toNat_and_block (word (bus.io.read copySourceHigh) (bus.io.read copySourceLow))
  have target := toNat_and_target (word (bus.io.read copyTargetHigh) (bus.io.read copyTargetLow))
  rw [← copySource] at source
  rw [← copyTarget] at target
  have fresh : ∀ i j, i < j → j < 16 * 1 →
      Region.ofAddress (bus.copySource + UInt16.ofNat j) = .videoRam →
      bus.videoCell (bus.copySource + UInt16.ofNat j) ≠
        bus.videoCell (bus.copyTarget + UInt16.ofNat i) := by
    intro i j before within _
    rw [videoCell_eq, videoCell_eq, toNat_add_ofNat, toNat_add_ofNat]
    omega
  have moves := copyBlocks_moves shows.bank (by decide) fresh
  rw [copyLineBlock_of_active active]
  dsimp only
  split
  · exact moves.withCopy false 0xff
  · exact moves.withCopy true _

/-- The copy register of a colour machine, after any history since power-on. Bit 7 is clear if and
only if a copy is in progress. Such a copy was requested by the last store to the register, and the
other bits count the lines since then down from the blocks requested, less one. While it is in
progress the bank of video RAM is locked, a line moves one block, and a store with bit 7 clear stops
it and shows what is left with bit 7 set. Without one a line does nothing. And of the lines that
follow a request as many move a block as were requested, if there are so many; the copy ends with
the last of them. -/
theorem copy_progress (cartridge : Cartridge) (actions : List Action) :
    let bus := (powerOn cartridge true).performAll actions
    (bus.copyActive = true ↔ bus.read 0xff55 &&& 0x80 = 0) ∧
      (bus.copyActive = true →
        ∃ before request later, actions = before ++ .write 0xff55 request :: later ∧
          request &&& 0x80 ≠ 0 ∧ (∀ action ∈ later, ¬ action.Controls) ∧
          (bus.read 0xff55).toNat + 1 + later.count .copyLineBlock =
            (request &&& 0x7f).toNat + 1) ∧
      (bus.copyActive = true →
        (∀ value, bus.write 0xff4f value = bus) ∧ bus.MovesBlocks bus.copyLineBlock 1 ∧
          ∀ value, value &&& 0x80 = 0 →
            let stopped := bus.write 0xff55 value
            stopped = bus.withCopy false (bus.read 0xff55 ||| 0x80) ∧
              stopped.read 0xff55 = bus.read 0xff55 ||| 0x80) ∧
      (bus.copyActive = false → bus.copyLineBlock = bus) ∧
      ∀ request later, request &&& 0x80 ≠ 0 → (∀ action ∈ later, ¬ action.Controls) →
        let requested := bus.write 0xff55 request
        let blocks := (request &&& 0x7f).toNat + 1
        requested.linesServed later = min blocks (later.count .copyLineBlock) ∧
          ((requested.performAll later).copyActive = true ↔
            later.count .copyLineBlock < blocks) := by
  obtain ⟨fresh, idle⟩ := showsCopy_powerOn cartridge
  intro bus
  have shows : bus.ShowsCopy := fresh.performAll actions
  have register := read_control shows.color
  refine ⟨?flag, ?shown, ?running, copyLineBlock_of_idle, ?request⟩
  case flag =>
    rw [register]
    exact shows.shows
  case shown =>
    rw [register]
    exact shown_since_request fresh idle
  case running =>
    intro active
    refine ⟨?bank, copyLineBlock_moves shows active, ?stop⟩
    case bank =>
      intro value
      have locked : ¬ (bus.color && !bus.copyActive) = true := by simp [active]
      exact if_neg locked
    case stop =>
      intro value clear stopped
      have stop : stopped = bus.withCopy false (bus.read 0xff55 ||| 0x80) := by
        rw [register]
        exact write_control_stop shows.color active clear
      have shown : stopped.read 0xff55 = stopped.io.read copyControl :=
        read_control (stop ▸ shows.color)
      refine ⟨stop, ?_⟩
      rw [shown, stop, control_withCopy]
  case request =>
    intro request later start plain
    exact linesServed_request shows start plain

end Handheld.Bus
