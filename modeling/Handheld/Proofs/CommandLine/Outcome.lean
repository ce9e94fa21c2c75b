import Handheld.Proofs.CommandLine.Desk
import Handheld.Proofs.CommandLine.Numerals

/-!
# How a run ends

`Obstacle` lists what keeps a run from its frames, in the order in which it looks, and `Start` what
it starts with if nothing does; one of the two is always so, and never both. `run_outcome` says of
each what the run ends with, prints and stores: before the frames nothing is touched, and after
them even a fault does not keep the RAM from being stored.
-/
namespace Handheld

namespace Run

/-- The file at the path is the image of this cartridge. -/
def Holds (files : Files) (path : String) (cartridge : Cartridge) : Prop :=
  ∃ image, files.read path = .ok image ∧ Cartridge.load image = .ok cartridge

/-- The number of frames is one, and the image is that of this cartridge. -/
structure Inserts (files : Files) (arguments : Arguments) (frames : Nat) (cartridge : Cartridge) :
    Prop where
  counted : Text.Denotes arguments.frames.toList frames
  holds : Holds files arguments.image cartridge

/-- What keeps the frames from being run. Each is only looked for if there is none before it, and so
a run has one of them at most. -/
inductive Obstacle (files : Files) (arguments : Arguments) : Failure → Prop
  | frames {reason : Text.NumeralError}
    (uncounted : ∀ number, ¬ Text.Denotes arguments.frames.toList number)
    (told : Text.readNumeral arguments.frames.toList = .error reason) :
    Obstacle files arguments (.frameCount reason)
  | image {frames : Nat} {reason : FileError}
    (counted : Text.Denotes arguments.frames.toList frames)
    (unread : files.read arguments.image = .error reason) :
    Obstacle files arguments (.reading arguments.image reason)
  | header {frames : Nat} {image : Bytes} {reason : LoadError}
    (counted : Text.Denotes arguments.frames.toList frames)
    (read : files.read arguments.image = .ok image)
    (refused : Cartridge.load image = .error reason) :
    Obstacle files arguments (.loading arguments.image reason)
  | save {frames : Nat} {cartridge : Cartridge} {reason : FileError}
    (inserted : Inserts files arguments frames cartridge)
    (keeps : keepsRam arguments cartridge = true)
    (there : files.has (savePath arguments.image) = true)
    (unread : files.read (savePath arguments.image) = .error reason) :
    Obstacle files arguments (.reading (savePath arguments.image) reason)

/-- How many frames are to be run, and with which cartridge: the one of the image, with the saved
RAM in it if it is to be kept and there is a save file. -/
inductive Start (files : Files) (arguments : Arguments) : Nat → Cartridge → Prop
  | fresh {frames : Nat} {cartridge : Cartridge}
    (inserted : Inserts files arguments frames cartridge)
    (unsaved : keepsRam arguments cartridge = true →
      files.has (savePath arguments.image) = false) :
    Start files arguments frames cartridge
  | restored {frames : Nat} {cartridge : Cartridge} {saved : Bytes}
    (inserted : Inserts files arguments frames cartridge)
    (keeps : keepsRam arguments cartridge = true)
    (there : files.has (savePath arguments.image) = true)
    (read : files.read (savePath arguments.image) = .ok saved) :
    Start files arguments frames (cartridge.loadRam saved)

/-- How a run ends that has stored what there is to store. -/
def ending : Option Console.Breakdown → Except Failure Unit
  | none => .ok ()
  | some stop => .error (.stopped stop.fault)

variable {files : Files} {arguments : Arguments}

/-- A path has one file, and a file makes one cartridge. -/
theorem Holds.unique {path : String} {cartridge other : Cartridge}
    (holds : Holds files path cartridge) (again : Holds files path other) : other = cartridge := by
  obtain ⟨image, read, loaded⟩ := holds
  obtain ⟨image', read', loaded'⟩ := again
  cases read.symm.trans read'
  cases loaded.symm.trans loaded'
  rfl

/-- Either something is in the way or the frames are run. -/
theorem obstacle_or_start (files : Files) (arguments : Arguments) :
    (∃ failure, Obstacle files arguments failure) ∨
      ∃ frames cartridge, Start files arguments frames cartridge := by
  cases count : Text.readNumeral arguments.frames.toList with
  | error reason =>
    refine .inl ⟨_, .frames (fun number named => ?_) count⟩
    rw [Text.readNumeral_eq_ok_iff.mpr named] at count
    contradiction
  | ok frames =>
    have counted := Text.readNumeral_eq_ok_iff.mp count
    cases read : files.read arguments.image with
    | error reason => exact .inl ⟨_, .image counted read⟩
    | ok image =>
      cases loaded : Cartridge.load image with
      | error reason => exact .inl ⟨_, .header counted read loaded⟩
      | ok cartridge =>
        have inserted : Inserts files arguments frames cartridge := ⟨counted, image, read, loaded⟩
        cases keeps : keepsRam arguments cartridge with
        | false => exact .inr ⟨_, _, .fresh inserted (by simp [keeps])⟩
        | true =>
          cases there : files.has (savePath arguments.image) with
          | false => exact .inr ⟨_, _, .fresh inserted fun _ => there⟩
          | true =>
            cases saved : files.read (savePath arguments.image) with
            | error reason => exact .inl ⟨_, .save inserted keeps there saved⟩
            | ok saved => exact .inr ⟨_, _, .restored inserted keeps there ‹_›⟩

theorem Start.inserted {frames : Nat} {cartridge : Cartridge}
    (start : Start files arguments frames cartridge) :
    ∃ fresh, Inserts files arguments frames fresh ∧ cartridge.make = fresh.make := by
  cases start with
  | fresh inserted => exact ⟨_, inserted, rfl⟩
  | restored inserted => exact ⟨_, inserted, Cartridge.make_loadRam _ _⟩

theorem Start.unique {frames others : Nat} {cartridge other : Cartridge}
    (start : Start files arguments frames cartridge) (again : Start files arguments others other) :
    others = frames ∧ other = cartridge := by
  have counts {fresh second : Cartridge} (inserted : Inserts files arguments frames fresh)
      (again : Inserts files arguments others second) : others = frames ∧ second = fresh := by
    have count := Text.readNumeral_eq_ok_iff.mpr inserted.counted
    cases count.symm.trans (Text.readNumeral_eq_ok_iff.mpr again.counted)
    exact ⟨rfl, inserted.holds.unique again.holds⟩
  cases start with
  | fresh inserted unsaved =>
    cases again with
    | fresh second => exact counts inserted second
    | restored second keeps there =>
      obtain ⟨_, rfl⟩ := counts inserted second
      simp [unsaved keeps] at there
  | restored inserted keeps there read =>
    cases again with
    | fresh second unsaved =>
      obtain ⟨_, rfl⟩ := counts inserted second
      simp [unsaved keeps] at there
    | restored second _ _ read' =>
      cases read.symm.trans read'
      obtain ⟨same, rfl⟩ := counts inserted second
      exact ⟨same, rfl⟩

/-- Nothing is in the way of frames that are run. -/
theorem Start.no_obstacle {frames : Nat} {cartridge : Cartridge} {failure : Failure}
    (start : Start files arguments frames cartridge) : ¬ Obstacle files arguments failure := by
  obtain ⟨fresh, inserted, _⟩ := start.inserted
  obtain ⟨image, read, loaded⟩ := inserted.holds
  intro obstacle
  cases obstacle with
  | frames uncounted => exact uncounted frames inserted.counted
  | image _ unread => simp [read] at unread
  | header _ other refused =>
    rw [read] at other
    cases other
    simp [loaded] at refused
  | save again keeps there unread =>
    cases start with
    | fresh inserted unsaved =>
      cases inserted.holds.unique again.holds
      simp [unsaved keeps] at there
    | restored _ _ _ saved => simp [saved] at unread

/-- Whether RAM is kept depends on the arguments and the make of the cartridge, so it is the same
before the frames and behind them. -/
theorem keepsRam_congr {cartridge other : Cartridge} (same : other.make = cartridge.make) :
    keepsRam arguments other = keepsRam arguments cartridge := by
  have header : other.header = cartridge.header := congrArg Cartridge.Make.header same
  rw [keepsRam, keepsRam, header]

/-- The cartridge stays of its make from the start to the end. -/
theorem make_of_plays {cartridge : Cartridge} {frames : Nat} {stop : Option Console.Breakdown}
    {console : Console Lcd} (plays : (consoleFor arguments cartridge).Plays frames stop console) :
    console.machine.bus.cartridge.make = cartridge.make := by
  refine Console.kept_plays (Bus.kept_make cartridge.make) plays ?_
  exact congrArg Cartridge.make (Bus.cartridge_powerOn cartridge _)

/-- Behind stored RAM only a fault of the frames makes the exit code other than zero. -/
theorem exitCode_ending (stop : Option Console.Breakdown) :
    exitCode (ending stop) = 0 ↔ stop = none := by
  cases stop <;> simp [ending, exitCode]

/-! ## What a run does on a desk -/

/-- What is left of a run behind its frames. -/
def conclude (arguments : Arguments) (played : Option Console.Breakdown × Console Lcd) :
    ExceptT Failure (StateM Desk) Unit := do
  store arguments played.2.machine.bus.cartridge
  if let some stop := played.1 then
    throw (.stopped stop.fault)

theorem whole_eq : (whole arguments : ExceptT Failure (StateM Desk) Unit) =
    (frameCount arguments >>= fun frames =>
      readImage arguments >>= fun image =>
      insert arguments image >>= fun cartridge =>
      restore arguments cartridge >>= fun cartridge =>
      play arguments cartridge frames >>= conclude arguments) := rfl

section

variable {desk : Desk} {frames : Nat} {cartridge : Cartridge}

theorem on_frameCount_of_denotes (counted : Text.Denotes arguments.frames.toList frames) :
    desk.on (frameCount arguments) = (.ok frames, desk) := by
  rw [on_frameCount, Text.readNumeral_eq_ok_iff.mpr counted]
  rfl

theorem on_readImage_of_read {image : Bytes} (read : desk.files.read arguments.image = .ok image) :
    desk.on (readImage arguments) = (.ok image, desk) := by
  rw [on_readImage, read]
  rfl

/-- With an image that can be used a run comes to the save file, and only its log has grown. -/
theorem on_whole_of_inserts (inserted : Inserts desk.files arguments frames cartridge) :
    ∃ log, desk.on (whole arguments) = { desk with log }.on (restore arguments cartridge >>=
      fun cartridge => play arguments cartridge frames >>= conclude arguments) := by
  obtain ⟨image, read, loaded⟩ := inserted.holds
  obtain ⟨log, inserting⟩ := on_insert desk arguments image
  rw [loaded] at inserting
  refine ⟨log, ?_⟩
  rw [whole_eq, Desk.on_bind_of_ok (on_frameCount_of_denotes inserted.counted),
    Desk.on_bind_of_ok (on_readImage_of_read read), Desk.on_bind_of_ok inserting]

/-- Obstacle by obstacle: the run fails with it, and only its log has grown. -/
theorem on_whole_of_obstacle {failure : Failure}
    (obstacle : Obstacle desk.files arguments failure) :
    ∃ log, desk.on (whole arguments) = (.error failure, { desk with log }) := by
  cases obstacle with
  | frames _ told =>
    have counting := on_frameCount desk arguments
    rw [told] at counting
    refine ⟨desk.log, ?_⟩
    rw [whole_eq, Desk.on_bind_of_error counting]
  | image counted unread =>
    have reading := on_readImage desk arguments
    rw [unread] at reading
    refine ⟨desk.log, ?_⟩
    rw [whole_eq, Desk.on_bind_of_ok (on_frameCount_of_denotes counted),
      Desk.on_bind_of_error reading]
  | @header _ image _ counted read refused =>
    obtain ⟨log, inserting⟩ := on_insert desk arguments image
    rw [refused] at inserting
    refine ⟨log, ?_⟩
    rw [whole_eq, Desk.on_bind_of_ok (on_frameCount_of_denotes counted),
      Desk.on_bind_of_ok (on_readImage_of_read read), Desk.on_bind_of_error inserting]
  | save inserted keeps there unread =>
    obtain ⟨log, ran⟩ := on_whole_of_inserts inserted
    refine ⟨log, ?_⟩
    rw [ran, Desk.on_bind_of_error (on_restore_of_unread { desk with log } keeps there unread)]

/-- The cartridge that starts is the one that is restored. The log may hold any lines before. -/
theorem on_restore_of_start (start : Start desk.files arguments frames cartridge) :
    ∃ fresh, Inserts desk.files arguments frames fresh ∧
      ∀ log, ∃ more, { desk with log }.on (restore arguments fresh) =
        (.ok cartridge, { desk with log := more }) := by
  cases start with
  | fresh inserted unsaved =>
    refine ⟨_, inserted, fun log => ⟨log, ?_⟩⟩
    cases keeps : keepsRam arguments cartridge with
    | false => exact on_restore_of_unkept _ keeps
    | true => exact on_restore_of_missing _ keeps (unsaved keeps)
  | restored inserted keeps there read =>
    exact ⟨_, inserted, fun log => on_restore_of_read { desk with log } keeps there read⟩

/-- The frames are run, what was sent is printed, and the rest of the run follows. -/
theorem on_whole_of_start (start : Start desk.files arguments frames cartridge)
    {stop : Option Console.Breakdown} {console : Console Lcd}
    (plays : (consoleFor arguments cartridge).Plays frames stop console) :
    ∃ log, desk.on (whole arguments) =
      { desk with printed := desk.printed ++ console.machine.bus.sent, log }.on
        (conclude arguments (stop, console)) := by
  obtain ⟨fresh, inserted, restored⟩ := on_restore_of_start start
  obtain ⟨before, ran⟩ := on_whole_of_inserts inserted
  obtain ⟨between, restored⟩ := restored before
  obtain ⟨log, played⟩ := on_play { desk with log := between } arguments plays
  refine ⟨log, ?_⟩
  rw [ran, Desk.on_bind_of_ok restored, Desk.on_bind_of_ok played]

section

variable {stop : Option Console.Breakdown} {console : Console Lcd} {after : Desk}

/-- A fault that ended the frames ends the run, if nothing else has. -/
theorem on_conclude_of_store
    (stored : desk.on (store arguments console.machine.bus.cartridge) = (.ok (), after)) :
    desk.on (conclude arguments (stop, console)) = (ending stop, after) := by
  rw [conclude, Desk.on_bind_of_ok stored]
  cases stop <;> rfl

/-- RAM that could not be stored is what the run reports, whatever the frames ended with. -/
theorem on_conclude_of_failure {failure : Failure}
    (failed : desk.on (store arguments console.machine.bus.cartridge) = (.error failure, after)) :
    desk.on (conclude arguments (stop, console)) = (.error failure, after) := by
  rw [conclude, Desk.on_bind_of_error failed]

end

theorem carryOut_of_obstacle {failure : Failure}
    (obstacle : Obstacle desk.files arguments failure) :
    ∃ log, desk.carryOut arguments = (.error failure, { desk with log }) := by
  obtain ⟨_, ran⟩ := on_whole_of_obstacle obstacle
  obtain ⟨log, failed⟩ := carryOut_of_on ran
  exact ⟨log, failed⟩

/-- What a run ends with behind its frames, and the files that it leaves, of which the one at the
save path holds the RAM if it is to be kept. A fault of the frames does not keep the RAM from being
stored. -/
inductive Close (files : Files) (arguments : Arguments) (cartridge : Cartridge)
    (stop : Option Console.Breakdown) (ram : Bytes) : Except Failure Unit → Files → Prop
  | unkept (drops : keepsRam arguments cartridge = false) :
    Close files arguments cartridge stop ram (ending stop) files
  | stored {after : Files} (keeps : keepsRam arguments cartridge = true)
    (written : files.write (savePath arguments.image) ram = .ok after) :
    Close files arguments cartridge stop ram (ending stop) after
  | refused {reason : FileError} (keeps : keepsRam arguments cartridge = true)
    (unwritten : files.write (savePath arguments.image) ram = .error reason) :
    Close files arguments cartridge stop ram (.error (.writing (savePath arguments.image) reason))
      files

/-- From a start, the command ends as `Close` has it, with what the console sent printed. -/
theorem carryOut_of_start (start : Start desk.files arguments frames cartridge)
    {stop : Option Console.Breakdown} {console : Console Lcd}
    (plays : (consoleFor arguments cartridge).Plays frames stop console) :
    ∃ outcome files log,
      Close desk.files arguments cartridge stop console.machine.bus.cartridge.board.ram
        outcome files ∧
      desk.carryOut arguments =
        (outcome, { files, printed := desk.printed ++ console.machine.bus.sent, log }) := by
  obtain ⟨log, ran⟩ := on_whole_of_start start plays
  have same : keepsRam arguments console.machine.bus.cartridge = keepsRam arguments cartridge :=
    keepsRam_congr (make_of_plays plays)
  cases keeps : keepsRam arguments cartridge with
  | false =>
    rw [on_conclude_of_store (on_store_of_unkept _ (same.trans keeps))] at ran
    obtain ⟨log, ran⟩ := carryOut_of_on ran
    exact ⟨_, _, log, .unkept keeps, ran⟩
  | true =>
    cases written : desk.files.write (savePath arguments.image)
        console.machine.bus.cartridge.board.ram with
    | ok files =>
      obtain ⟨more, stored⟩ := on_store_of_written
        { desk with printed := desk.printed ++ console.machine.bus.sent, log }
        (same.trans keeps) written
      rw [on_conclude_of_store stored] at ran
      obtain ⟨log, ran⟩ := carryOut_of_on ran
      exact ⟨_, _, log, .stored keeps written, ran⟩
    | error reason =>
      have unstored := on_store_of_unwritten
        { desk with printed := desk.printed ++ console.machine.bus.sent, log }
        (same.trans keeps) written
      rw [on_conclude_of_failure unstored] at ran
      obtain ⟨log, ran⟩ := carryOut_of_on ran
      exact ⟨_, _, log, .refused keeps written, ran⟩

/-- All that a run can do. -/
theorem carryOut_cases (desk : Desk) (arguments : Arguments) :
    (∃ failure log, Obstacle desk.files arguments failure ∧
      desk.carryOut arguments = (.error failure, { desk with log })) ∨
    ∃ frames cartridge stop console outcome files log,
      Start desk.files arguments frames cartridge ∧
      (consoleFor arguments cartridge).Plays frames stop console ∧
      Close desk.files arguments cartridge stop console.machine.bus.cartridge.board.ram
        outcome files ∧
      desk.carryOut arguments =
        (outcome, { files, printed := desk.printed ++ console.machine.bus.sent, log }) := by
  rcases obstacle_or_start desk.files arguments with
    ⟨failure, obstacle⟩ | ⟨frames, cartridge, start⟩
  · obtain ⟨log, ran⟩ := carryOut_of_obstacle obstacle
    exact .inl ⟨failure, log, obstacle, ran⟩
  · obtain ⟨stop, console, plays⟩ := (consoleFor arguments cartridge).exists_plays frames
    obtain ⟨outcome, files, log, close, ran⟩ := carryOut_of_start start plays
    exact .inr ⟨frames, cartridge, stop, console, outcome, files, log, start, plays, close, ran⟩

/-- A run of no frames stores what it has restored. -/
theorem carryOut_of_no_frames {files : Files} {cartridge : Cartridge}
    (start : Start desk.files arguments 0 cartridge) (keeps : keepsRam arguments cartridge = true)
    (written : desk.files.write (savePath arguments.image) cartridge.board.ram = .ok files) :
    (desk.carryOut arguments).1 = .ok () ∧ (desk.carryOut arguments).2.files = files := by
  have plays : (consoleFor arguments cartridge).Plays 0 none (consoleFor arguments cartridge) :=
    .whole (.none _)
  have inserted : (consoleFor arguments cartridge).machine.bus.cartridge = cartridge :=
    Bus.cartridge_powerOn cartridge _
  obtain ⟨outcome, after, log, close, ran⟩ := carryOut_of_start start plays
  rw [inserted] at close
  rw [ran]
  cases close with
  | unkept drops =>
    rw [keeps] at drops
    cases drops
  | stored _ again =>
    cases written.symm.trans again
    exact ⟨rfl, rfl⟩
  | refused _ unwritten => cases written.symm.trans unwritten

end

end Run

open Run in
/-- A run ends with the first obstacle, with exit code 1, and has then neither printed nor stored
anything. Without one it runs its frames until all are done or one fails, prints what was sent up to
there, and then, if the RAM is to be kept, stores it, to the byte and with nothing else touched. It
ends well if no frame failed and nothing was in the way of storing the RAM, and of these two
failures reports the latter. Either there is an obstacle or the run starts, so that no run is left
out. -/
theorem run_outcome {desk after : Desk} {arguments : Arguments} {outcome : Except Failure Unit}
    (ran : desk.carryOut arguments = (outcome, after)) :
    ((∃ failure, Obstacle desk.files arguments failure) ↔
      ¬ ∃ frames cartridge, Start desk.files arguments frames cartridge) ∧
    (∀ failure, Obstacle desk.files arguments failure →
      outcome = .error failure ∧ exitCode outcome = 1 ∧
      after.files = desk.files ∧ after.printed = desk.printed) ∧
    ∀ frames cartridge, Start desk.files arguments frames cartridge →
      ∃ stop console, (consoleFor arguments cartridge).Plays frames stop console ∧
        let path := savePath arguments.image
        let ram := console.machine.bus.cartridge.board.ram
        let keeps := arguments.save = true ∧ cartridge.header.battery = true
        after.printed = desk.printed ++ console.machine.bus.sent ∧
        (¬ keeps → outcome = ending stop ∧ after.files = desk.files) ∧
        (∀ files, keeps → desk.files.write path ram = .ok files →
          outcome = ending stop ∧ after.files.read path = .ok ram ∧
          ∀ place, desk.files.find path ≠ .ok place → after.files place = desk.files place) ∧
        (∀ reason, keeps → desk.files.write path ram = .error reason →
          outcome = .error (.writing path reason) ∧ after.files = desk.files) ∧
        (exitCode outcome = 0 ↔
          stop = none ∧ ¬ (keeps ∧ ∃ reason, desk.files.write path ram = .error reason)) := by
  refine ⟨⟨?apart, ?either⟩, ?early, ?late⟩
  case apart =>
    rintro ⟨failure, obstacle⟩ ⟨frames, cartridge, start⟩
    exact start.no_obstacle obstacle
  case either =>
    intro unstarted
    exact (obstacle_or_start desk.files arguments).resolve_right unstarted
  case early =>
    intro failure obstacle
    obtain ⟨log, failed⟩ := carryOut_of_obstacle obstacle
    cases ran.symm.trans failed
    exact ⟨rfl, rfl, rfl, rfl⟩
  case late =>
    intro frames cartridge start
    obtain ⟨stop, console, plays⟩ := (consoleFor arguments cartridge).exists_plays frames
    refine ⟨stop, console, plays, ?_⟩
    intro path ram keeps
    have asked : keeps ↔ keepsRam arguments cartridge = true := by
      rw [keepsRam, Bool.and_eq_true]
    obtain ⟨result, files, log, close, done⟩ := carryOut_of_start start plays
    cases ran.symm.trans done
    cases close with
    | unkept drops =>
      have unasked : ¬ keeps := by simp [asked, drops]
      refine ⟨rfl, fun _ => ⟨rfl, rfl⟩, fun _ kept => absurd kept unasked,
        fun _ kept => absurd kept unasked, ?_⟩
      simp [exitCode_ending, unasked]
    | stored stores written =>
      refine ⟨rfl, fun unasked => absurd (asked.mpr stores) unasked, ?_, ?_, ?_⟩
      · intro files _ other
        cases written.symm.trans other
        exact ⟨rfl, Files.read_of_write written, fun _ => Files.write_elsewhere written⟩
      · intro reason _ unwritten
        cases written.symm.trans unwritten
      · have free : ∀ reason, desk.files.write path ram ≠ .error reason := by
          simp [written, path, ram]
        simp [exitCode_ending, free]
    | @refused reason stores unwritten =>
      refine ⟨rfl, fun unasked => absurd (asked.mpr stores) unasked, ?_, ?_, ?_⟩
      · intro files _ written
        cases unwritten.symm.trans written
      · intro other _ again
        cases unwritten.symm.trans again
        exact ⟨rfl, rfl⟩
      · have failed : keeps ∧ ∃ reason, desk.files.write path ram = .error reason :=
          ⟨asked.mpr stores, reason, unwritten⟩
        simp [exitCode, failed]

/-- The image of a cartridge with a battery. Its program stores a byte in the RAM, sends it, and
comes to a byte that names no instruction. -/
def faultyImage : Bytes :=
  let program : Bytes :=
    #[0x3e, 0x0a, 0xea, 0x00, 0x00, 0xea, 0x00, 0xa0, 0xe0, 0x01, 0x3e, 0x81, 0xe0, 0x02, 0xd3]
  Array.replicate 0x100 0 ++ program ++ Array.replicate 0x38 0 ++ #[3, 0, 1, 0, 0, 0, 0, 0, 0]

/-- The cartridge that it loads as. -/
def faultyCartridge : Cartridge where
  header := { title := "", color := .none, boardCode := 0x03, ramCode := 0x01 }
  board := .fresh faultyImage 0x800 (.mbc1 {})

theorem load_faultyImage : Cartridge.load faultyImage = .ok faultyCartridge := by
  have header : Header.ofImage? faultyImage = some faultyCartridge.header := by decide +kernel
  rw [Cartridge.load, header]
  rfl

/-- What the system says of a file that may not be written to. -/
def denied : FileError := .other "Permission denied (os error 13)"

/-- An image with a save file that can be read and not be written to. -/
def sealedDesk : Desk where
  files := (Files.empty.add "game.gb" (.file faultyImage)).add "game.sav" (.readOnly #[7] denied)

/-- One frame, with the RAM to be kept. -/
def oneFrame : Arguments where
  frames := "1"
  save := true
  image := "game.gb"

open Run in
/-- The frame fails and the save file cannot be written to: what the frame sent is printed, and of
the two failures the second is reported. -/
theorem run_outcome_denied :
    Start sealedDesk.files oneFrame 1 (faultyCartridge.loadRam #[7]) ∧
      (sealedDesk.carryOut oneFrame).1 = .error (.writing "game.sav" denied) ∧
      (sealedDesk.carryOut oneFrame).2.files = sealedDesk.files ∧
      (sealedDesk.carryOut oneFrame).2.printed = #[0x0a] ∧
      exitCode (sealedDesk.carryOut oneFrame).1 ≠ 0 := by
  have found : sealedDesk.files.find "game.gb" = .ok ⟨false, ["game.gb".toList]⟩ := by rfl
  have read : sealedDesk.files.read "game.gb" = .ok faultyImage := by
    rw [Files.read, found]
    rfl
  have path : savePath "game.gb" = "game.sav" := by rfl
  have there : sealedDesk.files.has "game.sav" = true := by rfl
  have saved : sealedDesk.files.read "game.sav" = .ok #[7] := by rfl
  have unwritten (content : Bytes) :
      sealedDesk.files.write "game.sav" content = .error denied := by rfl
  have one : Text.Denotes oneFrame.frames.toList 1 := Text.readNumeral_eq_ok_iff.mp (by rfl)
  have start : Start sealedDesk.files oneFrame 1 (faultyCartridge.loadRam #[7]) :=
    .restored ⟨one, faultyImage, read, load_faultyImage⟩ (by rfl) (path ▸ there) (path ▸ saved)
  have faults : ((consoleFor oneFrame (faultyCartridge.loadRam #[7])).runFrames 0 1).1.isSome ∧
      ((consoleFor oneFrame (faultyCartridge.loadRam #[7])).runFrames 0 1).2.machine.bus.sent =
        #[0x0a] := by
    decide +kernel
  refine ⟨start, ?_⟩
  cases ran : sealedDesk.carryOut oneFrame with
  | mk outcome after =>
    obtain ⟨stop, console, plays, printed, _, _, refused, code⟩ := (run_outcome ran).2.2 _ _ start
    rw [Console.runFrames_of_plays plays] at faults
    obtain ⟨reported, same⟩ := refused denied ⟨rfl, rfl⟩ (unwritten _)
    refine ⟨reported, same, ?_, ?_⟩
    · rw [printed, faults.2]
      rfl
    · rw [Ne, code]
      rintro ⟨rfl, _⟩
      simp at faults

end Handheld
