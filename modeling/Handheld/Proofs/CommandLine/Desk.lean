import Handheld.CommandLine.Run
import Handheld.Proofs.Console.Frames

/-!
# Runs on a desk

A desk has no effects of its own, so a run on it is a function: from a desk to how the run ends and
to the desk it leaves. Each part of a run is told here by what it ends with and which part of the
desk it changes. All may add to the log; only the frames print, and only storing the RAM changes a
file.
-/
namespace Handheld

namespace Desk

variable {α β : Type}

/-- What a part of a run ends with on a desk, and the desk that it leaves. -/
def on (desk : Desk) (part : ExceptT Failure (StateM Desk) α) : Except Failure α × Desk :=
  part.run.run desk

/-- A whole command on a desk. -/
def carryOut (desk : Desk) (arguments : Arguments) : Except Failure Unit × Desk :=
  (run arguments : StateM Desk (Except Failure Unit)).run desk

section

variable {part : ExceptT Failure (StateM Desk) α} {next : α → ExceptT Failure (StateM Desk) β}
  {desk after : Desk}

/-- Parts of a run one after the other. A failure ends the run, and the desk stays as the failing
part has left it. -/
theorem on_bind : desk.on (part >>= next) =
    match desk.on part with
    | (.ok value, after) => after.on (next value)
    | (.error failure, after) => (.error failure, after) := by
  simp only [on, ExceptT.run_bind, StateT.run_bind]
  cases part.run.run desk with
  | mk outcome after => cases outcome <;> rfl

theorem on_bind_of_ok {value : α} (ran : desk.on part = (.ok value, after)) :
    desk.on (part >>= next) = after.on (next value) := by
  rw [on_bind, ran]

theorem on_bind_of_error {failure : Failure} (ran : desk.on part = (.error failure, after)) :
    desk.on (part >>= next) = (.error failure, after) := by
  rw [on_bind, ran]

end

end Desk

namespace Run

variable (desk : Desk) (arguments : Arguments)

theorem on_hasFile (path : String) :
    desk.on (ExceptT.lift (Host.hasFile path)) = (.ok (desk.files.has path), desk) := rfl

theorem on_readFile (path : String) :
    desk.on (ExceptT.lift (Host.readFile path)) = (.ok (desk.files.read path), desk) := rfl

/-- A write that fails leaves the files, and is no failure of the run until it is made one. -/
theorem on_writeFile (path : String) (content : Bytes) :
    desk.on (ExceptT.lift (Host.writeFile path content)) =
      match desk.files.write path content with
      | .ok files => (.ok (.ok ()), { desk with files })
      | .error reason => (.ok (.error reason), desk) := by
  cases written : desk.files.write path content with
  | ok files =>
    simp [Desk.on, Host.writeFile, written]
    rfl
  | error reason =>
    simp [Desk.on, Host.writeFile, written]
    rfl

theorem on_log (line : LogLine) :
    desk.on (log line) = (.ok (), { desk with log := desk.log.push line }) := rfl

theorem on_logAll (lines : List LogLine) :
    ∃ written, desk.on (lines.forM log) = (.ok (), { desk with log := written }) := by
  induction lines generalizing desk with
  | nil => exact ⟨desk.log, rfl⟩
  | cons line rest ih =>
    obtain ⟨written, logged⟩ := ih { desk with log := desk.log.push line }
    refine ⟨written, ?_⟩
    change desk.on (log line >>= fun _ => rest.forM log) = _
    rw [Desk.on_bind_of_ok (on_log desk line)]
    exact logged

theorem on_frameCount :
    desk.on (frameCount arguments) =
      ((Text.readNumeral arguments.frames.toList).mapError .frameCount, desk) := rfl

theorem on_readImage :
    desk.on (readImage arguments) =
      ((desk.files.read arguments.image).mapError (.reading arguments.image), desk) := rfl

/-- The image makes a cartridge or a failure, with some lines in the log. -/
theorem on_insert (image : Bytes) :
    ∃ written, desk.on (insert arguments image) =
      ((Cartridge.load image).mapError (.loading arguments.image),
        { desk with log := written }) := by
  obtain ⟨written, logged⟩ := on_logAll desk (LogLine.loading image)
  refine ⟨written, ?_⟩
  rw [insert, Desk.on_bind_of_ok logged]
  rfl

/-! Saved RAM is restored if it is asked for and there is something at the save path. -/

section

variable {arguments} {cartridge : Cartridge}

theorem on_restore_of_unkept (drops : keepsRam arguments cartridge = false) :
    desk.on (restore arguments cartridge) = (.ok cartridge, desk) := by
  rw [restore, if_neg (by simp [drops])]
  rfl

variable (keeps : keepsRam arguments cartridge = true)
include keeps

theorem on_restore_of_missing (missing : desk.files.has (savePath arguments.image) = false) :
    desk.on (restore arguments cartridge) = (.ok cartridge, desk) := by
  have looked := on_hasFile desk (savePath arguments.image)
  rw [missing] at looked
  rw [restore, if_pos keeps]
  dsimp only
  rw [Desk.on_bind_of_ok looked]
  rfl

variable (there : desk.files.has (savePath arguments.image) = true)
include there

theorem on_restore_of_unread {reason : FileError}
    (unread : desk.files.read (savePath arguments.image) = .error reason) :
    desk.on (restore arguments cartridge) =
      (.error (.reading (savePath arguments.image) reason), desk) := by
  have looked := on_hasFile desk (savePath arguments.image)
  have answer := on_readFile desk (savePath arguments.image)
  rw [there] at looked
  rw [unread] at answer
  rw [restore, if_pos keeps]
  dsimp only
  rw [Desk.on_bind_of_ok looked, if_pos rfl, Desk.on_bind_of_ok answer]
  rfl

/-- A save file that can be read goes into the cartridge, however long it is. -/
theorem on_restore_of_read {saved : Bytes}
    (read : desk.files.read (savePath arguments.image) = .ok saved) :
    ∃ written, desk.on (restore arguments cartridge) =
      (.ok (cartridge.loadRam saved), { desk with log := written }) := by
  have looked := on_hasFile desk (savePath arguments.image)
  have answer := on_readFile desk (savePath arguments.image)
  rw [there] at looked
  rw [read] at answer
  refine ⟨desk.log.push (.restored saved.size (savePath arguments.image)), ?_⟩
  rw [restore, if_pos keeps]
  dsimp only
  rw [Desk.on_bind_of_ok looked, if_pos rfl, Desk.on_bind_of_ok answer]
  rfl

end

/-- Frames print what the console has sent, whether or not a frame failed, and log how far they
came. -/
theorem on_play {cartridge : Cartridge} {frames : Nat} {stop : Option Console.Breakdown}
    {console : Console Lcd} (plays : (consoleFor arguments cartridge).Plays frames stop console) :
    ∃ written, desk.on (play arguments cartridge frames) =
      (.ok (stop, console),
        { desk with printed := desk.printed ++ console.machine.bus.sent, log := written }) := by
  have told (desk : Desk) :
      desk.on (do
        log (.executed cartridge.header.title console.cycles)
        ExceptT.lift (Host.print console.machine.bus.sent)
        return (stop, console)) =
      (.ok (stop, console),
        { desk with
          printed := desk.printed ++ console.machine.bus.sent
          log := desk.log.push (.executed cartridge.header.title console.cycles) }) := rfl
  unfold play
  dsimp only
  rw [Desk.on_bind_of_ok (on_log desk _), Console.runFrames_of_plays plays]
  cases stop with
  | none => exact ⟨_, told _⟩
  | some stop =>
    dsimp only
    rw [Desk.on_bind_of_ok (on_log _ _)]
    exact ⟨_, told _⟩

/-! The RAM is stored if it is kept. -/

section

variable {arguments} {cartridge : Cartridge}

theorem on_store_of_unkept (drops : keepsRam arguments cartridge = false) :
    desk.on (store arguments cartridge) = (.ok (), desk) := by
  rw [store, if_neg (by simp [drops])]
  rfl

variable (keeps : keepsRam arguments cartridge = true)
include keeps

theorem on_store_of_written {files : Files}
    (written : desk.files.write (savePath arguments.image) cartridge.board.ram = .ok files) :
    ∃ log, desk.on (store arguments cartridge) = (.ok (), { desk with files, log }) := by
  have answer := on_writeFile desk (savePath arguments.image) cartridge.board.ram
  rw [written] at answer
  refine ⟨desk.log.push (.saved (savePath arguments.image)), ?_⟩
  rw [store, if_pos keeps]
  dsimp only
  rw [Desk.on_bind_of_ok answer]
  rfl

/-- RAM that cannot be stored ends the run, with the files as they were. -/
theorem on_store_of_unwritten {reason : FileError}
    (unwritten : desk.files.write (savePath arguments.image) cartridge.board.ram =
      .error reason) :
    desk.on (store arguments cartridge) =
      (.error (.writing (savePath arguments.image) reason), desk) := by
  have answer := on_writeFile desk (savePath arguments.image) cartridge.board.ram
  rw [unwritten] at answer
  rw [store, if_pos keeps]
  dsimp only
  rw [Desk.on_bind_of_ok answer]
  rfl

end

variable {desk arguments} in
/-- A failure that ends a run is put into the log, and nothing else is done about it. -/
theorem carryOut_of_on {outcome : Except Failure Unit} {after : Desk}
    (ran : desk.on (whole arguments) = (outcome, after)) :
    ∃ log, desk.carryOut arguments = (outcome, { after with log }) := by
  rw [Desk.on] at ran
  rw [Desk.carryOut, run, StateT.run_bind, ran]
  cases outcome with
  | ok done => exact ⟨after.log, rfl⟩
  | error failure => exact ⟨after.log.push ⟨.error, .command, failure.message⟩, rfl⟩

end Run

end Handheld
