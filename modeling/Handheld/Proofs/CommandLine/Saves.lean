import Handheld.Proofs.CommandLine.Outcome
import Handheld.Proofs.CommandLine.Paths

/-!
# Saved RAM from one run to the next

A run that keeps the RAM and ends well, or with a fault in its frames, has stored what the RAM held
at its end. The next run on the same image starts with it: the file is as long as the RAM, so that
it is copied in whole. Main statement: `saved_ram_survives`.
-/
namespace Handheld

namespace Run

variable {desk after : Desk} {arguments again : Arguments} {outcome : Except Failure Unit}
  {fresh : Cartridge}

/-- A run that keeps the RAM ends well, or with a fault, only behind a write of what the RAM held at
its end. -/
theorem exists_write_of_ended (holds : Holds desk.files arguments.image fresh)
    (keeps : keepsRam arguments fresh = true)
    (ran : desk.carryOut arguments = (outcome, after))
    (ended : outcome = .ok () ∨ ∃ fault, outcome = .error (.stopped fault)) :
    ∃ frames cartridge stop console, Start desk.files arguments frames cartridge ∧
      (consoleFor arguments cartridge).Plays frames stop console ∧
      console.machine.bus.cartridge.make = fresh.make ∧
      desk.files.write (savePath arguments.image) console.machine.bus.cartridge.board.ram =
        .ok after.files := by
  rcases carryOut_cases desk arguments with ⟨failure, log, obstacle, failed⟩ |
    ⟨frames, cartridge, stop, console, _, files, log, start, plays, close, done⟩
  · cases ran.symm.trans failed
    rcases ended with ended | ⟨fault, ended⟩
    · cases ended
    · cases ended
      cases obstacle
  · obtain ⟨other, inserted, make⟩ := start.inserted
    cases holds.unique inserted.holds
    refine ⟨frames, cartridge, stop, console, start, plays, (make_of_plays plays).trans make, ?_⟩
    cases ran.symm.trans done
    cases close with
    | unkept drops =>
      rw [keepsRam_congr make, keeps] at drops
      cases drops
    | stored _ written => exact written
    | refused =>
      rcases ended with ended | ⟨fault, ended⟩
      · cases ended
      · cases ended

/-- Behind a write of the RAM to another path than that of the image, a run starts with it. -/
theorem start_of_write {files stored : Files} {ram : Bytes} {count : Nat}
    (holds : Holds files again.image fresh) (keeps : keepsRam again fresh = true)
    (apart : savePath again.image ≠ again.image)
    (written : files.write (savePath again.image) ram = .ok stored)
    (counted : Text.Denotes again.frames.toList count) :
    Start stored again count (fresh.loadRam ram) := by
  obtain ⟨image, read, loaded⟩ := holds
  have kept := Files.read_of_write_elsewhere written (Place.ofPath_savePath_ne apart) read
  exact .restored ⟨counted, image, kept, loaded⟩ keeps (Files.has_of_write written)
    (Files.read_of_write written)

end Run

open Run in
/-- Copying saved RAM in changes the first bytes only, as many as there are of both, and a cartridge
fresh from its image takes the whole RAM of one that has been used. So RAM survives from one run to
the next: what it held at the end of a run that ended well, or with a fault, is in the file, as long
as the header says, and the next run on the image starts with it; if that runs no frames, it leaves
all files as they are. -/
theorem saved_ram_survives :
    (∀ (cartridge : Cartridge) (saved : Bytes),
      (cartridge.loadRam saved).board.ram.size = cartridge.board.ram.size ∧
      ∀ cell, (cartridge.loadRam saved).board.ram.read cell =
        if cell < min saved.size cartridge.board.ram.size then saved.read cell
        else cartridge.board.ram.read cell) ∧
    (∀ image fresh uses, Cartridge.load image = .ok fresh →
      let used := fresh.performAll uses
      (fresh.loadRam used.board.ram).board.ram = used.board.ram) ∧
    ∀ (desk after : Desk) (arguments : Arguments) (outcome : Except Failure Unit)
        (fresh : Cartridge),
      Holds desk.files arguments.image fresh → fresh.header.battery = true →
      arguments.save = true → savePath arguments.image ≠ arguments.image →
      desk.carryOut arguments = (outcome, after) →
      (outcome = .ok () ∨ ∃ fault, outcome = .error (.stopped fault)) →
      ∃ frames cartridge stop console,
        Start desk.files arguments frames cartridge ∧
        (consoleFor arguments cartridge).Plays frames stop console ∧
        let ram := console.machine.bus.cartridge.board.ram
        after.files.read (savePath arguments.image) = .ok ram ∧
        ram.size = fresh.header.ramSize ∧
        ∀ (next : Desk) (again : Arguments) (count : Nat),
          next.files = after.files → again.image = arguments.image → again.save = true →
          Text.Denotes again.frames.toList count →
          Start next.files again count (fresh.loadRam ram) ∧
          (consoleFor again (fresh.loadRam ram)).machine.bus.cartridge.board.ram = ram ∧
          (count = 0 → (next.carryOut again).1 = .ok () ∧
            (next.carryOut again).2.files = next.files) := by
  refine ⟨?copied, ?whole, ?run⟩
  case copied =>
    intro cartridge saved
    exact ⟨cartridge.board.size_ram_loadRam saved, cartridge.board.read_ram_loadRam saved⟩
  case whole =>
    intro image fresh uses loaded used
    exact Cartridge.ram_loadRam_of_make (fresh.make_performAll uses)
  case run =>
    intro desk after arguments outcome fresh holds battery save apart ran ended
    have keeps : keepsRam arguments fresh = true := by simp [keepsRam, save, battery]
    obtain ⟨frames, cartridge, stop, console, start, plays, make, written⟩ :=
      exists_write_of_ended holds keeps ran ended
    refine ⟨frames, cartridge, stop, console, start, plays, ?_⟩
    intro ram
    have taken : (fresh.loadRam ram).board.ram = ram := Cartridge.ram_loadRam_of_make make
    have size : ram.size = fresh.header.ramSize := by
      obtain ⟨image, _, loaded⟩ := holds
      have zeros := Cartridge.ram_of_load loaded
      have length : ram.size = fresh.board.ram.size := congrArg Cartridge.Make.ramSize make
      rw [length, zeros, Array.size_replicate]
    refine ⟨Files.read_of_write written, size, ?_⟩
    intro next again count files image save counted
    rw [← image] at holds apart written
    have keeps : keepsRam again fresh = true := by simp [keepsRam, save, battery]
    have restart : Start next.files again count (fresh.loadRam ram) := by
      rw [files]
      exact start_of_write holds keeps apart written counted
    have inserted : (consoleFor again (fresh.loadRam ram)).machine.bus.cartridge =
        fresh.loadRam ram := Bus.cartridge_powerOn _ _
    refine ⟨restart, by rw [inserted, taken], ?_⟩
    rintro rfl
    refine carryOut_of_no_frames restart ?_ ?_
    · exact keeps
    · rw [files, taken]
      exact Files.write_again written

/-- An image without a save file. -/
def bareDesk : Desk where
  files := Files.empty.add "game.gb" (.file faultyImage)

def noFrames : Arguments := { oneFrame with frames := "0" }

open Run in
/-- The frame fails behind a store to the RAM. The save file is made, and the next run, which runs
no frames, finds the byte in it. -/
theorem saved_ram_survives_fault :
    let after := (bareDesk.carryOut oneFrame).2
    ∃ ram, after.files.read "game.sav" = .ok ram ∧ ram.size = 0x800 ∧ ram.read 0 = 0x0a ∧
      Start after.files noFrames 0 (faultyCartridge.loadRam ram) ∧
      (after.carryOut noFrames).1 = .ok () ∧ (after.carryOut noFrames).2.files = after.files := by
  have found : bareDesk.files.find "game.gb" = .ok ⟨false, ["game.gb".toList]⟩ := by rfl
  have read : bareDesk.files.read "game.gb" = .ok faultyImage := by
    rw [Files.read, found]
    rfl
  have holds : Holds bareDesk.files oneFrame.image faultyCartridge :=
    ⟨faultyImage, read, load_faultyImage⟩
  have path : savePath "game.gb" = "game.sav" := by rfl
  have apart : savePath oneFrame.image ≠ oneFrame.image := by decide
  have missing : bareDesk.files.has "game.sav" = false := by rfl
  have beside : bareDesk.files.find "game.sav" = .ok ⟨false, ["game.sav".toList]⟩ := by rfl
  have free (ram : Bytes) : ∃ files, bareDesk.files.write "game.sav" ram = .ok files :=
    ⟨_, Files.write_eq_ok_iff.mpr ⟨_, beside, by rfl, rfl⟩⟩
  have one : Text.Denotes oneFrame.frames.toList 1 := Text.readNumeral_eq_ok_iff.mp (by rfl)
  have zero : Text.Denotes noFrames.frames.toList 0 := Text.readNumeral_eq_ok_iff.mp (by rfl)
  have start : Start bareDesk.files oneFrame 1 faultyCartridge :=
    .fresh ⟨one, holds⟩ fun _ => path ▸ missing
  have faults : ((consoleFor oneFrame faultyCartridge).runFrames 0 1).1.isSome ∧
      ((consoleFor oneFrame faultyCartridge).runFrames 0 1).2.machine.bus.cartridge.board.ram.read 0
        = 0x0a := by
    decide +kernel
  cases ran : bareDesk.carryOut oneFrame with
  | mk outcome after =>
    have ended : ∃ fault, outcome = .error (.stopped fault) := by
      obtain ⟨stop, console, plays⟩ := (consoleFor oneFrame faultyCartridge).exists_plays 1
      obtain ⟨_, files, log, close, done⟩ := carryOut_of_start start plays
      rw [Console.runFrames_of_plays plays] at faults
      obtain ⟨stop, rfl⟩ := Option.isSome_iff_exists.mp faults.1
      cases ran.symm.trans done
      cases close with
      | unkept drops => cases drops
      | stored => exact ⟨stop.fault, rfl⟩
      | refused _ unwritten =>
        obtain ⟨files, written⟩ := free console.machine.bus.cartridge.board.ram
        cases written.symm.trans unwritten
    obtain ⟨frames, cartridge, stop, console, started, plays, stored, size, next⟩ :=
      saved_ram_survives.2.2 bareDesk after oneFrame outcome faultyCartridge holds rfl rfl apart ran
        (.inr ended)
    obtain ⟨rfl, rfl⟩ := start.unique started
    rw [Console.runFrames_of_plays plays] at faults
    obtain ⟨restart, _, again⟩ := next after noFrames 0 rfl rfl rfl zero
    exact ⟨_, stored, size, faults.2, restart, again rfl⟩

end Handheld
