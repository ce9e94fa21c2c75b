import Handheld.Proofs.CommandLine.Outcome
import Handheld.Proofs.CommandLine.Paths

/-!
# What happens to an image

A run reads its image and writes one file, at the save path. The image stays what it is unless that
is its own path, which is so if it is named like a save file: then the RAM is stored in place of the
image, and `image_kept_iff` says that nothing else can happen to it. `image_overwritten` is such a
run.
-/
namespace Handheld

namespace Run

variable {desk : Desk} {arguments : Arguments}

/-- The path of the image is the save path, and the RAM that is stored there is not the image. This
is the one way in which a run changes an image. -/
inductive Overwrites (files : Files) (arguments : Arguments) : Bytes → Prop
  | intro {image : Bytes} {frames : Nat} {cartridge : Cartridge}
    {stop : Option Console.Breakdown} {console : Console Lcd}
    (same : savePath arguments.image = arguments.image)
    (read : files.read arguments.image = .ok image)
    (start : Start files arguments frames cartridge)
    (keeps : keepsRam arguments cartridge = true)
    (plays : (consoleFor arguments cartridge).Plays frames stop console)
    (free : ∃ after,
      files.write arguments.image console.machine.bus.cartridge.board.ram = .ok after)
    (changed : console.machine.bus.cartridge.board.ram ≠ image) :
    Overwrites files arguments console.machine.bus.cartridge.board.ram

theorem carryOut_of_overwrites {ram : Bytes} (overwrites : Overwrites desk.files arguments ram) :
    (desk.carryOut arguments).2.files.read arguments.image = .ok ram := by
  cases overwrites with
  | intro same read start keeps plays free changed =>
    obtain ⟨_, files, log, close, ran⟩ := carryOut_of_start start plays
    obtain ⟨after, free⟩ := free
    rw [ran]
    cases close with
    | unkept drops => cases keeps.symm.trans drops
    | stored _ written =>
      rw [same] at written
      exact Files.read_of_write written
    | refused _ unwritten =>
      rw [same] at unwritten
      cases free.symm.trans unwritten

theorem image_kept_of_not_overwrites
    (spared : ¬ ∃ ram, Overwrites desk.files arguments ram) :
    (desk.carryOut arguments).2.files.read arguments.image = desk.files.read arguments.image := by
  rcases carryOut_cases desk arguments with ⟨failure, log, obstacle, failed⟩ |
    ⟨frames, cartridge, stop, console, _, files, log, start, plays, close, done⟩
  · rw [failed]
  · rw [done]
    cases close with
    | unkept => rfl
    | refused => rfl
    | stored keeps written =>
      obtain ⟨fresh, inserted, _⟩ := start.inserted
      obtain ⟨image, read, _⟩ := inserted.holds
      rw [read]
      by_cases same : savePath arguments.image = arguments.image
      · rw [same] at written
        by_cases unchanged : console.machine.bus.cartridge.board.ram = image
        · rw [unchanged] at written
          exact Files.read_of_write written
        · exact absurd ⟨_, .intro same read start keeps plays ⟨_, written⟩ unchanged⟩ spared
      · exact Files.read_of_write_elsewhere written (Place.ofPath_savePath_ne same) read

end Run

open Run in
/-- An image stays what it is unless its path is the save path, the RAM is to be kept, the frames
are run and the RAM at their end can be stored and is not the image; it is then what the file holds.
Of the paths that can be read, those are their own save path whose last name has the extension of a
save file already, behind more than a dot, and the directory above. Whether the run ends well does
not enter into it. -/
theorem image_kept_iff (desk : Desk) (arguments : Arguments) :
    ((desk.carryOut arguments).2.files.read arguments.image = desk.files.read arguments.image ↔
      ¬ ∃ ram, Overwrites desk.files arguments ram) ∧
    (∀ ram, Overwrites desk.files arguments ram →
      (desk.carryOut arguments).2.files.read arguments.image = .ok ram) ∧
    ∀ image, desk.files.read arguments.image = .ok image →
      let name := (splitPath arguments.image.toList).2
      savePath arguments.image = arguments.image ↔
        name = ['.', '.'] ∨ ∃ base, base ≠ [] ∧ base ≠ ['.'] ∧ name = base ++ ".sav".toList := by
  refine ⟨⟨?spared, image_kept_of_not_overwrites⟩, fun ram => carryOut_of_overwrites, ?named⟩
  case spared =>
    rintro kept ⟨ram, overwrites⟩
    have stored := carryOut_of_overwrites overwrites
    rw [kept] at stored
    cases overwrites with
    | intro _ read _ _ _ _ changed =>
      cases read.symm.trans stored
      exact changed rfl
  case named =>
    intro image read name
    obtain ⟨some_name, no_dot⟩ := Files.name_of_read read
    have dots : IsDots name ↔ name = ['.', '.'] := by simp [IsDots, name, some_name, no_dot]
    rw [savePath_eq_self_iff, dots]
    rfl

/-- An image that is named like a save file. -/
def misnamedDesk : Desk where
  files := Files.empty.add "game.sav" (.file faultyImage)

def misnamed : Arguments where
  frames := "0"
  save := true
  image := "game.sav"

open Run in
/-- A run that ends well and has stored 0x800 bytes of RAM in place of the image. The image is named
as a save file, so that its path is the save path. -/
theorem image_overwritten :
    (misnamedDesk.carryOut misnamed).1 = .ok () ∧
      misnamedDesk.files.read misnamed.image = .ok faultyImage ∧
      (misnamedDesk.carryOut misnamed).2.files.read misnamed.image ≠ .ok faultyImage := by
  have found : misnamedDesk.files.find "game.sav" = .ok ⟨false, ["game.sav".toList]⟩ := by rfl
  have read : misnamedDesk.files.read "game.sav" = .ok faultyImage := by
    rw [Files.read, found]
    rfl
  have same : savePath "game.sav" = "game.sav" := by rfl
  have there : misnamedDesk.files.has "game.sav" = true := by rfl
  have zero : Text.Denotes misnamed.frames.toList 0 := Text.readNumeral_eq_ok_iff.mp (by rfl)
  have start : Start misnamedDesk.files misnamed 0 (faultyCartridge.loadRam faultyImage) :=
    .restored ⟨zero, faultyImage, read, load_faultyImage⟩ (by rfl) (same ▸ there) (same ▸ read)
  obtain ⟨files, written⟩ : ∃ files, misnamedDesk.files.write "game.sav"
      (faultyCartridge.loadRam faultyImage).board.ram = .ok files :=
    ⟨_, Files.write_eq_ok_iff.mpr ⟨_, found, by rfl, rfl⟩⟩
  obtain ⟨ended, stored⟩ := carryOut_of_no_frames start (by rfl) (same ▸ written)
  refine ⟨ended, read, ?_⟩
  rw [stored, misnamed, Files.read_of_write written]
  intro whole
  have size : (faultyCartridge.loadRam faultyImage).board.ram.size = 0x800 :=
    (faultyCartridge.board.size_ram_loadRam faultyImage).trans Array.size_replicate
  have other : faultyImage.size = 0x150 := by decide +kernel
  rw [Except.ok.inj whole, other] at size
  exact absurd size (by decide)

end Handheld
