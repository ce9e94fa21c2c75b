import Handheld.Cartridge
import Handheld.Proofs.Cartridge.History

/-!
# What a cartridge stays, and what its RAM keeps

A cartridge is made of a header, an image and so many bytes of RAM, and stays so whatever is done
with it. Copying saved RAM in fills the RAM from its start, as far as there is something to copy;
the RAM of a cartridge copied into another one of the same make is therefore there to the last
byte.
-/
namespace Handheld

namespace Board

/-- Copied bytes come first, and behind them the RAM is as it was. -/
theorem read_ram_loadRam (board : Board) (saved : Bytes) (cell : Nat) :
    (board.loadRam saved).ram.read cell =
      if cell < min saved.size board.ram.size then saved.read cell else board.ram.read cell := by
  have size := board.size_ram_loadRam saved
  by_cases inside : cell < board.ram.size
  · have reached : cell < (board.loadRam saved).ram.size := by omega
    simp only [Bytes.read, dif_pos reached, dif_pos inside]
    simp only [loadRam, Array.getElem_append, Array.size_extract, Array.getElem_extract]
    by_cases copied : cell < saved.size
    · have first : cell < min board.ram.size saved.size - 0 := by omega
      rw [dif_pos first, if_pos (by omega), dif_pos copied]
      simp
    · have behind : ¬ cell < min board.ram.size saved.size - 0 := by omega
      rw [dif_neg behind, if_neg (by omega)]
      congr 1
      omega
  · rw [if_neg (by omega), Bytes.read_outside _ (by omega), Bytes.read_outside _ (by omega)]

theorem ram_loadRam_of_size {board : Board} {saved : Bytes} (fits : saved.size = board.ram.size) :
    (board.loadRam saved).ram = saved := by
  have whole : Array.extract saved 0 saved.size = saved := Array.extract_size
  have rest : Array.extract board.ram saved.size saved.size = #[] := by
    rw [Array.extract_empty_of_stop_le_start (Nat.le_refl _)]
  rw [loadRam]
  dsimp only
  rw [← fits, whole, rest, Array.append_empty]

end Board

namespace Cartridge

/-- What a cartridge is made of: its header, its image and the size of its RAM. It decides how a
cartridge is used; the bytes of the RAM and the controller are what use changes. -/
structure Make where
  header : Header
  rom : Bytes
  ramSize : Nat
  deriving DecidableEq

/-- The parts that no use of the cartridge changes. -/
def make (cartridge : Cartridge) : Make where
  header := cartridge.header
  rom := cartridge.board.rom
  ramSize := cartridge.board.ram.size

/-- What is done with a cartridge: programs access the board, and a host copies RAM in or sets
bytes of it. -/
inductive Use where
  | access (access : Board.Access)
  | loadRam (saved : Bytes)
  | setRam (cell : Nat) (value : UInt8)

/-- The cartridge after a use. -/
def perform (cartridge : Cartridge) : Use → Cartridge
  | .access access => { cartridge with board := cartridge.board.perform access }
  | .loadRam saved => cartridge.loadRam saved
  | .setRam cell value => { cartridge with board := cartridge.board.setRam cell value }

/-- The cartridge after some uses. -/
def performAll (cartridge : Cartridge) (uses : List Use) : Cartridge := uses.foldl perform cartridge

theorem make_access (cartridge : Cartridge) (access : Board.Access) :
    ({ cartridge with board := cartridge.board.perform access } : Cartridge).make =
      cartridge.make := by
  obtain ⟨rom, size⟩ := cartridge.board.fixed_perform access
  simp only [make, rom, size]

theorem make_loadRam (cartridge : Cartridge) (saved : Bytes) :
    (cartridge.loadRam saved).make = cartridge.make := by
  simp only [make, loadRam, Board.size_ram_loadRam]
  rfl

theorem make_perform (cartridge : Cartridge) (use : Use) :
    (cartridge.perform use).make = cartridge.make := by
  cases use with
  | access access => exact cartridge.make_access access
  | loadRam saved => exact cartridge.make_loadRam saved
  | setRam cell value => simp only [make, perform, Board.setRam, Bytes.size_write]

theorem make_performAll (cartridge : Cartridge) (uses : List Use) :
    (cartridge.performAll uses).make = cartridge.make := by
  induction uses generalizing cartridge with
  | nil => rfl
  | cons use rest ih => exact (ih (cartridge.perform use)).trans (cartridge.make_perform use)

/-- A cartridge of the same make takes the whole RAM of another one. -/
theorem ram_loadRam_of_make {cartridge other : Cartridge} (same : other.make = cartridge.make) :
    (cartridge.loadRam other.board.ram).board.ram = other.board.ram :=
  Board.ram_loadRam_of_size (congrArg Make.ramSize same)

/-- A cartridge fresh from its image has as much RAM as the header says, all zeros. -/
theorem ram_of_load {image : Bytes} {cartridge : Cartridge} (loaded : load image = .ok cartridge) :
    cartridge.board.ram = Array.replicate cartridge.header.ramSize 0 := by
  unfold load at loaded
  split at loaded
  · rename_i header _
    unfold assemble at loaded
    split at loaded
    · cases loaded
      rfl
    · cases loaded
  · cases loaded

end Cartridge

end Handheld
