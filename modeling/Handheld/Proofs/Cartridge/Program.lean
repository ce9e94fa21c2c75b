import Handheld.Cartridge

/-!
# Cartridges made of programs

An image of a few bytes is too short to load, as it has no room for a header. Here a program is
brought to the least length by zeros, which are also a header: it names a fixed board without RAM
and has no title. `load_ofProgram` says that such an image loads, and as the cartridge given here.
-/
namespace Handheld.Cartridge

/-- Routines from the first address on, a program where power-on begins, and zeros in between and
up to the least length that loads. -/
def programImage (routines program : Bytes) : Bytes :=
  ((routines.toList.rightpad 0x100 0 ++ program.toList).rightpad Header.leastSize 0).toArray

/-- The cartridge of that image. -/
def ofProgram (routines program : Bytes) : Cartridge where
  header := { title := "", color := .none, boardCode := 0, ramCode := 0 }
  board := .fresh (programImage routines program) 0 .fixed

variable {routines program : Bytes} (before : routines.size ≤ 0x100)
include before

theorem length_lead :
    (routines.toList.rightpad 0x100 0 ++ program.toList).length = 0x100 + program.size := by
  rw [List.length_append, List.length_rightpad, Array.length_toList, Array.length_toList,
    Nat.max_eq_left before]

variable (short : program.size ≤ 0x34)
include short

/-- From the header on the image holds zeros only. -/
theorem drop_programImage :
    (programImage routines program).toList.drop 0x134 = List.replicate 0x1c 0 := by
  have lead : (routines.toList.rightpad 0x100 0 ++ program.toList).length = 0x100 + program.size :=
    length_lead before
  rw [programImage, List.toList_toArray, List.rightpad, List.drop_append, lead,
    List.drop_of_length_le (by omega), List.nil_append, List.drop_replicate]
  congr 1
  change 0x150 - (0x100 + program.size) - (0x134 - (0x100 + program.size)) = 0x1c
  omega

theorem size_programImage : (programImage routines program).size = Header.leastSize := by
  rw [programImage, List.size_toArray, List.length_rightpad, length_lead before]
  change max 0x150 (0x100 + program.size) = 0x150
  omega

theorem read_programImage {cell : Nat} (behind : 0x134 ≤ cell) (inside : cell < 0x150) :
    (programImage routines program).read cell = 0 := by
  have size := size_programImage before short
  have zeros := congrArg (·[cell - 0x134]?) (drop_programImage before short)
  have here : cell < (programImage routines program).size := size ▸ inside
  rw [List.getElem?_drop, Nat.add_sub_cancel' behind, Array.getElem?_toList,
    List.getElem?_replicate_of_lt (by omega), Array.getElem?_eq_getElem here] at zeros
  rw [Bytes.read, dif_pos here]
  exact Option.some.inj zeros

theorem header_programImage :
    Header.ofImage? (programImage routines program) = some (ofProgram routines program).header := by
  have title : Header.titleOf (programImage routines program) = "" := by
    have field : ((programImage routines program).extract 0x134 0x143).toList =
        List.replicate 15 0 := by
      rw [Array.toList_extract, List.extract_eq_take_drop, drop_programImage before short]
      rfl
    rw [Header.titleOf, field]
    rfl
  rw [Header.ofImage?, size_programImage before short, if_neg (Nat.lt_irrefl _), title,
    read_programImage before short (by decide) (by decide),
    read_programImage before short (by decide) (by decide),
    read_programImage before short (by decide) (by decide)]
  rfl

/-- A program that ends before the header begins makes an image that loads. -/
theorem load_ofProgram :
    load (programImage routines program) = .ok (ofProgram routines program) := by
  rw [load, header_programImage before short]
  rfl

end Handheld.Cartridge
