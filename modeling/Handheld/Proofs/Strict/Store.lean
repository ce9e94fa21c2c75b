import Mathlib.Algebra.Ring.Nat
import Handheld.Block

/-!
# Sums that must fit, cells that must exist

Memory answers past its end and natural numbers never run out. The operations here refuse instead:
a sum has to fit its width, a difference must not go below zero, a divisor must not be zero, a cell
has to exist. A computation made of them gives a result only if none of them was refused.
-/
namespace Handheld

/-- The sum, if it fits in `width` bits. -/
def sum? (width left right : Nat) : Option Nat :=
  if left + right < 2 ^ width then some (left + right) else none

/-- The product, if it fits in `width` bits. -/
def product? (width left right : Nat) : Option Nat :=
  if left * right < 2 ^ width then some (left * right) else none

/-- The difference, if it does not go below zero. -/
def difference? (left right : Nat) : Option Nat :=
  if right ≤ left then some (left - right) else none

/-- The remainder, if the divisor is not zero. -/
def remainder? (left right : Nat) : Option Nat :=
  if right = 0 then none else some (left % right)

/-- The sum of two bytes, if it fits in a byte. The plain operation would wrap here. -/
def byteSum? (left right : UInt8) : Option UInt8 :=
  if left.toNat + right.toNat < 2 ^ 8 then some (left + right) else none

/-- The difference of two bytes, if the second is no larger. -/
def byteDifference? (left right : UInt8) : Option UInt8 :=
  if right ≤ left then some (left - right) else none

/-- The sum of two words, if it fits in a word. -/
def wordSum? (left right : UInt16) : Option UInt16 :=
  if left.toNat + right.toNat < 2 ^ 16 then some (left + right) else none

/-- The difference of two words, if the second is no larger: the offset of an address in its
region. -/
def wordDifference? (left right : UInt16) : Option UInt16 :=
  if right ≤ left then some (left - right) else none

section

variable {width left right : Nat}

theorem sum?_eq (fits : left + right < 2 ^ width) :
    sum? width left right = some (left + right) := if_pos fits

theorem product?_eq (fits : left * right < 2 ^ width) :
    product? width left right = some (left * right) := if_pos fits

theorem difference?_eq (fits : right ≤ left) : difference? left right = some (left - right) :=
  if_pos fits

theorem lt_of_difference? {rest : Nat} (taken : difference? left right = some rest)
    (positive : 0 < right) (within : right ≤ left) : rest < left := by
  rw [difference?_eq within] at taken
  cases taken
  omega

theorem remainder?_eq (divides : right ≠ 0) : remainder? left right = some (left % right) :=
  if_neg divides

end

theorem byteSum?_eq {left right : UInt8} (fits : left.toNat + right.toNat < 2 ^ 8) :
    byteSum? left right = some (left + right) := if_pos fits

theorem byteDifference?_eq {left right : UInt8} (fits : right ≤ left) :
    byteDifference? left right = some (left - right) := if_pos fits

theorem wordSum?_eq {left right : UInt16} (fits : left.toNat + right.toNat < 2 ^ 16) :
    wordSum? left right = some (left + right) := if_pos fits

theorem wordDifference?_eq {left right : UInt16} (fits : right ≤ left) :
    wordDifference? left right = some (left - right) := if_pos fits

/-- What a mask keeps is no larger than the mask. -/
theorem toNat_and_le_right (value mask : UInt8) : (value &&& mask).toNat ≤ mask.toNat := by
  rw [UInt8.toNat_and]
  exact Nat.and_le_right

theorem word_toNat_and_le_right (value mask : UInt16) : (value &&& mask).toNat ≤ mask.toNat := by
  rw [UInt16.toNat_and]
  exact Nat.and_le_right

namespace Bytes

/-- The cell's byte, if the cell exists. `Bytes.read` answers with `0xff` past the end. -/
def read? (bytes : Bytes) (cell : Nat) : Option UInt8 :=
  if cell < bytes.size then some (bytes.read cell) else none

/-- The bytes with one cell changed, if the cell exists. `Bytes.write` leaves them alone past the
end. -/
def write? (bytes : Bytes) (cell : Nat) (value : UInt8) : Option Bytes :=
  if cell < bytes.size then some (bytes.write cell value) else none

/-- The cells from `first` up to but not including `last`. -/
def slice? (bytes : Bytes) (first last : Nat) : Option Bytes :=
  if first ≤ last ∧ last ≤ bytes.size then some (bytes.extract first last) else none

theorem read?_eq (bytes : Bytes) {cell : Nat} (inside : cell < bytes.size) :
    bytes.read? cell = some (bytes.read cell) := if_pos inside

theorem write?_eq (bytes : Bytes) {cell : Nat} (value : UInt8) (inside : cell < bytes.size) :
    bytes.write? cell value = some (bytes.write cell value) := if_pos inside

theorem slice?_eq (bytes : Bytes) {first last : Nat} (ordered : first ≤ last)
    (inside : last ≤ bytes.size) : bytes.slice? first last = some (bytes.extract first last) :=
  if_pos ⟨ordered, inside⟩

end Bytes

namespace Block

variable {size : Nat}

/-- The cell's byte, if the cell lies in the block. -/
def read? (block : Block size) (cell : Nat) : Option UInt8 :=
  if cell < size then some (block.read cell) else none

/-- The block with one cell changed, if the cell lies in it. -/
def write? (block : Block size) (cell : Nat) (value : UInt8) : Option (Block size) :=
  if cell < size then some (block.write cell value) else none

theorem read?_eq (block : Block size) {cell : Nat} (inside : cell < size) :
    block.read? cell = some (block.read cell) := if_pos inside

theorem write?_eq (block : Block size) {cell : Nat} (value : UInt8) (inside : cell < size) :
    block.write? cell value = some (block.write cell value) := if_pos inside

end Block

end Handheld
