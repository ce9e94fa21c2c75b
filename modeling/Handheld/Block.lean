/-!
# Byte stores

Memory of a size known in advance is a block; an image or a RAM chip whose size the cartridge
decides is a byte string. Reading and writing are total for both: a cell past the end reads as all
ones and a write there is dropped, which is what an open data bus does. Main statements: a written
cell reads back its byte, and every other cell keeps what it held.
-/
namespace Handheld

/-- A store of as many byte cells as it was made with. -/
abbrev Bytes := Array UInt8

namespace Bytes

def read (bytes : Bytes) (cell : Nat) : UInt8 :=
  if h : cell < bytes.size then bytes[cell] else 0xff

def write (bytes : Bytes) (cell : Nat) (value : UInt8) : Bytes :=
  if h : cell < bytes.size then bytes.set cell value h else bytes

theorem size_write (bytes : Bytes) (cell : Nat) (value : UInt8) :
    (bytes.write cell value).size = bytes.size := by
  unfold write
  split <;> simp

theorem read_outside (bytes : Bytes) {cell : Nat} (outside : bytes.size ≤ cell) :
    bytes.read cell = 0xff := by
  simp [read, Nat.not_lt.mpr outside]

theorem read_write_self (bytes : Bytes) {cell : Nat} (value : UInt8) (inside : cell < bytes.size) :
    (bytes.write cell value).read cell = value := by
  simp [read, write, inside]

theorem read_write_of_ne (bytes : Bytes) {cell other : Nat} (value : UInt8)
    (apart : cell ≠ other) : (bytes.write cell value).read other = bytes.read other := by
  by_cases inside : cell < bytes.size
  · by_cases reached : other < bytes.size
    · simp [read, write, inside, reached, Array.getElem_set_ne _ _ apart]
    · simp [read, write, inside, reached]
  · simp [write, inside]

end Bytes

/-- A store of `size` byte cells. -/
abbrev Block (size : Nat) := Vector UInt8 size

namespace Block

/-- A block whose cells all hold `fill`. -/
def filled (size : Nat) (fill : UInt8) : Block size := Vector.replicate size fill

def read {size : Nat} (block : Block size) (cell : Nat) : UInt8 :=
  if h : cell < size then block[cell] else 0xff

def write {size : Nat} (block : Block size) (cell : Nat) (value : UInt8) : Block size :=
  if h : cell < size then block.set cell value h else block

theorem read_filled {size : Nat} (fill : UInt8) {cell : Nat} (inside : cell < size) :
    (filled size fill).read cell = fill := by
  simp [filled, read, inside]

theorem read_outside {size : Nat} (block : Block size) {cell : Nat} (outside : size ≤ cell) :
    block.read cell = 0xff := by
  simp [read, Nat.not_lt.mpr outside]

theorem read_write_self {size : Nat} (block : Block size) {cell : Nat} (value : UInt8)
    (inside : cell < size) : (block.write cell value).read cell = value := by
  simp [read, write, inside]

theorem read_write_of_ne {size : Nat} (block : Block size) {cell other : Nat} (value : UInt8)
    (apart : cell ≠ other) : (block.write cell value).read other = block.read other := by
  by_cases inside : cell < size
  · by_cases reached : other < size
    · simp [read, write, inside, reached, Vector.getElem_set_ne _ _ apart]
    · simp [read, reached]
  · simp [write, inside]

/-- A block is determined by what its cells read. -/
theorem ext_read {size : Nat} {left right : Block size}
    (same : ∀ cell, cell < size → left.read cell = right.read cell) : left = right := by
  apply Vector.ext
  intro cell inside
  simpa [read, inside] using same cell inside

theorem read_write {size : Nat} (block : Block size) {cell : Nat} (value : UInt8)
    (inside : cell < size) (other : Nat) :
    (block.write cell value).read other = if cell = other then value else block.read other := by
  split
  · rename_i same
    rw [← same, read_write_self _ _ inside]
  · rename_i apart
    exact read_write_of_ne _ _ apart

/-- Of two stores to one cell the second remains. -/
theorem write_write_self {size : Nat} (block : Block size) (cell : Nat) (first second : UInt8) :
    (block.write cell first).write cell second = block.write cell second := by
  by_cases inside : cell < size
  · apply ext_read
    intro other _
    simp only [read_write _ _ inside]
    split <;> rfl
  · simp only [write, dif_neg inside]

end Block

end Handheld
