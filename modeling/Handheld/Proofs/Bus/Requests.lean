import Mathlib.Data.Nat.Bitwise
import Handheld.Proofs.Bus.Frame
import Handheld.Proofs.Machine.Stores

/-!
# Who changes the request register

A source's bit in the request register is set by its own device and dropped when it is served. Over
the bus the register is changed in two ways only: by a store to it, and by a store that starts a
serial transfer. Everything else that a store does leaves it alone.
-/
namespace Handheld

/-- A byte and a mask of one bit have nothing in common if and only if the bit is clear. -/
theorem byte_and_bit_eq_zero_iff (value : UInt8) {mask : UInt8} {bit : Nat}
    (sole : mask.toNat = 2 ^ bit) : value &&& mask = 0 ↔ value.toNat.testBit bit = false := by
  rw [← UInt8.toNat_inj, UInt8.toNat_and, sole, Nat.and_two_pow]
  cases value.toNat.testBit bit <;> simp

namespace Interrupt

/-- Whether the bit of this source is set. -/
def isIn (source : Interrupt) (bits : UInt8) : Bool := bits &&& source.bit != 0

theorem isIn_eq_testBit (source : Interrupt) (bits : UInt8) :
    source.isIn bits = bits.toNat.testBit source.number := by
  have sole : source.bit.toNat = 2 ^ source.number := by cases source <;> rfl
  rw [Bool.eq_iff_iff, isIn, bne_iff_ne, ne_eq, byte_and_bit_eq_zero_iff bits sole,
    Bool.not_eq_false]

theorem isIn_or (source : Interrupt) (first second : UInt8) :
    source.isIn (first ||| second) = (source.isIn first || source.isIn second) := by
  simp only [isIn_eq_testBit, UInt8.toNat_or, Nat.testBit_or]

theorem isIn_and (source : Interrupt) (first second : UInt8) :
    source.isIn (first &&& second) = (source.isIn first && source.isIn second) := by
  simp only [isIn_eq_testBit, UInt8.toNat_and, Nat.testBit_and]

theorem isIn_bit (source other : Interrupt) :
    source.isIn other.bit = (source == other) := by
  cases source <;> cases other <;> decide

theorem isIn_not_bit (source other : Interrupt) :
    source.isIn (~~~other.bit) = (source != other) := by
  cases source <;> cases other <;> decide

/-- The mask of the five bits drops no source. -/
theorem isIn_sources (source : Interrupt) : source.isIn 0x1f = true := by
  cases source <;> decide

/-- The order of the list is the order of the numbers, which is that of priority. -/
theorem number_all (place : Nat) (inside : place < all.length) :
    all[place].number = place := by
  revert place
  decide

theorem number_lt (source : Interrupt) : source.number < all.length := by
  cases source <;> decide

theorem all_number (source : Interrupt) (inside : source.number < all.length) :
    all[source.number] = source := by
  cases source <;> rfl

end Interrupt

namespace Interrupts

/-- Whether the source's bit in the request register is set. -/
def requested (interrupts : Interrupts) (source : Interrupt) : Bool := source.isIn interrupts.flags

/-- Whether the source's bit in the register of enabled sources is set. -/
def enabled (interrupts : Interrupts) (source : Interrupt) : Bool := source.isIn interrupts.enable

theorem requested_request (interrupts : Interrupts) (other source : Interrupt) :
    (interrupts.request other).requested source =
      (interrupts.requested source || source == other) := by
  rw [requested, request, Interrupt.isIn_or, Interrupt.isIn_bit]
  rfl

theorem requested_requestMask (interrupts : Interrupts) (mask : UInt8) (source : Interrupt) :
    (interrupts.requestMask mask).requested source =
      (interrupts.requested source || source.isIn mask) := by
  rw [requested, requestMask, Interrupt.isIn_or, Interrupt.isIn_and, Interrupt.isIn_sources,
    Bool.and_true]
  rfl

theorem requested_acknowledge (interrupts : Interrupts) (other source : Interrupt) :
    (interrupts.acknowledge other).requested source =
      (interrupts.requested source && source != other) := by
  rw [requested, acknowledge, Interrupt.isIn_and, Interrupt.isIn_not_bit]
  rfl

/-- A source is pending if it is requested and enabled. Bits that belong to no source never are. -/
theorem isIn_pending (interrupts : Interrupts) (source : Interrupt) :
    source.isIn interrupts.pending =
      (interrupts.requested source && interrupts.enabled source) := by
  rw [pending, Interrupt.isIn_and, Interrupt.isIn_and, Interrupt.isIn_sources, Bool.and_true]
  rfl

/-- The next source is requested and enabled, and no source before it is both. -/
theorem of_next? {interrupts : Interrupts} {source : Interrupt}
    (next : interrupts.next? = some source) :
    (interrupts.requested source = true ∧ interrupts.enabled source = true) ∧
      ∀ other : Interrupt, other.number < source.number →
        (interrupts.requested other && interrupts.enabled other) = false := by
  have chosen : Interrupt.all.find? (fun other => other.isIn interrupts.pending) = some source :=
    next
  obtain ⟨waits, place, inside, found, before⟩ := List.find?_eq_some_iff_getElem.mp chosen
  rw [isIn_pending, Bool.and_eq_true] at waits
  refine ⟨waits, ?_⟩
  intro other lower
  rw [← found, Interrupt.number_all place inside] at lower
  have idle := before other.number lower
  rw [Interrupt.all_number other other.number_lt, isIn_pending, Bool.not_eq_true'] at idle
  exact idle

/-- Nothing is next exactly if nothing is pending, so that the search misses no source. -/
theorem next?_eq_none_iff (interrupts : Interrupts) :
    interrupts.next? = none ↔ interrupts.pending = 0 := by
  have masked (byte : UInt8) :
      Interrupt.all.find? (fun source => byte &&& 0x1f &&& source.bit != 0) = none ↔
        byte &&& 0x1f = 0 := by
    revert byte
    refine forall_byte ?_
    decide +kernel
  exact masked (interrupts.flags &&& interrupts.enable)

end Interrupts

namespace Bus

/-- Whether the source's bit in the request register of this bus is set. -/
def requested (bus : Bus) (source : Interrupt) : Bool := bus.interrupts.requested source

/-- Whether a store starts a serial transfer. -/
def startsTransfer (byte : UInt16 × UInt8) : Bool :=
  byte.1 = 0xff02 ∧ byte.2 &&& 0x81 = 0x81

theorem flags_writeIo {address : UInt16} (bus : Bus) (value : UInt8)
    (serial : address ≠ 0xff02) (register : address ≠ 0xff0f) :
    (bus.writeIo address value).interrupts.flags = bus.interrupts.flags := by
  obtain ⟨_, _, _, _, _, _, _, _, _, _, _, _, same, stored⟩ := bus.writeIo_frame value serial
  rw [stored, same register]

/-- Stores elsewhere do not reach the interrupts, or reach the register of enabled sources only. -/
theorem flags_write {address : UInt16} (bus : Bus) (value : UInt8) (serial : address ≠ 0xff02)
    (register : address ≠ 0xff0f) :
    (bus.write address value).interrupts.flags = bus.interrupts.flags := by
  unfold write
  cases Region.ofAddress address <;> dsimp only
  case io => exact bus.flags_writeIo value serial register
  case interruptEnable =>
    unfold Interrupts.write
    split
    · exact absurd rfl register
    · rfl
    · rfl
  all_goals rfl

/-- A store starts a serial transfer and asks for its interrupt, or leaves the requests alone. -/
theorem requested_write {address : UInt16} (bus : Bus) (value : UInt8)
    (register : address ≠ 0xff0f) (source : Interrupt) :
    (bus.write address value).requested source =
      (bus.requested source || (source == .serial && startsTransfer (address, value))) := by
  by_cases serial : address = 0xff02
  · subst serial
    have stored : bus.write 0xff02 value =
        if value &&& 0x81 = 0x81 then (bus.setIo serialControl value).sendSerial
        else bus.setIo serialControl value := rfl
    rw [stored]
    by_cases starts : value &&& 0x81 = 0x81
    · rw [if_pos starts]
      have sent := bus.interrupts.requested_request .serial source
      simp only [startsTransfer, starts, and_self, decide_true, Bool.and_true]
      exact sent
    · rw [if_neg starts]
      simp only [startsTransfer, starts, and_false, decide_false, Bool.and_false, Bool.or_false]
      rfl
  · have kept := bus.flags_write value serial register
    simp only [startsTransfer, serial, false_and, decide_false, Bool.and_false, Bool.or_false]
    unfold requested Interrupts.requested
    rw [kept]

/-- The run: among the stores of an instruction only the start of a transfer makes a request. -/
theorem requested_stores (bus : Bus) (bytes : List (UInt16 × UInt8))
    (register : ∀ byte ∈ bytes, byte.1 ≠ 0xff0f) (source : Interrupt) :
    (bus.stores bytes).requested source =
      (bus.requested source || (source == .serial && bytes.any startsTransfer)) := by
  induction bytes generalizing bus with
  | nil => simp [stores]
  | cons byte rest ih =>
    have later :=
      ih (bus.write byte.1 byte.2) (fun other member => register other (by simp [member]))
    have first := bus.requested_write byte.2 (register byte (by simp)) source
    have split : bus.stores (byte :: rest) = (bus.write byte.1 byte.2).stores rest := rfl
    rw [split, later, first, List.any_cons, Bool.or_assoc, ← Bool.and_or_distrib_left]

theorem requested_switchSpeed (bus : Bus) (source : Interrupt) :
    bus.switchSpeed.2.requested source = bus.requested source := by
  unfold switchSpeed
  split <;> rfl

/-- An overflow of the counter asks for the timer interrupt. -/
theorem requested_tick (bus : Bus) (clocks : Nat) (source : Interrupt) :
    (bus.tick clocks).requested source =
      (bus.requested source || (source == .timer && (bus.timer.tick clocks).1)) := by
  unfold tick
  cases bus.timer.tick clocks with
  | mk overflowed timer =>
    cases overflowed with
    | true =>
      rw [Bool.and_true]
      exact bus.interrupts.requested_request .timer source
    | false => simp [requested]

/-- A press asks for an interrupt if the key was not held before, whatever is selected. -/
theorem interrupts_press (bus : Bus) (key : Key) :
    (bus.press key).interrupts =
      if bus.joypad.held key then bus.interrupts else bus.interrupts.request .joypad := by
  unfold press Joypad.press
  cases bus.joypad.held key <;> rfl

theorem requested_press (bus : Bus) (key : Key) (source : Interrupt) :
    (bus.press key).requested source =
      (bus.requested source || (source == .joypad && !bus.joypad.held key)) := by
  rw [requested, interrupts_press]
  cases bus.joypad.held key with
  | true => simp [requested]
  | false =>
    rw [Bool.not_false, Bool.and_true]
    exact bus.interrupts.requested_request .joypad source

end Bus

end Handheld
