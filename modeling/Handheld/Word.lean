/-!
# Words made of two bytes

The processor moves 16-bit words as a high and a low byte. Main statement: a word that is split is
joined again, so no bit is lost on the way through memory or a register pair.
-/
namespace Handheld

/-- The word with the given high and low byte. -/
def word (high low : UInt8) : UInt16 := (high.toUInt16 <<< 8) ||| low.toUInt16

def highByte (value : UInt16) : UInt8 := (value >>> 8).toUInt8

def lowByte (value : UInt16) : UInt8 := value.toUInt8

/-- A byte read as a two's complement number, widened to a word. -/
def signExtend (value : UInt8) : UInt16 := value.toInt8.toInt16.toUInt16

/-- What the table of all 256 bytes shows holds of every byte. -/
theorem forall_byte {property : UInt8 → Prop}
    (table : ∀ number : Fin 256, property (UInt8.ofNat number)) (byte : UInt8) : property byte := by
  have entry := table ⟨byte.toNat, byte.toNat_lt⟩
  rwa [UInt8.ofNat_toNat] at entry

theorem or_and_byte (first second mask : UInt8) :
    (first ||| second) &&& mask = (first &&& mask) ||| (second &&& mask) := by
  apply UInt8.toNat_inj.mp
  simp only [UInt8.toNat_and, UInt8.toNat_or, Nat.and_or_distrib_right]

/-! A mask of the low bits takes the remainder by the power of two above them. -/

theorem byte_toNat_and_mask (value : UInt8) {mask : UInt8} (bits : Nat)
    (low : mask.toNat = (1 <<< bits) - 1) :
    (value &&& mask).toNat = value.toNat % (1 <<< bits) := by
  rw [Nat.one_shiftLeft] at low ⊢
  rw [UInt8.toNat_and, low, Nat.and_two_pow_sub_one_eq_mod]

theorem word_toNat_and_mask (value : UInt16) {mask : UInt16} (bits : Nat)
    (low : mask.toNat = (1 <<< bits) - 1) :
    (value &&& mask).toNat = value.toNat % (1 <<< bits) := by
  rw [Nat.one_shiftLeft] at low ⊢
  rw [UInt16.toNat_and, low, Nat.and_two_pow_sub_one_eq_mod]

theorem word_highByte_lowByte (value : UInt16) : word (highByte value) (lowByte value) = value := by
  apply UInt16.eq_of_toBitVec_eq
  simp only [word, highByte, lowByte, UInt16.toBitVec_or, UInt16.toBitVec_shiftLeft,
    UInt8.toBitVec_toUInt16, UInt16.toBitVec_toUInt8, UInt16.toBitVec_shiftRight]
  ext i bound
  by_cases low : i < 8
  · simp [low, BitVec.getLsbD_eq_getElem bound]
  · have near : i - 8 < 8 := by omega
    have back : 8 + (i - 8) = i := by omega
    simp [low, near, back, BitVec.getLsbD_eq_getElem bound]

theorem lowByte_word (high low : UInt8) : lowByte (word high low) = low := by
  apply UInt8.eq_of_toBitVec_eq
  simp only [word, lowByte, UInt16.toBitVec_or, UInt16.toBitVec_shiftLeft,
    UInt8.toBitVec_toUInt16, UInt16.toBitVec_toUInt8]
  ext i bound
  simp

end Handheld
