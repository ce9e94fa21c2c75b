import Handheld.Proofs.Cpu.Columns

/-!
# Decimal bytes

A byte holds two decimal digits, one in each half. The sum or difference of two such bytes is in
general none, but the flags it leaves tell how to mend it: the columns of a decimal sum and of a
decimal difference, corrected byte by byte, are exact in base 100.
-/
namespace Handheld

/-- A byte whose halves are both decimal digits. -/
structure IsDecimal (byte : UInt8) : Prop where
  tens : byte.toNat / 16 ≤ 9
  units : byte.toNat % 16 ≤ 9

instance (byte : UInt8) : Decidable (IsDecimal byte) :=
  decidable_of_iff (byte.toNat / 16 ≤ 9 ∧ byte.toNat % 16 ≤ 9)
    ⟨fun digits => ⟨digits.1, digits.2⟩, fun digits => ⟨digits.tens, digits.units⟩⟩

/-- The number that the two digits of a byte stand for. -/
def decimal (byte : UInt8) : Nat := 10 * (byte.toNat / 16) + byte.toNat % 16

/-- The number that decimal bytes stand for, the least significant first. -/
def decimalValue (bytes : List UInt8) : Nat := Nat.ofDigits 100 (bytes.map decimal)

theorem IsDecimal.decimal_lt {byte : UInt8} (digits : IsDecimal byte) : decimal byte < 100 := by
  have tens := digits.tens
  have units := digits.units
  unfold decimal
  omega

theorem decimalValue_lt {bytes : List UInt8} (decimals : ∀ byte ∈ bytes, IsDecimal byte) :
    decimalValue bytes < 100 ^ bytes.length := by
  have digits : ∀ digit ∈ bytes.map decimal, digit < 100 := by
    simp only [List.mem_map, forall_exists_index, and_imp, forall_apply_eq_imp_iff₂]
    exact fun byte member => (decimals byte member).decimal_lt
  have bound := Nat.ofDigits_lt_base_pow_length (by decide : 1 < 100) digits
  rwa [List.length_map] at bound

namespace Alu

/-! ## The correction in numbers -/

/-- After an addition a digit is raised by six if it carried or went past nine. The correction of
the upper digit does not show in the lower one, so that each may be looked at alone. -/
theorem decimalAdjust_of_sum (value : UInt8) {flags : Flags} (added : flags.subtract = false) :
    let corrected := decimalAdjust value flags
    (corrected.2.carry = true ↔ flags.carry = true ∨ 0x99 < value.toNat) ∧
      corrected.1.toNat =
        (value.toNat + (if corrected.2.carry = true then 0x60 else 0) +
          (if flags.halfCarry = true ∨ 9 < value.toNat % 16 then 6 else 0)) % 256 := by
  have lower (upper : UInt8) (whole : upper.toNat % 16 = 0) :
      (0x09 < (value + upper) &&& 0x0f) ↔ 9 < value.toNat % 16 := by
    rw [UInt8.lt_iff_toNat_lt, byte_toNat_and_mask _ 4 rfl, UInt8.toNat_add]
    change 9 < (value.toNat + upper.toNat) % 2 ^ 8 % 16 ↔ _
    omega
  refine ⟨by simp [decimalAdjust, added, UInt8.lt_iff_toNat_lt], ?_⟩
  simp only [decimalAdjust, added, Bool.false_eq_true, if_false]
  generalize (flags.carry || (!false && decide (0x99 < value))) = raised
  cases raised with
  | false =>
    simp only [Bool.false_eq_true, if_false, Bool.or_eq_true, decide_eq_true_eq, lower 0 rfl]
    split <;> simp [UInt8.toNat_add]
  | true =>
    simp only [if_true, Bool.or_eq_true, decide_eq_true_eq, lower 0x60 rfl]
    split <;> simp [UInt8.toNat_add]

/-- After a subtraction a digit is lowered by six if it borrowed. -/
theorem decimalAdjust_of_difference (value : UInt8) {flags : Flags}
    (subtracted : flags.subtract = true) :
    let corrected := decimalAdjust value flags
    corrected.2.carry = flags.carry ∧
      corrected.1.toNat =
        (value.toNat + 512 - (if flags.carry = true then 0x60 else 0) -
          (if flags.halfCarry = true then 6 else 0)) % 256 := by
  have bound := value.toNat_lt
  refine ⟨by simp [decimalAdjust, subtracted], ?_⟩
  simp only [decimalAdjust, subtracted, Bool.not_true, Bool.false_and, Bool.or_false, if_true]
  cases flags.carry <;> cases flags.halfCarry <;> simp [UInt8.toNat_sub] <;> omega

/-! ## The columns -/

variable {left right : UInt8} (leftDecimal : IsDecimal left) (rightDecimal : IsDecimal right)
include leftDecimal rightDecimal

/-- The column of a decimal sum: each digit is corrected exactly if its sum went past nine. -/
theorem decimal_add_column (carry : Bool) :
    let sum := add left right carry
    let corrected := decimalAdjust sum.1 sum.2
    IsDecimal corrected.1 ∧
      decimal left + decimal right + carry.toNat =
        decimal corrected.1 + 100 * corrected.2.carry.toNat := by
  intro sum corrected
  obtain ⟨leftTens, leftUnits⟩ := leftDecimal
  obtain ⟨rightTens, rightUnits⟩ := rightDecimal
  have bit := carry.toNat_le
  have bound := sum.1.toNat_lt
  have column : left.toNat + right.toNat + carry.toNat =
      sum.1.toNat + 256 * sum.2.carry.toNat := add_column left right carry
  have half : sum.2.halfCarry = true ↔
      16 ≤ left.toNat % 16 + right.toNat % 16 + carry.toNat := decide_eq_true_iff
  have added : sum.2.subtract = false := rfl
  obtain ⟨raised, value⟩ := decimalAdjust_of_sum sum.1 added
  change corrected.2.carry = true ↔ _ at raised
  change corrected.1.toNat = (_ + (if corrected.2.carry = true then _ else _) + _) % _ at value
  have tens : corrected.2.carry = true ↔ 0x99 < left.toNat + right.toNat + carry.toNat := by
    rw [raised]
    cases overflows : sum.2.carry <;> simp [overflows] at column ⊢ <;> omega
  have units : (sum.2.halfCarry = true ∨ 9 < sum.1.toNat % 16) ↔
      9 < left.toNat % 16 + right.toNat % 16 + carry.toNat := by
    rw [half]
    omega
  rw [if_congr units rfl rfl] at value
  unfold decimal
  cases out : corrected.2.carry with
  | false =>
    rw [out] at value tens
    simp only [Bool.false_eq_true, if_false, false_iff] at value tens
    split at value
    all_goals
      refine ⟨⟨by omega, by omega⟩, ?_⟩
      rw [Bool.toNat_false]
      omega
  | true =>
    rw [out] at value tens
    simp only [if_true, true_iff] at value tens
    split at value
    all_goals
      refine ⟨⟨by omega, by omega⟩, ?_⟩
      rw [Bool.toNat_true]
      omega

/-- The column of a decimal difference: each digit is corrected exactly if it borrowed. -/
theorem decimal_sub_column (borrow : Bool) :
    let difference := sub left right borrow
    let corrected := decimalAdjust difference.1 difference.2
    IsDecimal corrected.1 ∧
      decimal corrected.1 + decimal right + borrow.toNat =
        decimal left + 100 * corrected.2.carry.toNat := by
  intro difference corrected
  obtain ⟨leftTens, leftUnits⟩ := leftDecimal
  obtain ⟨rightTens, rightUnits⟩ := rightDecimal
  have bit := borrow.toNat_le
  have bound := difference.1.toNat_lt
  have column : difference.1.toNat + right.toNat + borrow.toNat =
      left.toNat + 256 * difference.2.carry.toNat := sub_column left right borrow
  have half : difference.2.halfCarry = true ↔
      left.toNat % 16 < right.toNat % 16 + borrow.toNat := decide_eq_true_iff
  have subtracted : difference.2.subtract = true := rfl
  obtain ⟨kept, value⟩ := decimalAdjust_of_difference difference.1 subtracted
  change corrected.2.carry = difference.2.carry at kept
  change corrected.1.toNat = _ at value
  rw [if_congr half rfl rfl] at value
  rw [kept]
  unfold decimal
  cases borrows : difference.2.carry with
  | false =>
    rw [borrows] at value column
    simp only [Bool.false_eq_true, if_false, Bool.toNat_false] at value column
    split at value
    all_goals
      refine ⟨⟨by omega, by omega⟩, ?_⟩
      rw [Bool.toNat_false]
      omega
  | true =>
    rw [borrows] at value column
    simp only [if_true, Bool.toNat_true] at value column
    split at value
    all_goals
      refine ⟨⟨by omega, by omega⟩, ?_⟩
      rw [Bool.toNat_true]
      omega

end Alu

end Handheld
