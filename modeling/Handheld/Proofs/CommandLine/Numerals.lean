import Handheld.Text.Numeral

/-!
# Which texts are numerals

A numeral is a run of decimal digits, at least one, with or without a plus sign in front, whose
number fits 32 bits. `readNumeral_eq_ok_iff`: these texts are read, each as its number, and no
others.
-/
namespace Handheld.Text

/-- The number that digits stand for behind those that make `value`. -/
def decimalFrom (value : Nat) (digits : List Char) : Nat :=
  digits.foldl (fun value c => 10 * value + (c.toNat - '0'.toNat)) value

/-- The text is a numeral for the number. -/
def Denotes (text : List Char) (number : Nat) : Prop :=
  ∃ digits, (text = digits ∨ text = '+' :: digits) ∧ digits ≠ [] ∧
    (∀ c ∈ digits, '0' ≤ c ∧ c ≤ '9') ∧ decimalFrom 0 digits = number ∧ number < UInt32.size

theorem le_decimalFrom (value : Nat) (digits : List Char) : value ≤ decimalFrom value digits := by
  induction digits generalizing value with
  | nil => exact Nat.le_refl value
  | cons c rest ih =>
    have longer := ih (10 * value + (c.toNat - '0'.toNat))
    rw [decimalFrom, List.foldl_cons]
    exact Nat.le_trans (by omega) longer

theorem readDigits_eq_ok_iff {value number : Nat} (digits : List Char)
    (within : value < numeralLimit) :
    readDigits value digits = .ok number ↔
      (∀ c ∈ digits, '0' ≤ c ∧ c ≤ '9') ∧ decimalFrom value digits = number ∧
        number < numeralLimit := by
  induction digits generalizing value with
  | nil =>
    rw [readDigits, decimalFrom]
    constructor
    · intro read
      cases read
      exact ⟨by simp, rfl, within⟩
    · rintro ⟨_, rfl, _⟩
      rfl
  | cons c rest ih =>
    by_cases digit : '0' ≤ c ∧ c ≤ '9'
    · simp only [readDigits, digitValue?, if_pos digit]
      by_cases next : 10 * value + (c.toNat - '0'.toNat) < numeralLimit
      · rw [if_pos next, ih next, List.forall_mem_cons]
        exact ⟨fun ⟨digits, same, fits⟩ => ⟨⟨digit, digits⟩, same, fits⟩,
          fun ⟨⟨_, digits⟩, same, fits⟩ => ⟨digits, same, fits⟩⟩
      · have longer := le_decimalFrom (10 * value + (c.toNat - '0'.toNat)) rest
        rw [if_neg next]
        refine ⟨fun read => (by cases read), fun ⟨_, same, fits⟩ => ?_⟩
        rw [decimalFrom, List.foldl_cons, ← decimalFrom] at same
        omega
    · simp only [readDigits, digitValue?, if_neg digit]
      exact ⟨fun read => (by cases read), fun ⟨digits, _⟩ => absurd (digits c (by simp)) digit⟩

theorem readNumeral_eq_ok_iff {text : List Char} {number : Nat} :
    readNumeral text = .ok number ↔ Denotes text number := by
  have none_yet : 0 < numeralLimit := by decide
  have plain : ¬ ('0' ≤ '+' ∧ '+' ≤ '9') := by decide
  unfold readNumeral Denotes
  split
  · simp
  · simp
  · rename_i digits some_digits
    rw [readDigits_eq_ok_iff digits none_yet]
    constructor
    · rintro ⟨all, same, fits⟩
      exact ⟨digits, .inr rfl, fun empty => some_digits (by rw [empty]), all, same, fits⟩
    · rintro ⟨other, rfl | same, _, all, number, fits⟩
      · exact absurd (all '+' (by simp)) plain
      · cases same
        exact ⟨all, number, fits⟩
  · rename_i some_digits _ unsigned
    rw [readDigits_eq_ok_iff text none_yet]
    constructor
    · rintro ⟨all, same, fits⟩
      exact ⟨text, .inl rfl, some_digits, all, same, fits⟩
    · rintro ⟨other, rfl | same, _, all, number, fits⟩
      · exact ⟨all, number, fits⟩
      · exact absurd same (unsigned other)

example : readNumeral "+4294967295".toList = .ok 4294967295 := by rfl

end Handheld.Text
