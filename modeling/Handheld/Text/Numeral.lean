/-!
# Decimal numerals of limited size

Reads an unsigned number of 32 bits from decimal digits, with or without a plus sign in front.
Only the ten ASCII digits count as digits. Characters are taken from the left, and the first one
that is no digit, or that takes the number past its limit, decides what is wrong with the text.
-/
namespace Handheld.Text

inductive NumeralError where
  | empty | badDigit | tooLarge
  deriving DecidableEq, Repr

def NumeralError.message : NumeralError → String
  | empty => "cannot parse integer from empty string"
  | badDigit => "invalid digit found in string"
  | tooLarge => "number too large to fit in target type"

/-- One past the largest number of 32 bits. -/
def numeralLimit : Nat := 4294967296

def digitValue? (c : Char) : Option Nat :=
  if '0' ≤ c ∧ c ≤ '9' then some (c.toNat - '0'.toNat) else none

/-- Continues a number whose digits so far make `value`. -/
def readDigits (value : Nat) : List Char → Except NumeralError Nat
  | [] => .ok value
  | c :: rest =>
    match digitValue? c with
    | none => .error .badDigit
    | some digit =>
      let value := 10 * value + digit
      if value < numeralLimit then readDigits value rest else .error .tooLarge

/-- A sign alone is not a number, nor is a number with a minus sign. -/
def readNumeral (text : List Char) : Except NumeralError Nat :=
  match text with
  | [] => .error .empty
  | ['+'] => .error .badDigit
  | '+' :: digits => readDigits 0 digits
  | digits => readDigits 0 digits

end Handheld.Text
