/-!
# Hexadecimal text

Bytes and words in messages have a fixed width and lower case digits.
-/
namespace Handheld.Text

def hexDigit (value : Nat) : Char :=
  if value < 10 then Char.ofNat (0x30 + value) else Char.ofNat (0x57 + value)

def hexByte (value : UInt8) : String :=
  String.ofList [hexDigit (value.toNat / 16), hexDigit (value.toNat % 16)]

def hexWord (value : UInt16) : String :=
  hexByte (value >>> 8).toUInt8 ++ hexByte value.toUInt8

/-- A number without leading zeros. -/
def hexNumber (value : Nat) : String :=
  String.ofList ((Nat.toDigits 16 value).map Char.toLower)

end Handheld.Text
