/-!
# The address map

Which device answers at an address, and within the I/O page which register. The map is the same
for reading and writing and does not depend on any state.
-/
namespace Handheld

inductive Region where
  | rom | videoRam | cartridgeRam | workRam | bankedWorkRam | echo | objectRam | unusable | io
  | highRam | interruptEnable
  deriving DecidableEq, Repr

def Region.ofAddress (address : UInt16) : Region :=
  if address < 0x8000 then .rom
  else if address < 0xa000 then .videoRam
  else if address < 0xc000 then .cartridgeRam
  else if address < 0xd000 then .workRam
  else if address < 0xe000 then .bankedWorkRam
  else if address < 0xfe00 then .echo
  else if address < 0xfea0 then .objectRam
  else if address < 0xff00 then .unusable
  else if address < 0xff80 then .io
  else if address < 0xffff then .highRam
  else .interruptEnable

/-- I/O registers that do more than hold a byte; all others are plain cells. -/
inductive IoRegister where
  | joypad | serialControl | timer | requests | lcdStatus | line | objectCopy | speed | videoBank
  | copyAddress | copyControl | backgroundIndex | backgroundData | objectIndex | objectData
  | workBank | plain
  deriving DecidableEq, Repr

def IoRegister.ofAddress (address : UInt16) : IoRegister :=
  match address with
  | 0xff00 => .joypad
  | 0xff02 => .serialControl
  | 0xff04 => .timer
  | 0xff05 => .timer
  | 0xff06 => .timer
  | 0xff07 => .timer
  | 0xff0f => .requests
  | 0xff41 => .lcdStatus
  | 0xff44 => .line
  | 0xff46 => .objectCopy
  | 0xff4d => .speed
  | 0xff4f => .videoBank
  | 0xff51 => .copyAddress
  | 0xff52 => .copyAddress
  | 0xff53 => .copyAddress
  | 0xff54 => .copyAddress
  | 0xff55 => .copyControl
  | 0xff68 => .backgroundIndex
  | 0xff69 => .backgroundData
  | 0xff6a => .objectIndex
  | 0xff6b => .objectData
  | 0xff70 => .workBank
  | _ => .plain

namespace IoRegister

/-- The address of a register that answers at one address only. -/
def address? : IoRegister → Option UInt16
  | joypad => some 0xff00
  | serialControl => some 0xff02
  | requests => some 0xff0f
  | lcdStatus => some 0xff41
  | line => some 0xff44
  | objectCopy => some 0xff46
  | speed => some 0xff4d
  | videoBank => some 0xff4f
  | copyControl => some 0xff55
  | backgroundIndex => some 0xff68
  | backgroundData => some 0xff69
  | objectIndex => some 0xff6a
  | objectData => some 0xff6b
  | workBank => some 0xff70
  | timer | copyAddress | plain => none

theorem ofAddress_eq_iff {register : IoRegister} {port address : UInt16}
    (sole : register.address? = some port) : ofAddress address = register ↔ address = port := by
  constructor
  · rintro rfl
    unfold ofAddress at sole
    split at sole <;> cases sole <;> rfl
  · rintro rfl
    cases register <;> cases sole <;> rfl

end IoRegister

/-- The number of an address within a page of 128 cells. -/
def pageCell (address : UInt16) : Nat :=
  let cell : UInt16 := address &&& 0x7f
  cell.toNat

end Handheld
