import Handheld.Bus
import Handheld.Bus.Region

/-!
# Reading the bus

A read changes nothing. Addresses without a device, registers that can only be written and, on a
monochrome machine, the colour registers read as all ones.
-/
namespace Handheld.Bus

/-- The speed register: current speed in bit 7, whether a switch is prepared in bit 0. -/
def speedStatus (bus : Bus) : UInt8 :=
  (if bus.doubleSpeed then 0x80 else 0) ||| (if bus.speedArmed then 0x01 else 0) ||| 0x7e

def readIo (bus : Bus) (address : UInt16) : UInt8 :=
  match IoRegister.ofAddress address with
  | .joypad => bus.joypad.read
  | .serialControl => bus.io.read serialControl ||| 0x7e
  | .timer => bus.timer.read address
  | .requests => bus.interrupts.read address
  | .speed => if bus.color then bus.speedStatus else 0xff
  | .videoBank => if bus.color then 0xfe ||| bus.videoBank else 0xff
  | .copyAddress => 0xff
  | .copyControl => if bus.color then bus.io.read copyControl else 0xff
  | .backgroundIndex => if bus.color then bus.background.readIndex else 0xff
  | .backgroundData => if bus.color then bus.background.readData else 0xff
  | .objectIndex => if bus.color then bus.objects.readIndex else 0xff
  | .objectData => if bus.color then bus.objects.readData else 0xff
  | .workBank => if bus.color then 0xf8 ||| bus.workBank else 0xff
  | .lcdStatus | .line | .objectCopy | .plain => bus.io.read (pageCell address)

def read (bus : Bus) (address : UInt16) : UInt8 :=
  match Region.ofAddress address with
  | .rom | .cartridgeRam => bus.cartridge.board.read address
  | .videoRam => bus.videoRam.read (bus.videoCell address)
  | .workRam => bus.workRam.read (address - 0xc000).toNat
  | .bankedWorkRam => bus.workRam.read (bus.workCell address)
  | .objectRam => bus.objectRam.read (address - 0xfe00).toNat
  | .echo | .unusable => 0xff
  | .io => bus.readIo address
  | .highRam => bus.highRam.read (pageCell address)
  | .interruptEnable => bus.interrupts.read address

/-- Words lie low byte first; the second byte of the last address is the first of all. -/
def readWord (bus : Bus) (address : UInt16) : UInt16 :=
  word (bus.read (address + 1)) (bus.read address)

end Handheld.Bus
