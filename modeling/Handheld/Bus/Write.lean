import Handheld.Bus.Transfer

/-!
# Writing the bus

Most addresses store the byte. A few registers act on it: they start a copy or a serial transfer,
switch a bank, or reset what they count. Writes to addresses without a device are dropped.
-/
namespace Handheld.Bus

/-- Shifts the data byte out. Nothing is connected, so ones come in; the transfer is over at once
and asks for the serial interrupt. -/
def sendSerial (bus : Bus) : Bus :=
  let byte := bus.io.read serialData
  let control := bus.io.read serialControl &&& 0x7f
  ((({ bus with sent := bus.sent.push byte }).setIo serialData 0xff).setIo
    serialControl control).request .serial

/-- The status register keeps the mode and comparison bits, which belong to the video unit. -/
def writeStatus (bus : Bus) (value : UInt8) : Bus :=
  bus.setIo lcdStatus (0x80 ||| (value &&& 0x78) ||| (bus.io.read lcdStatus &&& 0x07))

/-- The bank of the switchable work RAM; bank 0 cannot be mapped twice. -/
def workBankOf (value : UInt8) : UInt8 :=
  let bank := value &&& 0x07
  if bank = 0 then 1 else bank

def writeIo (bus : Bus) (address : UInt16) (value : UInt8) : Bus :=
  match IoRegister.ofAddress address with
  | .joypad => { bus with joypad := bus.joypad.write value }
  | .serialControl =>
    let bus := bus.setIo serialControl value
    if value &&& 0x81 = 0x81 then bus.sendSerial else bus
  | .timer => { bus with timer := bus.timer.write address value }
  | .requests => { bus with interrupts := bus.interrupts.write address value }
  | .lcdStatus => bus.writeStatus value
  | .line => bus.setIo line 0
  | .objectCopy => (bus.setIo objectSource value).copyObjects (word value 0)
  | .speed => if bus.color then { bus with speedArmed := value &&& 0x01 != 0 } else bus
  | .videoBank =>
    if bus.color && !bus.copyActive then { bus with videoBank := value &&& 0x01 } else bus
  | .workBank => if bus.color then { bus with workBank := workBankOf value } else bus
  | .copyControl =>
    if bus.color then bus.controlCopy value else bus.setIo (pageCell address) value
  | .backgroundIndex =>
    if bus.color then { bus with background := bus.background.writeIndex value }
    else bus.setIo (pageCell address) value
  | .backgroundData =>
    if bus.color then { bus with background := bus.background.writeData value }
    else bus.setIo (pageCell address) value
  | .objectIndex =>
    if bus.color then { bus with objects := bus.objects.writeIndex value }
    else bus.setIo (pageCell address) value
  | .objectData =>
    if bus.color then { bus with objects := bus.objects.writeData value }
    else bus.setIo (pageCell address) value
  | .copyAddress | .plain => bus.setIo (pageCell address) value

def controlBoard (bus : Bus) (address : UInt16) (value : UInt8) : Bus :=
  { bus with
    cartridge := { bus.cartridge with board := bus.cartridge.board.control address value } }

def writeBoardRam (bus : Bus) (address : UInt16) (value : UInt8) : Bus :=
  { bus with
    cartridge := { bus.cartridge with board := bus.cartridge.board.writeRam address value } }

def write (bus : Bus) (address : UInt16) (value : UInt8) : Bus :=
  match Region.ofAddress address with
  | .rom => bus.controlBoard address value
  | .videoRam => bus.writeVideo address value
  | .cartridgeRam => bus.writeBoardRam address value
  | .workRam => { bus with workRam := bus.workRam.write (address - 0xc000).toNat value }
  | .bankedWorkRam => { bus with workRam := bus.workRam.write (bus.workCell address) value }
  | .objectRam => { bus with objectRam := bus.objectRam.write (address - 0xfe00).toNat value }
  | .echo | .unusable => bus
  | .io => bus.writeIo address value
  | .highRam => { bus with highRam := bus.highRam.write (pageCell address) value }
  | .interruptEnable => { bus with interrupts := bus.interrupts.write address value }

/-- Words are stored low byte first. -/
def writeWord (bus : Bus) (address : UInt16) (value : UInt16) : Bus :=
  (bus.write address (lowByte value)).write (address + 1) (highByte value)

/-- Stores bytes from `address` on, wrapping at the end of the address space. -/
def writeAll (bus : Bus) (address : UInt16) : List UInt8 → Bus
  | [] => bus
  | value :: rest => (bus.write address value).writeAll (address + 1) rest

/-- Stores into the I/O page without any effect of the register. Other addresses are left alone.
-/
def storeIo (bus : Bus) (address : UInt16) (value : UInt8) : Bus :=
  if 0xff00 ≤ address ∧ address ≤ 0xff7f then bus.setIo (pageCell address) value else bus

end Handheld.Bus
