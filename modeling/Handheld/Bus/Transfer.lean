import Handheld.Bus.Read

/-!
# Copy engines

Two engines copy without the processor: one fills object RAM from the start of a page, the other
moves blocks of sixteen bytes into the current bank of video RAM, all at once or one block per
line. Both read through the bus byte by byte, so a source that the copy itself changes is seen as
it then stands.
-/
namespace Handheld.Bus

/-- Fills object RAM from the page that begins at `source`. -/
def copyObjects (bus : Bus) (source : UInt16) : Bus :=
  Nat.fold 0xa0
    (fun cell _ bus =>
      { bus with
        objectRam := bus.objectRam.write cell (bus.read (source + UInt16.ofNat cell)) })
    bus

/-- Moves `count` bytes from `source` into video RAM at `target`. The target wraps within a bank,
the source within the address space. -/
def copyVideo (bus : Bus) (source target : UInt16) : Nat → Bus
  | 0 => bus
  | count + 1 =>
    copyVideo (bus.writeVideo target (bus.read source)) (source + 1) ((target + 1) &&& 0x1fff) count

/-- The two addresses of the block copy; low bits that do not exist are dropped. -/
def copySource (bus : Bus) : UInt16 :=
  word (bus.io.read copySourceHigh) (bus.io.read copySourceLow) &&& 0xfff0

def copyTarget (bus : Bus) : UInt16 :=
  word (bus.io.read copyTargetHigh) (bus.io.read copyTargetLow) &&& 0x1ff0

/-- Moves `count` blocks and leaves both addresses past them. -/
def copyBlocks (bus : Bus) (count : Nat) : Bus :=
  let source := bus.copySource
  let target := bus.copyTarget
  let length := 16 * count
  let sourceEnd := source + UInt16.ofNat length
  let targetEnd := (target + UInt16.ofNat length) &&& 0x1fff
  ((((bus.copyVideo source target length).setIo copySourceHigh (highByte sourceEnd)).setIo
      copySourceLow (lowByte sourceEnd)).setIo
    copyTargetHigh (highByte targetEnd)).setIo copyTargetLow (lowByte targetEnd)

/-- A write to the copy register. With bit 7 set a copy of one block per line begins. With bit 7
clear a copy in progress stops, the blocks left still showing; otherwise all blocks move at once.
-/
def controlCopy (bus : Bus) (value : UInt8) : Bus :=
  if value &&& 0x80 = 0 then
    if bus.copyActive then
      ({ bus with copyActive := false }).setIo copyControl (bus.io.read copyControl ||| 0x80)
    else
      let blocks := (value &&& 0x7f).toNat + 1
      (bus.copyBlocks blocks).setIo copyControl 0xff
  else
    ({ bus with copyActive := true }).setIo copyControl (value &&& 0x7f)

/-- The part of a copy in progress that belongs to one line. The video unit asks for it when the
line's picture is done. -/
def copyLineBlock (bus : Bus) : Bus :=
  if bus.copyActive then
    let bus := bus.copyBlocks 1
    let left := bus.io.read copyControl &&& 0x7f
    if left = 0 then ({ bus with copyActive := false }).setIo copyControl 0xff
    else bus.setIo copyControl (left - 1)
  else
    bus

end Handheld.Bus
