import Handheld.Bus.Write

/-!
# Power-on state

Memory starts as zeros. The start-up program then leaves known values in the I/O registers,
written here through the bus, so that every register holds what such a write leaves in it.
-/
namespace Handheld.Bus

/-- What the start-up program stores: timer, sound, video and interrupt registers. -/
def startupWrites : List (UInt16 × UInt8) :=
  [(0xff05, 0x00), (0xff06, 0x00), (0xff07, 0xf8), (0xff0f, 0xe1),
   (0xff10, 0x80), (0xff11, 0xbf), (0xff12, 0xf3), (0xff14, 0xbf), (0xff16, 0x3f), (0xff17, 0x00),
   (0xff19, 0xbf), (0xff1a, 0x7f), (0xff1b, 0xff), (0xff1c, 0x9f), (0xff1e, 0xbf), (0xff20, 0xff),
   (0xff21, 0x00), (0xff22, 0x00), (0xff23, 0xbf), (0xff24, 0x77), (0xff25, 0xf3), (0xff26, 0xf1),
   (0xff40, 0x91), (0xff41, 0x85), (0xff42, 0x00), (0xff43, 0x00), (0xff45, 0x00), (0xff47, 0xfc),
   (0xff48, 0xff), (0xff49, 0xff), (0xff4a, 0x00), (0xff4b, 0x00), (0xffff, 0x00)]

def powerOn (cartridge : Cartridge) (color : Bool) : Bus :=
  let blank : Bus := { cartridge, color }
  let started := startupWrites.foldl (fun bus (address, value) => bus.write address value) blank
  started.setIo copyControl 0xff

end Handheld.Bus
