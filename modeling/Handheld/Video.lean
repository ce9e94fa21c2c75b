import Handheld.Bus.Write

/-!
# Video units

The machine does not draw. It only needs something that is given clocks, may change I/O registers
and video RAM, and answers with the interrupts to request. Anything that does this can stand
beside the processor.
-/
namespace Handheld

/-- What a video unit leaves behind: itself, the bus, and the requests as bits. -/
structure VideoStep (σ : Type) where
  unit : σ
  bus : Bus
  requests : UInt8

class VideoUnit (σ : Type) where
  /-- Lets clocks pass, counted at single speed. -/
  step : σ → Nat → Bus → VideoStep σ

/-- A unit without a picture. It counts how often it was stepped and by how many clocks, and
always answers with the same requests. -/
structure ClockMeter where
  requests : UInt8
  steps : Nat := 0
  clocks : Nat := 0
  deriving DecidableEq, Repr

instance : VideoUnit ClockMeter where
  step meter clocks bus :=
    { unit := { meter with steps := meter.steps + 1, clocks := meter.clocks + clocks }
      bus
      requests := meter.requests }

end Handheld
