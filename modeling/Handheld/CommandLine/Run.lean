import Handheld.CommandLine.Arguments
import Handheld.CommandLine.Host
import Handheld.CommandLine.SavePath
import Handheld.Text.Numeral

/-!
# Runs

A run reads an image, restores the RAM of a cartridge with a battery, runs frames, prints what was
sent over the serial line, and stores the RAM. It ends with the first thing that goes wrong,
except that an unassigned opcode only ends the frames: what was sent is still printed and the RAM
still stored.
-/
namespace Handheld

inductive Failure where
  | frameCount (reason : Text.NumeralError)
  | reading (path : String) (reason : FileError)
  | loading (path : String) (reason : LoadError)
  | writing (path : String) (reason : FileError)
  | stopped (fault : UnassignedOpcode)
  deriving DecidableEq, Repr

def Failure.message : Failure → String
  | frameCount reason => "--frames must be a number: " ++ reason.message
  | reading path reason => "reading " ++ path ++ ": " ++ reason.message
  | loading path reason => "loading " ++ path ++ ": " ++ reason.message
  | writing path reason => "writing " ++ path ++ ": " ++ reason.message
  | stopped fault => "emulation stopped: " ++ fault.message

/-- The line that reports a failure to whoever gave the command. -/
def Failure.line (failure : Failure) : String := "error: " ++ failure.message ++ "\n"

namespace Run

variable {m : Type → Type} [Monad m] [Host m]

/-- Whether a run with these arguments keeps the RAM of this cartridge in a file. -/
def keepsRam (arguments : Arguments) (cartridge : Cartridge) : Bool :=
  arguments.save && cartridge.header.battery

/-- The console that a cartridge is run on. -/
def consoleFor (arguments : Arguments) (cartridge : Cartridge) : Console Lcd :=
  .powerOn cartridge (!arguments.monochrome) {}

def log (line : LogLine) : ExceptT Failure m Unit := ExceptT.lift (Host.log line)

def frameCount (arguments : Arguments) : ExceptT Failure m Nat :=
  ExceptT.mk (pure ((Text.readNumeral arguments.frames.toList).mapError .frameCount))

def readImage (arguments : Arguments) : ExceptT Failure m Bytes :=
  ExceptT.mk do
    return (← Host.readFile arguments.image).mapError (.reading arguments.image)

def insert (arguments : Arguments) (image : Bytes) : ExceptT Failure m Cartridge := do
  (LogLine.loading image).forM log
  ExceptT.mk (pure ((Cartridge.load image).mapError (.loading arguments.image)))

/-- Restores saved RAM. A save file that is not there is not missed. -/
def restore (arguments : Arguments) (cartridge : Cartridge) : ExceptT Failure m Cartridge := do
  if keepsRam arguments cartridge then
    let path := savePath arguments.image
    if ← ExceptT.lift (Host.hasFile path) then
      match ← ExceptT.lift (Host.readFile path) with
      | .ok saved =>
        log (.restored saved.size path)
        return cartridge.loadRam saved
      | .error reason => throw (.reading path reason)
    else
      return cartridge
  else
    return cartridge

/-- Runs the frames and prints what was sent, also when a frame cannot be finished. -/
def play (arguments : Arguments) (cartridge : Cartridge) (frames : Nat) :
    ExceptT Failure m (Option Console.Breakdown × Console Lcd) := do
  let console := consoleFor arguments cartridge
  let title := cartridge.header.title
  log (.starting title console.machine.bus.color)
  let (breakdown, console) := console.runFrames 0 frames
  if let some stop := breakdown then
    log (.stopped stop.frame stop.fault)
  log (.executed title console.cycles)
  ExceptT.lift (Host.print console.machine.bus.sent)
  return (breakdown, console)

def store (arguments : Arguments) (cartridge : Cartridge) : ExceptT Failure m Unit := do
  if keepsRam arguments cartridge then
    let path := savePath arguments.image
    match ← ExceptT.lift (Host.writeFile path cartridge.board.ram) with
    | .ok () => log (.saved path)
    | .error reason => throw (.writing path reason)

/-- The whole run. A failure to store the RAM is reported before a fault that ended the frames. -/
def whole (arguments : Arguments) : ExceptT Failure m Unit := do
  let frames ← frameCount arguments
  let image ← readImage arguments
  let cartridge ← insert arguments image
  let cartridge ← restore arguments cartridge
  let (breakdown, console) ← play arguments cartridge frames
  store arguments console.machine.bus.cartridge
  if let some stop := breakdown then
    throw (.stopped stop.fault)

end Run

/-- Carries out a command. A failure is also put into the log. -/
def run {m : Type → Type} [Monad m] [Host m] (arguments : Arguments) :
    m (Except Failure Unit) := do
  let outcome ← (Run.whole arguments).run
  if let .error failure := outcome then
    Host.log ⟨.error, .command, failure.message⟩
  return outcome

/-- The status that a command ends with. -/
def exitCode : Except Failure Unit → UInt32
  | .ok () => 0
  | .error _ => 1

end Handheld
