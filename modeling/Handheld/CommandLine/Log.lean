import Handheld.Console
import Handheld.Text.Clean
import Handheld.Text.Quoted

/-!
# The log

What a run has to say about itself, line by line. A line has a level, the part of the program that
it comes from, and a text.
-/
namespace Handheld

inductive Level where
  | error | warn | info
  deriving DecidableEq, Repr

/-- Level names are padded to one width. -/
def Level.label : Level → String
  | error => "ERROR"
  | warn => "WARN "
  | info => "INFO "

/-- The part of the program that a line comes from. -/
inductive Speaker where
  | cartridge | console | command
  deriving DecidableEq, Repr

def Speaker.label : Speaker → String
  | cartridge => "gb_core::mem::mbc"
  | console => "gb_core::gameboy"
  | command => "gb_core"

structure LogLine where
  level : Level
  speaker : Speaker
  text : String
  deriving DecidableEq, Repr

namespace LogLine

def render (line : LogLine) : String :=
  let heading := "[" ++ line.level.label ++ " " ++ line.speaker.label ++ "] "
  String.ofList (Text.clean (heading.toList ++ Text.indent line.text.toList ++ ['\n']))

def flag (value : Bool) : String := if value then "true" else "false"

def unknownRam (code : UInt8) : LogLine :=
  ⟨.warn, .cartridge, "Unknown RAM size code 0x" ++ Text.hexByte code ++ ", assuming no RAM"⟩

def colorName : ColorSupport → String
  | .none => "None"
  | .dual => "Dual"
  | .only => "Only"

def inserted (header : Header) : LogLine :=
  ⟨.info, .cartridge,
    "Cartridge " ++ Text.quoted header.title ++ ": type=0x" ++ Text.hexByte header.boardCode ++
      " ram=" ++ toString header.ramSize ++ " battery=" ++ flag header.battery ++
      " cgb=" ++ colorName header.color⟩

/-- What loading an image has to say. An unknown RAM code is reported whether or not the board is
known. -/
def loading (image : Bytes) : List LogLine :=
  match Header.ofImage? image with
  | none => []
  | some header =>
    let ram := if header.knownRamSize?.isNone then [unknownRam header.ramCode] else []
    match Cartridge.assemble header image with
    | .ok _ => ram ++ [inserted header]
    | .error _ => ram

def restored (size : Nat) (path : String) : LogLine :=
  ⟨.info, .command, "Loaded " ++ toString size ++ " bytes from " ++ path⟩

def starting (title : String) (color : Bool) : LogLine :=
  ⟨.info, .console, "Starting " ++ Text.quoted title ++ ", cgb=" ++ flag color⟩

def stopped (frame : Nat) (fault : UnassignedOpcode) : LogLine :=
  ⟨.error, .command, "Frame " ++ toString frame ++ ": " ++ fault.message⟩

def executed (title : String) (clocks : Nat) : LogLine :=
  ⟨.info, .command, title ++ ": " ++ toString clocks ++ " clocks executed"⟩

def saved (path : String) : LogLine := ⟨.info, .command, "Saved " ++ path⟩

end LogLine

end Handheld
