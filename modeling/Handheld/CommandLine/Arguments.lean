/-!
# Arguments

The command takes the path of one image, a number of frames, and two switches. The number is kept
as it was written; whether it is one is for the run to say.
-/
namespace Handheld

structure Options where
  frames : String := "600"
  /-- Run without colour even if the cartridge supports it. -/
  monochrome : Bool := false
  /-- Load and store the RAM of a cartridge with a battery. -/
  save : Bool := false
  deriving DecidableEq, Repr

structure Arguments extends Options where
  image : String
  deriving DecidableEq, Repr

inductive UsageError where
  | noImage
  | secondImage (path : String)
  | missingFrames
  | unknownOption (text : String)
  deriving DecidableEq, Repr

def UsageError.message : UsageError → String
  | noImage => "no cartridge image given"
  | secondImage path => "more than one cartridge image given: " ++ path
  | missingFrames => "--frames needs a number"
  | unknownOption text => "unknown option: " ++ text

namespace Arguments

/-- A word that starts with a dash, and is more than the dash, is an option. -/
def isOption (text : String) : Bool :=
  match text.toList with
  | '-' :: _ :: _ => true
  | _ => false

/-- The value of the option with the number of frames, if a word holds both, as in `--frames=3`.
Further equals signs before the value do not count. -/
def framesValue? (text : String) : Option String :=
  let name := "--frames=".toList
  if name.isPrefixOf text.toList then
    some (String.ofList ((text.toList.drop name.length).dropWhile (· = '=')))
  else none

/-- Reads the remaining words, given what those before them have settled. -/
def readWords (options : Options) (image : Option String) :
    List String → Except UsageError Arguments
  | [] =>
    match image with
    | some image => .ok { options with image }
    | none => .error .noImage
  | "--dmg" :: rest => readWords { options with monochrome := true } image rest
  | "--save" :: rest => readWords { options with save := true } image rest
  | ["--frames"] => .error .missingFrames
  | "--frames" :: frames :: rest =>
    if isOption frames then .error .missingFrames
    else readWords { options with frames } image rest
  | text :: rest =>
    match framesValue? text with
    | some frames => readWords { options with frames } image rest
    | none =>
      if isOption text then .error (.unknownOption text)
      else if image.isSome then .error (.secondImage text)
      else readWords options (some text) rest

def parse (words : List String) : Except UsageError Arguments := readWords {} none words

end Arguments

end Handheld
