import Handheld.CommandLine.Run

/-!
# The command

Runs a cartridge image without a screen and prints what it sends over the serial line. Files,
output and log are those of the operating system.
-/
namespace Handheld

/-- The number and the text that the operating system has for an error, if it has any. -/
def systemReport : IO.Error → Option (UInt32 × String)
  | .noFileOrDirectory _ code text | .interrupted _ code text => some (code, text)
  | .alreadyExists _ code text | .invalidArgument _ code text | .permissionDenied _ code text
  | .resourceExhausted _ code text | .inappropriateType _ code text | .noSuchThing _ code text =>
    some (code, text)
  | .otherError code text | .resourceBusy code text | .resourceVanished code text
  | .unsupportedOperation code text | .hardwareFault code text | .unsatisfiedConstraints code text
  | .illegalOperation code text | .protocolError code text | .timeExpired code text =>
    some (code, text)
  | .unexpectedEof | .userError _ => none

/-- What the operating system says about a file, in the terms of a host. Some of its numbers are
given with a minus sign. -/
def FileError.ofSystem (e : IO.Error) : FileError :=
  match systemReport e with
  | none => .other (toString e)
  | some (code, text) =>
    let number := if code < 0x80000000 then code else 0 - code
    if number = 2 then .notFound
    else if number = 20 then .notDirectory
    else if number = 21 then .isDirectory
    else if number = 36 then .nameTooLong
    else .other (text.capitalize ++ " (os error " ++ toString number ++ ")")

instance : Host IO where
  hasFile path := tryCatch (do let _ ← IO.FS.realPath path; return true) fun _ => return false
  readFile path :=
    tryCatch (do return .ok (← IO.FS.readBinFile path).data) fun e => return .error (.ofSystem e)
  writeFile path content :=
    tryCatch (do return .ok (← IO.FS.writeBinFile path ⟨content⟩)) fun e =>
      return .error (.ofSystem e)
  print bytes := do
    let out ← IO.getStdout
    out.write ⟨bytes⟩
    out.flush
  log line := do (← IO.getStderr).putStr line.render

def command (words : List String) : IO UInt32 := do
  match Arguments.parse words with
  | .error e =>
    (← IO.getStderr).putStr ("error: " ++ e.message ++ "\n")
    return 1
  | .ok arguments =>
    let outcome ← run arguments
    if let .error failure := outcome then
      (← IO.getStderr).putStr failure.line
    return exitCode outcome

end Handheld

def main (words : List String) : IO UInt32 := Handheld.command words
