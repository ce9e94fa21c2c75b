import Handheld.CommandLine.Files
import Handheld.CommandLine.Log

/-!
# Hosts

What a run needs from its surroundings: looking for, reading and writing files, standard output,
and a place for the log. The desk is a host without any effect: a table of files and what has been
written so far, so that a run on it can be reasoned about.
-/
namespace Handheld

class Host (m : Type → Type) where
  hasFile : String → m Bool
  readFile : String → m (Except FileError Bytes)
  writeFile : String → Bytes → m (Except FileError Unit)
  print : Bytes → m Unit
  log : LogLine → m Unit

structure Desk where
  files : Files
  printed : Bytes := #[]
  log : Array LogLine := #[]

instance : Host (StateM Desk) where
  hasFile path := do return (← get).files.has path
  readFile path := do return (← get).files.read path
  writeFile path content := do
    match (← get).files.write path content with
    | .ok files =>
      modify fun desk => { desk with files }
      return .ok ()
    | .error e => return .error e
  print bytes := modify fun desk => { desk with printed := desk.printed ++ bytes }
  log line := modify fun desk => { desk with log := desk.log.push line }

end Handheld
