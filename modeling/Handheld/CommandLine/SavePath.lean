/-!
# Save paths

The RAM of a cartridge is kept beside its image, in a file of the same name with another
extension. The extension of a name is what follows its last dot. A dot at the start of a name does
not begin an extension.
-/
namespace Handheld

/-- The path up to and with its last slash, and the file name after it. -/
def splitPath (path : List Char) : List Char × List Char :=
  let name := (path.reverse.takeWhile (· != '/')).reverse
  (path.take (path.length - name.length), name)

/-- A file name without its extension. -/
def stem (name : List Char) : List Char :=
  let reversed := name.reverse
  match reversed.dropWhile (· != '.') with
  | '.' :: rest => if rest = [] then name else rest.reverse
  | _ => name

/-- Replaces the extension of a file name, or adds one to a name without. The two names that stand
for directories have none to replace. The extension is taken off up to its dot before the other is
set, and a name of which two dots are left then stands for the directory above. A path that ends in
a slash, or in a slash and a dot, is left as it is: no file can be read at its end, so nothing is
ever kept beside it. -/
def replaceExtension (path extension : String) : String :=
  let (directory, name) := splitPath path.toList
  if name = [] ∨ name = ['.'] ∨ name = ['.', '.'] then path
  else if stem name = ['.'] then String.ofList (directory ++ ['.', '.'])
  else String.ofList (directory ++ stem name ++ '.' :: extension.toList)

/-- Where the RAM of the cartridge with this image is kept. -/
def savePath (image : String) : String := replaceExtension image "sav"

end Handheld
