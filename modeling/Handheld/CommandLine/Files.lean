import Handheld.Block

/-!
# Files

A path is a run of names with slashes between them, read from the working directory, or from the
top of all directories if it starts with a slash. An empty name and `.` stay where they are, `..`
goes one directory up, and any other name goes into a directory, so that different paths may lead
to one place. Main statements: adding files moves no path, and what was written to a path is read
back from it.
-/
namespace Handheld

inductive FileError where
  | notFound
  | notDirectory
  | isDirectory
  | nameTooLong
  | other (description : String)
  deriving DecidableEq, Repr

def FileError.message : FileError → String
  | notFound => "No such file or directory (os error 2)"
  | notDirectory => "Not a directory (os error 20)"
  | isDirectory => "Is a directory (os error 21)"
  | nameTooLong => "File name too long (os error 36)"
  | other description => description

/-- The names of a path. -/
def splitNames : List Char → List (List Char)
  | [] => [[]]
  | c :: rest =>
    if c = '/' then [] :: splitNames rest
    else
      match splitNames rest with
      | [] => [[c]]
      | name :: names => (c :: name) :: names

/-- Where a path may lead. -/
structure Place where
  /-- Whether the names start at the top of all directories, and not at the working directory. -/
  absolute : Bool := false
  /-- The innermost name comes first. Names `..` stand for the directories above the working
  directory. -/
  names : List (List Char) := []
  deriving DecidableEq, Repr

namespace Place

/-- The directory above. The top of all directories is above itself. -/
def parent (place : Place) : Place :=
  match place.names with
  | [] => if place.absolute then place else { place with names := [['.', '.']] }
  | name :: rest =>
    if name = ['.', '.'] then { place with names := name :: name :: rest }
    else { place with names := rest }

/-- Where one more name leads. -/
def next (place : Place) (name : List Char) : Place :=
  if name = [] ∨ name = ['.'] then place
  else if name = ['.', '.'] then place.parent
  else { place with names := name :: place.names }

def start (path : String) : Place := { absolute := path.toList.head? = some '/' }

/-- Where a path leads if its directories are there. -/
def ofPath (path : String) : Place := (splitNames path.toList).foldl next (start path)

end Place

/-- What is at a place. A blocked place, such as a link into a directory that is not there, can
neither be read nor be filled, and whoever looks for a file finds none. -/
inductive Node where
  | absent
  | file (content : Bytes)
  /-- A file that can be read and not be filled. -/
  | readOnly (content : Bytes) (reason : FileError)
  /-- A file that can neither be read nor be filled. -/
  | locked (reason : FileError)
  | directory
  | blocked (reason : FileError)
  deriving DecidableEq, Repr

namespace Node

/-- Why no name can be looked up in what is at a place, unless it is a directory. -/
def refusal? : Node → Option FileError
  | absent => some .notFound
  | file _ | readOnly _ _ | locked _ => some .notDirectory
  | directory => none
  | blocked reason => some reason

/-- Whether whoever looks for a file finds something. -/
def isThere : Node → Bool
  | file _ | readOnly _ _ | locked _ | directory => true
  | absent | blocked _ => false

def read : Node → Except FileError Bytes
  | file content | readOnly content _ => .ok content
  | absent => .error .notFound
  | directory => .error .isDirectory
  | locked reason | blocked reason => .error reason

/-- Why a place cannot be filled, unless nothing is there or a file that can be written to. -/
def seal? : Node → Option FileError
  | absent | file _ => none
  | directory => some .isDirectory
  | readOnly _ reason | locked reason | blocked reason => some reason

end Node

/-- The files that a run can see. -/
abbrev Files := Place → Node

namespace Files

/-- An empty working directory, with the directories above it. -/
def empty : Files := fun place =>
  if place.names.all (· = ['.', '.']) then .directory else .absent

/-- Sets what is at the end of a path, and makes the directories on the way to it. -/
def add (files : Files) (path : String) (node : Node) : Files :=
  let place := Place.ofPath path
  fun other =>
    if other = place then node
    else if other.absolute = place.absolute ∧ other.names.isSuffixOf place.names then .directory
    else files other

/-- The longest name, in bytes. -/
def nameLimit : Nat := 255

/-- The longest path, in bytes. -/
def pathLimit : Nat := 4095

/-- Follows names from a place. -/
def walk (files : Files) (place : Place) : List (List Char) → Except FileError Place
  | [] => .ok place
  | name :: rest =>
    match (files place).refusal? with
    | some reason => .error reason
    | none =>
      if nameLimit < (String.ofList name).utf8ByteSize then .error .nameTooLong
      else files.walk (place.next name) rest

/-- Where a path leads. -/
def find (files : Files) (path : String) : Except FileError Place :=
  if path = "" then .error .notFound
  else if pathLimit < path.utf8ByteSize then .error .nameTooLong
  else files.walk (.start path) (splitNames path.toList)

/-- Whether there is something at the end of a path. -/
def has (files : Files) (path : String) : Bool :=
  match files.find path with
  | .error _ => false
  | .ok place => (files place).isThere

def read (files : Files) (path : String) : Except FileError Bytes :=
  match files.find path with
  | .error reason => .error reason
  | .ok place => (files place).read

def put (files : Files) (place : Place) (content : Bytes) : Files :=
  fun other => if other = place then .file content else files other

def write (files : Files) (path : String) (content : Bytes) : Except FileError Files :=
  match files.find path with
  | .error reason => .error reason
  | .ok place =>
    match (files place).seal? with
    | none => .ok (files.put place content)
    | some reason => .error reason

theorem walk_eq_ok {files other : Files}
    (kept : ∀ place, files place = .directory → other place = .directory) {place goal : Place}
    {names : List (List Char)} (found : files.walk place names = .ok goal) :
    other.walk place names = .ok goal := by
  induction names generalizing place with
  | nil => exact found
  | cons name rest ih =>
    rw [walk] at found ⊢
    cases node : files place with
    | directory =>
      rw [kept place node]
      rw [node] at found
      dsimp only [Node.refusal?] at found ⊢
      split at found
      · contradiction
      · rename_i fits
        rw [if_neg fits]
        exact ih found
    | _ => simp [node, Node.refusal?] at found

theorem find_eq_ok {files other : Files}
    (kept : ∀ place, files place = .directory → other place = .directory) {path : String}
    {goal : Place} (found : files.find path = .ok goal) : other.find path = .ok goal := by
  rw [find] at found ⊢
  split at found
  · contradiction
  · rename_i some_path
    rw [if_neg some_path]
    split at found
    · contradiction
    · rename_i fits
      rw [if_neg fits]
      exact walk_eq_ok kept found

/-- Filling a place that is no directory leaves all directories. -/
theorem put_of_directory {files : Files} {filled : Place} (free : files filled ≠ .directory)
    (content : Bytes) {place : Place} (here : files place = .directory) :
    files.put filled content place = .directory := by
  have apart : place ≠ filled := fun same => free (same ▸ here)
  rw [put, if_neg apart, here]

/-- A write fills the place at the end of the path, and that only. -/
theorem write_eq_ok_iff {files after : Files} {path : String} {content : Bytes} :
    files.write path content = .ok after ↔
      ∃ place, files.find path = .ok place ∧ (files place).seal? = none ∧
        after = files.put place content := by
  rw [write]
  cases found : files.find path with
  | error reason => simp
  | ok place => cases sealed : (files place).seal? <;> simp [sealed, eq_comm]

/-- A write leaves every path where it leads. -/
theorem find_of_write {files after : Files} {path other : String} {content : Bytes} {place : Place}
    (written : files.write path content = .ok after) (found : files.find other = .ok place) :
    after.find other = .ok place := by
  obtain ⟨filled, _, free, rfl⟩ := write_eq_ok_iff.mp written
  have plain : files filled ≠ .directory := fun directory => by simp [directory, Node.seal?] at free
  exact find_eq_ok (fun _ here => put_of_directory plain content here) found

theorem read_of_write {files after : Files} {path : String} {content : Bytes}
    (written : files.write path content = .ok after) : after.read path = .ok content := by
  obtain ⟨place, found, _, same⟩ := write_eq_ok_iff.mp written
  rw [read, find_of_write written found]
  simp [same, put, Node.read]

theorem has_of_write {files after : Files} {path : String} {content : Bytes}
    (written : files.write path content = .ok after) : after.has path = true := by
  obtain ⟨place, found, _, same⟩ := write_eq_ok_iff.mp written
  rw [has, find_of_write written found]
  simp [same, put, Node.isThere]

/-- To write the same again changes nothing. -/
theorem write_again {files after : Files} {path : String} {content : Bytes}
    (written : files.write path content = .ok after) : after.write path content = .ok after := by
  obtain ⟨place, found, _, same⟩ := write_eq_ok_iff.mp written
  refine write_eq_ok_iff.mpr ⟨place, find_of_write written found, ?_, ?_⟩
  · simp [same, put, Node.seal?]
  · rw [same]
    funext other
    by_cases here : other = place <;> simp [put, here]

theorem write_elsewhere {files after : Files} {path : String} {content : Bytes}
    (written : files.write path content = .ok after) {place : Place}
    (elsewhere : files.find path ≠ .ok place) : after place = files place := by
  obtain ⟨filled, found, _, rfl⟩ := write_eq_ok_iff.mp written
  have apart : place ≠ filled := fun same => elsewhere (same ▸ found)
  rw [put, if_neg apart]

end Files

end Handheld
