import Handheld.CommandLine.Files
import Handheld.CommandLine.SavePath

/-!
# Where save paths lead

The save path differs from the path of the image in its last name only. So if the two paths differ
at all they lead to different places, `ofPath_savePath_ne`, and `savePath_eq_self_iff` says for
which names they do not: those that already have the extension of a save file, and those that
stand for a directory.
-/
namespace Handheld

/-! ## Texts with a mark in them -/

/-- A text has no such character, or is cut at the last one. -/
theorem exists_last (mark : Char) (text : List Char) :
    mark ∉ text ∨ ∃ front back, text = front ++ mark :: back ∧ mark ∉ back := by
  by_cases inside : mark ∈ text.reverse
  · obtain ⟨back, front, cut, clean⟩ := List.eq_append_cons_of_mem inside
    refine .inr ⟨front.reverse, back.reverse, ?_, by simpa using clean⟩
    have whole := congrArg List.reverse cut
    simpa using whole
  · exact .inl (by simpa using inside)

section

variable {mark : Char} {text front back : List Char}

/-- The four lemmas that follow look for the mark from the end of the text, as the rules for names
do. -/
theorem ne_of_not_mem (clean : mark ∉ text) : ∀ c ∈ text.reverse, (c != mark) = true :=
  fun _ member => bne_iff_ne.mpr fun same => clean (same ▸ List.mem_reverse.mp member)

theorem takeWhile_reverse_of_not_mem (clean : mark ∉ text) :
    text.reverse.takeWhile (· != mark) = text.reverse := by
  have taken : (text.reverse ++ []).takeWhile (· != mark) = text.reverse ++ [] :=
    List.takeWhile_append_of_pos (ne_of_not_mem clean)
  simpa using taken

theorem dropWhile_reverse_of_not_mem (clean : mark ∉ text) :
    text.reverse.dropWhile (· != mark) = [] := by
  have dropped : (text.reverse ++ []).dropWhile (· != mark) = [] :=
    List.dropWhile_append_of_pos (ne_of_not_mem clean)
  simpa using dropped

theorem takeWhile_reverse_of_last (clean : mark ∉ back) :
    (front ++ mark :: back).reverse.takeWhile (· != mark) = back.reverse := by
  rw [List.reverse_append, List.reverse_cons, List.append_assoc,
    List.takeWhile_append_of_pos (ne_of_not_mem clean)]
  simp

theorem dropWhile_reverse_of_last (clean : mark ∉ back) :
    (front ++ mark :: back).reverse.dropWhile (· != mark) = mark :: front.reverse := by
  rw [List.reverse_append, List.reverse_cons, List.append_assoc,
    List.dropWhile_append_of_pos (ne_of_not_mem clean)]
  simp

end

/-! ## The last name of a path and its stem -/

/-- A path without its last name: nothing, or all up to a slash. -/
def EndsInSlash (directory : List Char) : Prop :=
  directory = [] ∨ ∃ above, directory = above ++ ['/']

theorem splitPath_of_not_mem {name : List Char} (plain : '/' ∉ name) :
    splitPath name = ([], name) := by
  simp [splitPath, takeWhile_reverse_of_not_mem plain]

theorem splitPath_of_last {above name : List Char} (plain : '/' ∉ name) :
    splitPath (above ++ '/' :: name) = (above ++ ['/'], name) := by
  have length : (above ++ '/' :: name).length - name.length = (above ++ ['/']).length := by
    simp
    omega
  have cut : above ++ '/' :: name = (above ++ ['/']) ++ name := by simp
  rw [splitPath, takeWhile_reverse_of_last plain, List.reverse_reverse, length, cut,
    List.take_left]

theorem splitPath_spec (path : List Char) :
    path = (splitPath path).1 ++ (splitPath path).2 ∧ '/' ∉ (splitPath path).2 ∧
      EndsInSlash (splitPath path).1 := by
  rcases exists_last '/' path with plain | ⟨above, name, rfl, plain⟩
  · rw [splitPath_of_not_mem plain]
    exact ⟨rfl, plain, .inl rfl⟩
  · rw [splitPath_of_last plain]
    exact ⟨by simp, plain, .inr ⟨above, rfl⟩⟩

theorem stem_of_not_mem {name : List Char} (plain : '.' ∉ name) : stem name = name := by
  rw [stem, dropWhile_reverse_of_not_mem plain]

theorem stem_of_last {front extension : List Char} (plain : '.' ∉ extension) :
    stem (front ++ '.' :: extension) =
      if front = [] then '.' :: extension else front := by
  rw [stem, dropWhile_reverse_of_last plain]
  by_cases hidden : front = []
  · simp [hidden]
  · simp [hidden]

example : stem "..gb".toList = ".".toList := by decide

theorem stem_isPrefix (name : List Char) : stem name <+: name := by
  rcases exists_last '.' name with plain | ⟨front, extension, rfl, plain⟩
  · exact ⟨[], by rw [stem_of_not_mem plain, List.append_nil]⟩
  · rw [stem_of_last plain]
    split
    · rename_i hidden
      simp [hidden]
    · exact List.prefix_append _ _

/-- A name never loses all of its characters: where nothing stands before the last dot, the whole is
the stem. -/
theorem stem_ne_nil {name : List Char} (some_name : name ≠ []) : stem name ≠ [] := by
  rcases exists_last '.' name with plain | ⟨front, extension, rfl, plain⟩
  · rwa [stem_of_not_mem plain]
  · rw [stem_of_last plain]
    split
    · simp
    · assumption

/-! ## The name of a save file -/

/-- What a save file ends in. -/
def saveExtension : List Char := ['.', 's', 'a', 'v']

/-- The names that stand for a directory. -/
def IsDots (name : List Char) : Prop := name = [] ∨ name = ['.'] ∨ name = ['.', '.']

/-- The last name of a save path, from that of the image. -/
def saveName (name : List Char) : List Char :=
  if stem name = ['.'] then ['.', '.'] else stem name ++ saveExtension

theorem savePath_of_dots {image : String} (dots : IsDots (splitPath image.toList).2) :
    savePath image = image := if_pos dots

theorem savePath_of_named {image : String} (named : ¬ IsDots (splitPath image.toList).2) :
    savePath image =
      String.ofList ((splitPath image.toList).1 ++ saveName (splitPath image.toList).2) := by
  rw [IsDots] at named
  rw [savePath, replaceExtension, saveName]
  dsimp only
  rw [if_neg named]
  split
  · rfl
  · rw [List.append_assoc]
    rfl

theorem slash_not_mem_saveName {name : List Char} (plain : '/' ∉ name) : '/' ∉ saveName name := by
  have kept : '/' ∉ stem name := fun member => plain ((stem_isPrefix name).mem member)
  rw [saveName]
  split
  · decide
  · simp [kept, saveExtension]

/-- A name stays exactly if it has the extension already and something other than a lone dot before
it. -/
theorem saveName_eq_self_iff {name : List Char} (named : ¬ IsDots name) :
    saveName name = name ↔ ∃ base, base ≠ [] ∧ base ≠ ['.'] ∧ name = base ++ saveExtension := by
  unfold saveName
  constructor
  · intro same
    split at same
    · exact absurd (.inr (.inr same.symm)) named
    · rename_i bare
      exact ⟨stem name, stem_ne_nil fun empty => named (.inl empty), bare, same.symm⟩
  · rintro ⟨base, some_base, bare, rfl⟩
    have stem : stem (base ++ saveExtension) = base := by
      rw [saveExtension, stem_of_last (by decide), if_neg some_base]
    rw [stem, if_neg bare]

/-- A save path is the path of the image itself if its name has the extension already. -/
theorem savePath_eq_self_iff (image : String) :
    savePath image = image ↔
      IsDots (splitPath image.toList).2 ∨
        ∃ base, base ≠ [] ∧ base ≠ ['.'] ∧ (splitPath image.toList).2 = base ++ saveExtension := by
  by_cases dots : IsDots (splitPath image.toList).2
  · simp [savePath_of_dots dots, dots]
  · obtain ⟨cut, _, _⟩ := splitPath_spec image.toList
    rw [savePath_of_named dots, ← saveName_eq_self_iff dots, or_iff_right dots]
    rw [← String.toList_inj, String.toList_ofList]
    constructor
    · intro same
      exact List.append_cancel_left (same.trans cut)
    · intro same
      rw [same, ← cut]

/-! ## Places -/

theorem splitNames_of_not_mem {name : List Char} (plain : '/' ∉ name) :
    splitNames name = [name] := by
  induction name with
  | nil => rfl
  | cons c rest ih =>
    have apart : c ≠ '/' := fun same => plain (by simp [same])
    rw [splitNames, if_neg apart, ih fun member => plain (List.mem_cons_of_mem c member)]

theorem splitNames_ne_nil (path : List Char) : splitNames path ≠ [] := by
  cases path with
  | nil => simp [splitNames]
  | cons c rest =>
    rw [splitNames]
    split
    · simp
    · split <;> simp

theorem splitNames_append (above rest : List Char) :
    splitNames (above ++ '/' :: rest) = splitNames above ++ splitNames rest := by
  induction above with
  | nil => rfl
  | cons c above ih =>
    rw [List.cons_append, splitNames, splitNames, ih]
    split
    · rfl
    · cases names : splitNames above with
      | nil => exact absurd names (splitNames_ne_nil above)
      | cons name names => rfl

/-- All paths into one directory have the same names up to the last one. -/
theorem splitNames_into {directory : List Char} (ends : EndsInSlash directory) :
    ∃ above, ∀ name, '/' ∉ name → splitNames (directory ++ name) = above ++ [name] := by
  rcases ends with rfl | ⟨above, rfl⟩
  · exact ⟨[], fun name plain => splitNames_of_not_mem plain⟩
  · refine ⟨splitNames above, fun name plain => ?_⟩
    rw [List.append_assoc, List.singleton_append, splitNames_append, splitNames_of_not_mem plain]

namespace Place

/-- All paths into one directory lead on from one place. -/
theorem ofPath_append {directory : List Char} (ends : EndsInSlash directory) :
    ∃ base : Place, ∀ name, '/' ∉ name →
      ofPath (String.ofList (directory ++ name)) = base.next name := by
  obtain ⟨above, into⟩ := splitNames_into ends
  refine ⟨above.foldl next { absolute := directory.head? = some '/' }, fun name plain => ?_⟩
  have head : (directory ++ name).head? = some '/' ↔ directory.head? = some '/' := by
    rcases ends with rfl | ⟨_, rfl⟩
    · have relative : name.head? ≠ some '/' := fun head => plain (List.mem_of_mem_head? head)
      simp [relative]
    · simp
  simp only [ofPath, start, String.toList_ofList, head, into name plain, List.foldl_append]
  rfl

theorem next_of_named {name : List Char} (named : ¬ IsDots name) (place : Place) :
    place.next name = { place with names := name :: place.names } := by
  simp only [IsDots, not_or] at named
  simp [next, named]

/-- Two names lead to two places, if the one is a proper one and the other is not that. Where the
other leads up, the directory above has fewer names, the same, or one more `..`. -/
theorem next_ne {name other : List Char} (named : ¬ IsDots name) (apart : other ≠ name)
    (place : Place) : place.next other ≠ place.next name := by
  rw [next_of_named named]
  intro same
  have names := congrArg Place.names same
  have longer (rest : List (List Char)) : rest ≠ name :: rest := fun same =>
    Nat.ne_of_lt (Nat.lt_succ_self _) (congrArg List.length same)
  by_cases dots : IsDots other
  · rcases dots with rfl | rfl | rfl
    · exact longer _ names
    · exact longer _ names
    · have above : place.parent.names = name :: place.names := names
      have proper : ['.', '.'] ≠ name := apart
      rw [parent] at above
      split at above
      · rename_i top
        split at above
        · exact longer _ above
        · exact proper (List.cons.inj above).1
      · rename_i last rest split_names
        rw [split_names] at above
        split at above
        · rename_i dots
          exact proper (dots.symm.trans (List.cons.inj above).1)
        · have length := congrArg List.length above
          simp at length
          omega
  · rw [next_of_named dots] at names
    exact apart (List.cons.inj names).1

/-- A save path that is not the path of the image leads to another place. -/
theorem ofPath_savePath_ne {image : String} (apart : savePath image ≠ image) :
    ofPath (savePath image) ≠ ofPath image := by
  obtain ⟨cut, plain, ends⟩ := splitPath_spec image.toList
  have named : ¬ IsDots (splitPath image.toList).2 := fun dots => apart (savePath_of_dots dots)
  have saved := savePath_of_named named
  obtain ⟨base, into⟩ := ofPath_append ends
  have here := into _ plain
  have beside := into _ (slash_not_mem_saveName plain)
  rw [← cut, String.ofList_toList] at here
  rw [saved, beside, here]
  refine next_ne named (fun same => apart ?_) base
  rw [saved, same, ← cut, String.ofList_toList]

end Place

namespace Files

theorem walk_eq_foldl {files : Files} {place goal : Place} {names : List (List Char)}
    (found : files.walk place names = .ok goal) : goal = names.foldl Place.next place := by
  induction names generalizing place with
  | nil =>
    cases found
    rfl
  | cons name rest ih =>
    rw [walk] at found
    split at found
    · contradiction
    · split at found
      · contradiction
      · exact ih found

theorem find_eq_ofPath {files : Files} {path : String} {place : Place}
    (found : files.find path = .ok place) : place = .ofPath path := by
  rw [find] at found
  split at found
  · contradiction
  · split at found
    · contradiction
    · exact walk_eq_foldl found

/-- The last name of a path is looked up in a directory. -/
theorem directory_of_walk {files : Files} {place goal : Place} {above : List (List Char)}
    {name : List Char} (found : files.walk place (above ++ [name]) = .ok goal) :
    ∃ base, files base = .directory ∧ goal = base.next name := by
  induction above generalizing place with
  | nil =>
    refine ⟨place, ?_, walk_eq_foldl found⟩
    cases node : files place with
    | directory => rfl
    | _ => simp [walk, node, Node.refusal?] at found
  | cons first above ih =>
    rw [List.cons_append, walk] at found
    split at found
    · contradiction
    · split at found
      · contradiction
      · exact ih found

/-- What can be read has a name of its own, and is not named as the directory that it is in. -/
theorem name_of_read {files : Files} {path : String} {content : Bytes}
    (read : files.read path = .ok content) :
    (splitPath path.toList).2 ≠ [] ∧ (splitPath path.toList).2 ≠ ['.'] := by
  obtain ⟨cut, plain, ends⟩ := splitPath_spec path.toList
  obtain ⟨above, into⟩ := splitNames_into ends
  have names := into _ plain
  rw [← cut] at names
  cases found : files.find path with
  | error reason => simp [Files.read, found] at read
  | ok place =>
    obtain ⟨base, directory, there⟩ : ∃ base, files base = .directory ∧
        place = base.next (splitPath path.toList).2 := by
      rw [find, names] at found
      split at found
      · contradiction
      · split at found
        · contradiction
        · exact directory_of_walk found
    have unread : place ≠ base := fun same => by
      simp [Files.read, found, same, directory, Node.read] at read
    constructor
    · intro empty
      exact unread (by simp [there, empty, Place.next])
    · intro dot
      exact unread (by simp [there, dot, Place.next])

/-- A write leaves what is read at another place. -/
theorem read_of_write_elsewhere {files after : Files} {path other : String} {content kept : Bytes}
    (written : files.write path content = .ok after)
    (apart : Place.ofPath path ≠ Place.ofPath other) (read : files.read other = .ok kept) :
    after.read other = .ok kept := by
  unfold Files.read at read ⊢
  cases there : files.find other with
  | error reason => simp [there] at read
  | ok place =>
    have elsewhere : files.find path ≠ .ok place := fun found =>
      apart ((find_eq_ofPath found).symm.trans (find_eq_ofPath there))
    rw [there] at read
    rw [find_of_write written there]
    dsimp only
    rw [write_elsewhere written elsewhere]
    exact read

end Files

end Handheld
