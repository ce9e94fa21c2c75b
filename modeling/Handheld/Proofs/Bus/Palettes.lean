import Mathlib.Data.List.Induction
import Handheld.Proofs.Bus.Selection
import Handheld.Proofs.Strict.Rig

/-!
# Uploads through the palette ports

Each of the two palettes is reached through a pair of ports, one that names a byte and one that
stores to it and, if asked to, moves on and wraps. What a run of stores leaves is told here from the
list of bytes alone: at each place the last one that fell on it. `uploads_wrap` says so for both
palettes, and that neither of them depends on stores to any port but its own two.
-/
namespace Handheld

/-! ## Uploads -/

/-- The last byte of an upload that falls on `place` when the first one falls on `start`. -/
def lastOn? (start : Nat) (data : List UInt8) (place : Nat) : Option UInt8 :=
  (data.zipIdx.reverse.find? fun (_, index) => (start + index) % 64 = place).map Prod.fst

theorem lastOn?_append (start : Nat) (data : List UInt8) (value : UInt8) (place : Nat) :
    lastOn? start (data ++ [value]) place =
      if (start + data.length) % 64 = place then some value else lastOn? start data place := by
  unfold lastOn?
  rw [List.zipIdx_append, List.reverse_append]
  simp only [List.zipIdx_singleton, List.reverse_singleton, List.singleton_append,
    List.find?_cons, Nat.zero_add]
  by_cases falls : (start + data.length) % 64 = place <;> simp [falls]

/-- An upload that does not go around leaves each byte at its own place. -/
theorem lastOn?_of_short {data : List UInt8} (short : data.length ≤ 64) (place : Nat) :
    lastOn? 0 data place = data[place]? := by
  induction data using List.reverseRecOn with
  | nil => rfl
  | append_singleton data value ih =>
    rw [List.length_append, List.length_singleton] at short
    rw [lastOn?_append, ih (by omega), Nat.zero_add, Nat.mod_eq_of_lt short]
    split
    · rename_i last
      rw [← last, List.getElem?_concat_length]
    · rename_i other
      grind

/-- Words as bytes, low byte first. -/
def littleEndian (words : List UInt16) : List UInt8 :=
  words.flatMap fun value => [lowByte value, highByte value]

theorem length_littleEndian (words : List UInt16) :
    (littleEndian words).length = 2 * words.length := by
  induction words with
  | nil => rfl
  | cons first rest ih =>
    have split : littleEndian (first :: rest) =
        lowByte first :: highByte first :: littleEndian rest := rfl
    rw [split, List.length_cons, List.length_cons, List.length_cons, ih]
    omega

theorem getElem?_littleEndian (words : List UInt16) (index : Nat) :
    (littleEndian words)[2 * index]? = words[index]?.map lowByte ∧
      (littleEndian words)[2 * index + 1]? = words[index]?.map highByte := by
  induction words generalizing index with
  | nil => exact ⟨rfl, rfl⟩
  | cons first rest ih =>
    cases index with
    | zero => exact ⟨rfl, rfl⟩
    | succ index => exact ih index

namespace Palette

/-- Bit 7 of the index register asks to move on. -/
theorem writeIndex_of_lt (palette : Palette) {start : UInt8} (inside : start < 64) :
    palette.writeIndex (0x80 ||| start) = { palette with index := start, autoIncrement := true } ∧
      palette.writeIndex start = { palette with index := start, autoIncrement := false } := by
  have parts : ∀ start : UInt8, start < 64 →
      ((0x80 ||| start) &&& 0x3f = start ∧ ((0x80 ||| start) &&& 0x80 != 0) = true) ∧
        start &&& 0x3f = start ∧ (start &&& 0x80 != 0) = false :=
    forall_byte (by decide +kernel)
  obtain ⟨⟨moved, moves⟩, fixed, stays⟩ := parts start inside
  exact ⟨by rw [writeIndex, moved, moves], by rw [writeIndex, fixed, stays]⟩

/-- Stores to the data register, in order. -/
def writeAll (palette : Palette) (data : List UInt8) : Palette := data.foldl writeData palette

variable {palette : Palette}

theorem writeAll_append (palette : Palette) (data : List UInt8) (value : UInt8) :
    palette.writeAll (data ++ [value]) = (palette.writeAll data).writeData value := by
  simp [writeAll]

theorem autoIncrement_writeAll (palette : Palette) (data : List UInt8) :
    (palette.writeAll data).autoIncrement = palette.autoIncrement := by
  induction data using List.reverseRecOn with
  | nil => rfl
  | append_singleton data value ih =>
    rw [writeAll_append]
    exact ih

/-- The index goes around the 64 bytes as often as the upload is long. -/
theorem toNat_index_writeAll (moves : palette.autoIncrement = true) (sound : palette.Sound)
    (data : List UInt8) :
    (palette.writeAll data).index.toNat = (palette.index.toNat + data.length) % 64 := by
  induction data using List.reverseRecOn with
  | nil => exact (Nat.mod_eq_of_lt sound).symm
  | append_singleton data value ih =>
    have next : (palette.writeAll (data ++ [value])).index =
        ((palette.writeAll data).index + 1) &&& 0x3f := by
      rw [writeAll_append, writeData, autoIncrement_writeAll, moves]
      rfl
    rw [next, byte_toNat_and_mask _ 6 rfl, UInt8.toNat_add, ih, List.length_append]
    change ((palette.index.toNat + data.length) % 64 + 1) % 2 ^ 8 % 64 =
      (palette.index.toNat + (data.length + 1)) % 64
    omega

theorem index_writeAll_of_stays (stays : palette.autoIncrement = false) (data : List UInt8) :
    (palette.writeAll data).index = palette.index := by
  induction data using List.reverseRecOn with
  | nil => rfl
  | append_singleton data value ih =>
    rw [writeAll_append, writeData, autoIncrement_writeAll, stays]
    exact ih

/-- What the index port reads behind an upload: the next place, with bit 7 set and the unused bit 6
too. -/
theorem readIndex_writeAll (moves : palette.autoIncrement = true) (sound : palette.Sound)
    (data : List UInt8) :
    (palette.writeAll data).readIndex =
      0xc0 ||| UInt8.ofNat ((palette.index.toNat + data.length) % 64) := by
  rw [readIndex, autoIncrement_writeAll, moves, ← toNat_index_writeAll moves sound,
    UInt8.ofNat_toNat]
  rfl

/-- With bit 7 clear the port reads the place that was named. -/
theorem readIndex_writeAll_of_stays (stays : palette.autoIncrement = false) (data : List UInt8) :
    (palette.writeAll data).readIndex = 0x40 ||| palette.index := by
  rw [readIndex, autoIncrement_writeAll, stays, index_writeAll_of_stays stays]
  rfl

/-- An upload leaves at each place the last byte that fell on it. -/
theorem read_writeAll (moves : palette.autoIncrement = true) (sound : palette.Sound)
    (data : List UInt8) (place : Nat) :
    (palette.writeAll data).bytes.read place =
      (lastOn? palette.index.toNat data place).getD (palette.bytes.read place) := by
  induction data using List.reverseRecOn with
  | nil => rfl
  | append_singleton data value ih =>
    have index := toNat_index_writeAll moves sound data
    have inside : (palette.writeAll data).index.toNat < 64 := by omega
    rw [writeAll_append, lastOn?_append]
    dsimp only [writeData]
    rw [Block.read_write _ _ inside, ih, index]
    split <;> rfl

/-- Without moving on all bytes fall on one place. -/
theorem read_writeAll_of_stays (stays : palette.autoIncrement = false) (sound : palette.Sound)
    (data : List UInt8) (place : Nat) :
    (palette.writeAll data).bytes.read place =
      if palette.index.toNat = place then data.getLast?.getD (palette.bytes.read place)
      else palette.bytes.read place := by
  induction data using List.reverseRecOn with
  | nil => exact (ite_self _).symm
  | append_singleton data value ih =>
    have index := index_writeAll_of_stays stays data
    have inside : (palette.writeAll data).index.toNat < 64 := index ▸ sound
    rw [writeAll_append]
    dsimp only [writeData]
    rw [Block.read_write _ _ inside, ih, index, List.getLast?_concat]
    split <;> rfl

/-- After an upload of words from the first place on, the colours are these words. -/
theorem color_writeAll_littleEndian (moves : palette.autoIncrement = true)
    (first : palette.index = 0) (words : Vector UInt16 32) (number : Fin 8) (color : Fin 4) :
    (palette.writeAll (littleEndian words.toList)).color number color =
      words[4 * number.val + color.val] := by
  have sound : palette.Sound := by
    rw [Sound, first]
    decide
  have length : (littleEndian words.toList).length = 64 := by
    rw [length_littleEndian, Vector.length_toList]
  have place : number.val % 8 * 8 + color.val % 4 * 2 = 2 * (4 * number.val + color.val) := by
    omega
  have holds : words.toList[4 * number.val + color.val]? =
      some words[4 * number.val + color.val] := by
    simp
  obtain ⟨low, high⟩ := getElem?_littleEndian words.toList (4 * number.val + color.val)
  rw [holds] at low high
  unfold Palette.color
  simp only [place]
  rw [read_writeAll moves sound, read_writeAll moves sound, first, UInt8.toNat_zero,
    lastOn?_of_short (Nat.le_of_eq length), lastOn?_of_short (Nat.le_of_eq length), low, high]
  exact word_highByte_lowByte _

end Palette

/-! ## The ports -/

/-- The two layers of the picture that have a palette of their own. -/
inductive Layer where
  | background | objects
  deriving DecidableEq, Repr

namespace Layer

/-- The port that names a byte of the palette. -/
def indexPort : Layer → UInt16
  | background => 0xff68
  | objects => 0xff6a

/-- The port that reads and stores the byte named. -/
def dataPort : Layer → UInt16
  | background => 0xff69
  | objects => 0xff6b

/-- The two ports of a layer. -/
def ports (layer : Layer) : List UInt16 := [layer.indexPort, layer.dataPort]

theorem ports_disjoint {layer other : Layer} (apart : other ≠ layer) :
    ∀ port ∈ other.ports, port ∉ layer.ports := by
  revert apart
  cases layer <;> cases other <;> simp [ports, indexPort, dataPort]

end Layer

/-- What a store to the bus makes of the palette of a layer. -/
def Palette.store (palette : Palette) (layer : Layer) (byte : UInt16 × UInt8) : Palette :=
  if byte.1 = layer.indexPort then palette.writeIndex byte.2
  else if byte.1 = layer.dataPort then palette.writeData byte.2
  else palette

theorem Palette.store_of_not_mem (palette : Palette) {layer : Layer} {byte : UInt16 × UInt8}
    (elsewhere : byte.1 ∉ layer.ports) : palette.store layer byte = palette := by
  simp only [Layer.ports, List.mem_cons, List.not_mem_nil, or_false, not_or] at elsewhere
  rw [store, if_neg elsewhere.1, if_neg elsewhere.2]

namespace Bus

/-- The palette of a layer on this bus. -/
def palette (bus : Bus) : Layer → Palette
  | .background => bus.background
  | .objects => bus.objects

variable {bus : Bus} (color : bus.color = true)
include color

/-- Over the whole bus a store does to the palette of a layer what it does through the layer's own
ports, and no more. -/
theorem palette_write (address : UInt16) (value : UInt8) (layer : Layer) :
    (bus.write address value).palette layer =
      (bus.palette layer).store layer (address, value) := by
  unfold Palette.store
  by_cases index : address = layer.indexPort
  · subst index
    rw [if_pos rfl]
    cases layer
    · exact congrArg Bus.background (if_pos color)
    · exact congrArg Bus.objects (if_pos color)
  by_cases data : address = layer.dataPort
  · subst data
    rw [if_neg index, if_pos rfl]
    cases layer
    · exact congrArg Bus.background (if_pos color)
    · exact congrArg Bus.objects (if_pos color)
  have elsewhere : address ∉ layer.ports := by simp [Layer.ports, index, data]
  have others := bus.keepsOthers_write address value
  rw [if_neg index, if_neg data]
  cases layer
  · exact others.background elsewhere
  · exact others.objects elsewhere

theorem color_write (address : UInt16) (value : UInt8) :
    (bus.write address value).color = true := by
  have chosen := congrArg Selection.color (bus.selection_write address value)
  rw [Selection.color_store] at chosen
  exact chosen.trans color

theorem color_stores (bytes : List (UInt16 × UInt8)) : (bus.stores bytes).color = true := by
  induction bytes generalizing bus with
  | nil => exact color
  | cons byte rest ih => exact ih (color_write color byte.1 byte.2)

/-- After any stores a palette is what the stores to its own ports have made of it. -/
theorem palette_stores (bytes : List (UInt16 × UInt8)) (layer : Layer) :
    (bus.stores bytes).palette layer =
      bytes.foldl (fun palette byte => palette.store layer byte) (bus.palette layer) := by
  induction bytes generalizing bus with
  | nil => rfl
  | cons byte rest ih =>
    rw [List.foldl_cons, ← palette_write color byte.1 byte.2]
    exact ih (color_write color byte.1 byte.2)

/-- Stores to other ports may be taken out of the list. This is the independence of the palettes. -/
theorem palette_stores_filter (bytes : List (UInt16 × UInt8)) (layer : Layer) :
    (bus.stores bytes).palette layer =
      (bus.stores (bytes.filter fun byte => byte.1 ∈ layer.ports)).palette layer := by
  rw [palette_stores color, palette_stores color, List.foldl_filter]
  congr
  funext palette byte
  split
  · rfl
  · rename_i elsewhere
    exact palette.store_of_not_mem (by simpa using elsewhere)

theorem palette_upload (layer : Layer) (value : UInt8) (data : List UInt8) :
    ((bus.write layer.indexPort value).stores (data.map (layer.dataPort, ·))).palette layer =
      ((bus.palette layer).writeIndex value).writeAll data := by
  have index : (bus.write layer.indexPort value).palette layer =
      (bus.palette layer).writeIndex value := by
    rw [palette_write color, Palette.store, if_pos rfl]
  have apart : layer.dataPort ≠ layer.indexPort := by cases layer <;> decide
  rw [palette_stores (color_write color _ _), index, List.foldl_map]
  simp only [Palette.store, if_neg apart, if_true]
  rfl

theorem read_indexPort (layer : Layer) :
    bus.read layer.indexPort = (bus.palette layer).readIndex := by
  cases layer <;> exact if_pos color

theorem read_dataPort (layer : Layer) :
    bus.read layer.dataPort = (bus.palette layer).readData := by
  cases layer <;> exact if_pos color

theorem read_place (layer : Layer) {place : Nat} (inside : place < 64) :
    (bus.write layer.indexPort (UInt8.ofNat place)).read layer.dataPort =
      (bus.palette layer).bytes.read place := by
  have index : (UInt8.ofNat place &&& 0x3f).toNat = place := by
    rw [byte_toNat_and_mask _ 6 rfl, UInt8.toNat_ofNat']
    change place % 2 ^ 8 % 64 = place
    omega
  rw [read_dataPort (color_write color _ _), palette_write color, Palette.store, if_pos rfl]
  exact congrArg (bus.palette layer).bytes.read index

omit color

/-- The ports of either palette on a colour machine. `moved`: after the index port was given `start`
with bit 7 set, each byte stored to the data port falls on the next place, around the end, and the
last byte on a place remains; the index port then reads the place that is next. `fixed`: with bit 7
clear all bytes fall on one place. `shown`: what the palette holds at a place is what the data port
reads there. `apart`: no other store to the bus makes a difference, between these or alone; so none
to the ports of the other palette. `words`: an upload of words from the first place on makes them
the colours, four to each of the eight palettes. -/
theorem uploads_wrap (bus : Bus) (color : bus.color = true) (layer : Layer) (start : UInt8)
    (inside : start < 64) (data : List UInt8) :
    let held (bus : Bus) := (bus.palette layer).bytes.read
    let upload (index : UInt8) (data : List UInt8) : Bus :=
      (bus.write layer.indexPort index).stores (data.map (layer.dataPort, ·))
    let moved := upload (0x80 ||| start) data
    let fixed := upload start data
    ((∀ place < 64,
        held moved place = (lastOn? start.toNat data place).getD (held bus place)) ∧
      moved.read layer.indexPort =
        0xc0 ||| UInt8.ofNat ((start.toNat + data.length) % 64)) ∧
    ((∀ place < 64, held fixed place =
        if start.toNat = place then data.getLast?.getD (held bus place) else held bus place) ∧
      fixed.read layer.indexPort = 0x40 ||| start) ∧
    (∀ place < 64,
      (bus.write layer.indexPort (UInt8.ofNat place)).read layer.dataPort = held bus place) ∧
    (∀ bytes : List (UInt16 × UInt8),
      (bus.stores bytes).palette layer =
          (bus.stores (bytes.filter fun byte => byte.1 ∈ layer.ports)).palette layer ∧
        ∀ other ≠ layer, (∀ byte ∈ bytes, byte.1 ∈ other.ports) →
          (bus.stores bytes).palette layer = bus.palette layer) ∧
    ∀ (words : Vector UInt16 32) (number : Fin 8) (entry : Fin 4),
      ((upload 0x80 (littleEndian words.toList)).palette layer).color number entry =
        words[4 * number.val + entry.val] := by
  intro held upload moved fixed
  have uploaded (index : UInt8) (data : List UInt8) :
      (upload index data).palette layer = ((bus.palette layer).writeIndex index).writeAll data :=
    palette_upload color layer index data
  have answers (index : UInt8) (data : List UInt8) : (upload index data).color = true :=
    color_stores (color_write color _ _) _
  obtain ⟨moving, staying⟩ := (bus.palette layer).writeIndex_of_lt inside
  have movedPalette := uploaded (0x80 ||| start) data
  have fixedPalette := uploaded start data
  rw [moving] at movedPalette
  rw [staying] at fixedPalette
  have sound (moves : Bool) :
      ({ bus.palette layer with index := start, autoIncrement := moves } : Palette).Sound := inside
  refine ⟨⟨?bytes, ?next⟩, ⟨?last, ?same⟩, fun place within => read_place color layer within,
    fun bytes => ⟨palette_stores_filter color bytes layer, ?apart⟩, ?words⟩
  case bytes =>
    intro place _
    have filled := congrArg (·.bytes.read place) movedPalette
    exact filled.trans (Palette.read_writeAll rfl (sound true) data place)
  case next =>
    rw [read_indexPort (answers _ data), movedPalette]
    exact Palette.readIndex_writeAll rfl (sound true) data
  case last =>
    intro place _
    have filled := congrArg (·.bytes.read place) fixedPalette
    exact filled.trans (Palette.read_writeAll_of_stays rfl (sound false) data place)
  case same =>
    rw [read_indexPort (answers _ data), fixedPalette]
    exact Palette.readIndex_writeAll_of_stays rfl data
  case apart =>
    intro other apart foreign
    have none : bytes.filter (fun byte => byte.1 ∈ layer.ports) = [] := by
      refine List.filter_eq_nil_iff.mpr fun byte member => ?_
      simpa using Layer.ports_disjoint apart byte.1 (foreign byte member)
    rw [palette_stores_filter color bytes layer, none]
    rfl
  case words =>
    intro words number entry
    rw [uploaded 0x80]
    exact Palette.color_writeAll_littleEndian rfl rfl words number entry

/-- Sixty-six bytes from the last place but one of the object palette on: the last two fall where
the first two fell, and the index comes around to the first place. -/
theorem uploads_wrap_around :
    let bus := powerOn Rig.leastCartridge true
    let layer := Layer.objects
    let data : List UInt8 := List.replicate 64 0x55 ++ [0x1f, 0x7c]
    let moved :=
      (bus.write layer.indexPort (0x80 ||| 0x3e)).stores (data.map (layer.dataPort, ·))
    let fixed := (bus.write layer.indexPort 0x3e).stores (data.map (layer.dataPort, ·))
    bus.color = true ∧ (0x3e : UInt8) < 64 ∧
      (moved.palette layer).bytes.read 0x3e = 0x1f ∧ (moved.palette layer).bytes.read 0 = 0x55 ∧
      moved.read layer.indexPort = 0xc0 ∧ (fixed.palette layer).bytes.read 0x3e = 0x7c ∧
      (bus.write layer.indexPort 0x05).read layer.dataPort = (bus.palette layer).bytes.read 5 ∧
      (bus.stores [(0xff68, 0x85), (0xff69, 0x01)]).palette layer = bus.palette layer := by
  intro bus layer data moved fixed
  have color : bus.color = true := by decide +kernel
  have inside : (0x3e : UInt8) < 64 := by decide
  obtain ⟨⟨bytes, next⟩, ⟨last, _⟩, shown, apart, _⟩ :=
    uploads_wrap bus color layer 0x3e inside data
  have last? : lastOn? 0x3e data 0x3e = some 0x1f ∧ lastOn? 0x3e data 0 = some 0x55 := by
    decide +kernel
  refine ⟨color, inside, (bytes 0x3e (by decide)).trans ?_, (bytes 0 (by decide)).trans ?_,
    next.trans (by decide), (last 0x3e (by decide)).trans rfl, shown 5 (by decide),
    (apart [(0xff68, 0x85), (0xff69, 0x01)]).2 .background (by decide)
      (by simp [Layer.ports, Layer.indexPort, Layer.dataPort])⟩
  · exact congrArg (Option.getD · _) last?.1
  · exact congrArg (Option.getD · _) last?.2

end Bus

end Handheld
