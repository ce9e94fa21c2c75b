import Handheld.Palette
import Handheld.Timer
import Handheld.Proofs.Strict.Store

/-!
# The timer and the palettes without a step out of range

The timer takes whole periods off what it has counted, one at a time, until less than a period is
left. A palette moves on to its next byte. Both stay below a bound of their own: the part of a
period below the period, the index below 64.
-/
namespace Handheld

namespace Timer

theorem period_pos (timer : Timer) : 0 < timer.period := by
  unfold period
  split <;> decide

/-- Less than a period is counted towards the next advance. -/
def Sound (timer : Timer) : Prop := timer.elapsed < timer.period

/-- Takes periods off the clocks counted, advancing the counter for each. -/
def drain? (timer : Timer) (elapsed : Nat) (counter : UInt8) (overflowed : Bool) :
    Option (Nat × UInt8 × Bool) :=
  if _whole : timer.period ≤ elapsed then
    match _taken : difference? elapsed timer.period with
    | none => none
    | some rest =>
      if counter = 0xff then timer.drain? rest timer.modulo true
      else timer.drain? rest (counter + 1) overflowed
  else
    some (elapsed, counter, overflowed)
termination_by elapsed
decreasing_by
  all_goals exact lt_of_difference? _taken timer.period_pos _whole

/-- The clocks counted so far are kept in 32 bits. -/
def tick? (timer : Timer) (clocks : Nat) : Option (Bool × Timer) :=
  let divider := timer.divider + UInt16.ofNat clocks
  if timer.enabled then do
    let elapsed ← sum? 32 timer.elapsed clocks
    let (elapsed, counter, overflowed) ← timer.drain? elapsed timer.counter false
    some (overflowed, { timer with divider, elapsed, counter })
  else
    some (false, { timer with divider })

/-- Taking periods off one at a time leaves what a division leaves. -/
theorem drain?_eq (timer : Timer) (elapsed : Nat) (counter : UInt8) (overflowed : Bool) :
    timer.drain? elapsed counter overflowed =
      some (elapsed % timer.period,
        advance timer.modulo (elapsed / timer.period) counter overflowed) := by
  induction elapsed using Nat.strongRecOn generalizing counter overflowed with
  | _ elapsed ih =>
    have positive := timer.period_pos
    rw [drain?]
    split
    · rename_i whole
      have less : elapsed - timer.period < elapsed := by omega
      have rest : (elapsed - timer.period) % timer.period = elapsed % timer.period :=
        (Nat.mod_eq_sub_mod whole).symm
      have count : elapsed / timer.period = (elapsed - timer.period) / timer.period + 1 :=
        Nat.div_eq_sub_div positive whole
      split
      · rename_i refused
        rw [difference?_eq whole] at refused
        cases refused
      · rename_i left taken
        rw [difference?_eq whole] at taken
        cases taken
        rw [count, advance, ih _ less, ih _ less, rest]
        split <;> rfl
    · rename_i part
      have part : elapsed < timer.period := Nat.not_le.mp part
      rw [Nat.mod_eq_of_lt part, Nat.div_eq_of_lt part, advance]

/-- A timer that is off counts nothing, and so is not asked about its accumulator. -/
theorem tick?_eq {timer : Timer} {clocks : Nat}
    (fits : timer.enabled = true → timer.elapsed + clocks < 2 ^ 32) :
    timer.tick? clocks = some (timer.tick clocks) := by
  unfold tick? tick
  by_cases on : timer.enabled = true
  · simp only [on, if_true, sum?_eq (fits on), drain?_eq, Option.bind_eq_bind, Option.bind_some]
  · simp only [on, Bool.false_eq_true, if_false]

theorem Sound.tick {timer : Timer} (sound : timer.Sound) (clocks : Nat) :
    (timer.tick clocks).2.Sound := by
  unfold Timer.tick
  by_cases on : timer.enabled = true
  · rw [if_pos on]
    exact Nat.mod_lt _ timer.period_pos
  · rw [if_neg on]
    exact sound

theorem sound_resetDivider (timer : Timer) : timer.resetDivider.Sound := timer.period_pos

/-- A change of period drops what was counted of the old one. -/
theorem Sound.write {timer : Timer} (sound : timer.Sound) (address : UInt16) (value : UInt8) :
    (timer.write address value).Sound := by
  unfold Timer.write
  split
  · exact timer.sound_resetDivider
  · exact sound
  · exact sound
  · have kept : value &&& 0x07 &&& 0x03 = value &&& 0x03 := by
      rw [UInt8.and_assoc]
      rfl
    dsimp only
    by_cases same : timer.control &&& 0x03 = value &&& 0x03
    · rw [if_pos same]
      unfold Sound period at sound ⊢
      simp only [kept, ← same]
      exact sound
    · rw [if_neg same]
      exact period_pos _
  · exact sound

end Timer

namespace Palette

/-- The index is that of a byte. -/
def Sound (palette : Palette) : Prop := palette.index < 64

/-- The byte that the index names. -/
def readData? (palette : Palette) : Option UInt8 := palette.bytes.read? palette.index.toNat

/-- The byte that the index names is stored, and an index that moves on by itself is summed as a
byte before it wraps at 64. -/
def writeData? (palette : Palette) (value : UInt8) : Option Palette := do
  let bytes ← palette.bytes.write? palette.index.toNat value
  if palette.autoIncrement then do
    let next ← byteSum? palette.index 1
    some { palette with bytes, index := next &&& 0x3f }
  else
    some { palette with bytes }

theorem readData?_eq {palette : Palette} (sound : palette.Sound) :
    palette.readData? = some palette.readData :=
  palette.bytes.read?_eq sound

/-- The sum of the index cannot wrap a byte: it is below 64. -/
theorem writeData?_eq {palette : Palette} (sound : palette.Sound) (value : UInt8) :
    palette.writeData? value = some (palette.writeData value) := by
  have inside : palette.index.toNat < 64 := sound
  have fits : palette.index.toNat + (1 : UInt8).toNat < 2 ^ 8 := by
    have one : (1 : UInt8).toNat = 1 := rfl
    omega
  unfold writeData? writeData
  simp only [palette.bytes.write?_eq value inside, byteSum?_eq fits, Option.bind_eq_bind,
    Option.bind_some]
  split <;> rfl

theorem sound_writeIndex (palette : Palette) (value : UInt8) : (palette.writeIndex value).Sound :=
  Nat.lt_succ_of_le (toNat_and_le_right value 0x3f)

theorem Sound.writeData {palette : Palette} (sound : palette.Sound) (value : UInt8) :
    (palette.writeData value).Sound := by
  unfold Palette.writeData Sound
  dsimp only
  split
  · exact Nat.lt_succ_of_le (toNat_and_le_right (palette.index + 1) 0x3f)
  · exact sound

end Palette

end Handheld
