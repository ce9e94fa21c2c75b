import Mathlib.Data.List.Chain
import Mathlib.Data.Nat.Digits.Lemmas
import Mathlib.Tactic.Linarith
import Handheld.Cpu.Alu

/-!
# Long numbers, column by column

A number of several bytes is worked on one byte after the other, each with the carry that the byte
before it put out. Each column is an exact equation between the bytes and the two carries, here for
the operations of the arithmetic unit; from such columns, linked by their carries, the equation
between the whole numbers follows. Subtraction is the same sum read backwards, and a shift adds a
number to itself.
-/
namespace Handheld

/-- The number that bytes stand for, the least significant first. -/
def bytesValue (bytes : List UInt8) : Nat := Nat.ofDigits 256 (bytes.map UInt8.toNat)

theorem bytesValue_lt (bytes : List UInt8) : bytesValue bytes < 256 ^ bytes.length := by
  have digits : ∀ digit ∈ bytes.map UInt8.toNat, digit < 256 := by
    simp only [List.mem_map, forall_exists_index, and_imp, forall_apply_eq_imp_iff₂]
    exact fun byte _ => byte.toNat_lt
  have bound := Nat.ofDigits_lt_base_pow_length (by decide : 1 < 256) digits
  rwa [List.length_map] at bound

/-! ## From columns to numbers -/

section

variable {Place : Type} {base : Nat} {left right total : Place → Nat}

/-- The columns of a sum, from the lowest place up. The lowest one takes in `start`, and each other
one the carry that the place below it puts out. -/
theorem ofDigits_of_columns (carry out : Place → Nat) (start : Nat) {first : Place}
    {rest : List Place}
    (lowest : left first + right first + start = total first + base * out first)
    (others : ∀ place ∈ rest,
      left place + right place + carry place = total place + base * out place)
    (linked : (first :: rest).IsChain fun below above => carry above = out below) :
    Nat.ofDigits base ((first :: rest).map left) + Nat.ofDigits base ((first :: rest).map right) +
        start =
      Nat.ofDigits base ((first :: rest).map total) +
        base ^ (first :: rest).length * out ((first :: rest).getLast (by simp)) := by
  induction rest generalizing first start with
  | nil => simpa using lowest
  | cons second rest ih =>
    obtain ⟨link, linked⟩ := List.isChain_cons_cons.mp linked
    have next := others second (by simp)
    rw [link] at next
    have above := ih (out first) next (fun place member => others place (by simp [member])) linked
    have raised := congrArg (base * ·) above
    simp only [List.map_cons, Nat.ofDigits_cons, List.length_cons, List.getLast_cons_cons,
      pow_succ] at raised ⊢
    linarith

theorem ofDigits_reverse_map_cons (value : Place → Nat) (first : Place) (rest : List Place) :
    Nat.ofDigits base ((first :: rest).map value).reverse =
      Nat.ofDigits base (rest.map value).reverse + base ^ rest.length * value first := by
  rw [List.map_cons, List.reverse_cons, Nat.ofDigits_append, Nat.ofDigits_singleton,
    List.length_reverse, List.length_map]

/-- The columns of a sum, from the highest place down: `carry` is what a place hands to the one
above it, and the highest one hands up `finish`. The sum comes out with what enters below. -/
theorem ofDigits_of_columns_down (carry out : Place → Nat) (finish : Nat) {first : Place}
    {rest : List Place}
    (highest : left first + right first + out first = total first + base * finish)
    (others : ∀ place ∈ rest,
      left place + right place + out place = total place + base * carry place)
    (linked : (first :: rest).IsChain fun above below => carry below = out above) :
    Nat.ofDigits base ((first :: rest).map left).reverse +
        Nat.ofDigits base ((first :: rest).map right).reverse +
        out ((first :: rest).getLast (by simp)) =
      Nat.ofDigits base ((first :: rest).map total).reverse +
        base ^ (first :: rest).length * finish := by
  induction rest generalizing first finish with
  | nil => simpa using highest
  | cons second rest ih =>
    obtain ⟨link, linked⟩ := List.isChain_cons_cons.mp linked
    have next := others second (by simp)
    rw [link] at next
    have below := ih (out first) next (fun place member => others place (by simp [member])) linked
    have raised := congrArg (base ^ (second :: rest).length * ·) highest
    simp only [ofDigits_reverse_map_cons _ first, List.getLast_cons_cons,
      List.length_cons (a := first), pow_succ _ (second :: rest).length] at raised ⊢
    linarith

end

/-- What a sum read backwards says about a difference: it is exact but for the last borrow, and
there is one if and only if the number taken off is the larger one. -/
theorem difference_of_sum {result right left modulus : Nat} {borrow : Bool}
    (sum : result + right = left + modulus * borrow.toNat) (fits : result < modulus) :
    (result : Int) = left - right + borrow.toNat * modulus ∧ (borrow = true ↔ left < right) := by
  cases borrow with
  | false =>
    rw [Bool.toNat_false, Nat.mul_zero] at sum
    refine ⟨?_, ?_⟩
    · rw [Bool.toNat_false]
      omega
    · simp only [Bool.false_eq_true, false_iff]
      omega
  | true =>
    rw [Bool.toNat_true, Nat.mul_one] at sum
    refine ⟨?_, ?_⟩
    · rw [Bool.toNat_true]
      omega
    · simp only [true_iff]
      omega

/-! ## The columns of the arithmetic unit -/

namespace Alu

/-- The column of a sum: nothing is lost between the byte and the carry out. -/
theorem add_column (left right : UInt8) (carry : Bool) :
    left.toNat + right.toNat + carry.toNat =
      (add left right carry).1.toNat + 256 * (add left right carry).2.carry.toNat := by
  have first := left.toNat_lt
  have second := right.toNat_lt
  have result : (add left right carry).1.toNat =
      (left.toNat + right.toNat + carry.toNat) % 256 := by
    cases carry <;> simp [add, UInt8.toNat_add]
  have bit := carry.toNat_le
  rw [result]
  simp only [add]
  by_cases overflows : 256 ≤ left.toNat + right.toNat + carry.toNat
  · simp only [overflows, decide_true, Bool.toNat_true]
    omega
  · simp only [overflows, decide_false, Bool.toNat_false]
    omega

theorem sub_column (left right : UInt8) (borrow : Bool) :
    (sub left right borrow).1.toNat + right.toNat + borrow.toNat =
      left.toNat + 256 * (sub left right borrow).2.carry.toNat := by
  have first := left.toNat_lt
  have second := right.toNat_lt
  have result : (sub left right borrow).1.toNat =
      (left.toNat + 512 - right.toNat - borrow.toNat) % 256 := by
    cases borrow <;> simp [sub, UInt8.toNat_sub] <;> omega
  have bit := borrow.toNat_le
  rw [result]
  simp only [sub]
  by_cases borrows : left.toNat < right.toNat + borrow.toNat
  · simp only [borrows, decide_true, Bool.toNat_true]
    omega
  · simp only [borrows, decide_false, Bool.toNat_false]
    omega

end Alu

namespace Shift

/-- A shift to the left is the sum of a byte and itself; what `sla` shifts in is no carry. -/
theorem left_column (value : UInt8) (carry : Bool) :
    value.toNat + value.toNat + carry.toNat =
      (rl.apply value carry).1.toNat + 256 * (rl.apply value carry).2.toNat := by
  revert value
  cases carry <;> exact forall_byte (by decide +kernel)

/-- A shift to the right undoes the sum of a byte and itself. -/
theorem right_column (value : UInt8) (carry : Bool) :
    (rr.apply value carry).1.toNat + (rr.apply value carry).1.toNat +
        (rr.apply value carry).2.toNat =
      value.toNat + 256 * carry.toNat := by
  revert value
  cases carry <;> exact forall_byte (by decide +kernel)

/-- A shift that takes in nothing is a rotation through a clear carry. -/
theorem sla_eq_rl (value : UInt8) (carry : Bool) :
    sla.apply value carry = rl.apply value false := by
  simp [apply]

theorem srl_eq_rr (value : UInt8) (carry : Bool) :
    srl.apply value carry = rr.apply value false := by
  simp [apply]

end Shift

end Handheld
