import Mathlib.Data.UInt
import PhpWebSocket.Lib.Checked

/-! # Memory blocks

A block from the allocator holds cells that have not been written. It grows into another
block with the same front; elements are copied into it, and cells to its front. How large it
grows is a power of two times the size it had, computed in a machine word.
-/

namespace PhpWebSocket.Lib

abbrev Block (α : Type) := List (Option α)

namespace Block

variable {α : Type}

/-- `malloc` -/
def alloc (n : Nat) : Block α := List.replicate n none

/-- `realloc` -/
def resize (b : Block α) (n : Nat) : Block α := b.take n ++ alloc (n - b.length)

/-- `memcpy` of elements to the cells from `i` on. -/
def put (b : Block α) (i : Nat) (xs : List α) : Checked (Block α) := Checked.write b i (xs.map some)

/-- `memmove` of the `n` cells from `i` on to the front. -/
def moveDown (b : Block α) (i n : Nat) : Checked (Block α) := do
  let cells ← Checked.copy b i n
  Checked.write b 0 cells

theorem length_alloc (n : Nat) : (alloc n : Block α).length = n := List.length_replicate

theorem resize_nil (n : Nat) : (resize [] n : Block α) = alloc n := by
  rw [resize, List.take_nil, List.nil_append, List.length_nil, Nat.sub_zero]

theorem length_resize {b : Block α} {n : Nat} (grows : b.length ≤ n) : (b.resize n).length = n := by
  rw [resize, List.length_append, length_alloc, List.length_take, Nat.min_eq_right grows]
  exact Nat.add_sub_of_le grows

theorem take_resize {b : Block α} {n k : Nat} (grows : b.length ≤ n) (front : k ≤ b.length) :
    (b.resize n).take k = b.take k := by
  rw [resize, List.take_of_length_le grows, List.take_append_of_le_length front]

theorem put_ok {b : Block α} {i : Nat} {xs : List α} (room : i + xs.length ≤ b.length) :
    ∃ b', b.put i xs = .ok b' ∧ b'.length = b.length ∧
      b'.take (i + xs.length) = b.take i ++ xs.map some := by
  have inside : i + (xs.map some).length ≤ b.length := by rwa [List.length_map]
  have front : (b.take i ++ xs.map some).length = i + xs.length := by
    rw [List.length_append, List.length_map, List.length_take_of_le (by omega)]
  refine ⟨_, Checked.write_ok inside, ?_, ?_⟩
  · rw [List.length_append, front, List.length_drop, List.length_map]
    omega
  · rw [← front, List.take_left]

theorem moveDown_ok {b : Block α} {i n : Nat} (inside : i + n ≤ b.length) :
    ∃ b', b.moveDown i n = .ok b' ∧ b'.length = b.length ∧ b'.take n = (b.drop i).take n := by
  have cells : ((b.drop i).take n).length = n := by
    rw [List.length_take_of_le]
    rw [List.length_drop]
    omega
  refine ⟨(b.drop i).take n ++ b.drop n, ?_, ?_, ?_⟩
  · rw [moveDown, Checked.copy_ok inside, Checked.ok_bind, Checked.write_ok (by omega), cells,
      List.take_zero, List.nil_append, Nat.zero_add]
  · rw [List.length_append, cells, List.length_drop]
    omega
  · rw [List.take_left' cells]

end Block

/-! ## Doubling -/

theorem toNat_if_gt (a b x y : UInt64) :
    (if a > b then x else y).toNat = if a.toNat > b.toNat then x.toNat else y.toNat := by
  simp only [gt_iff_lt, UInt64.lt_iff_toNat_lt]
  split <;> rfl

/-- `while (capacity < needed) capacity *= 2` -/
def doubleUntil : Nat → UInt64 → UInt64 → Checked UInt64
  | 0, _, _ => .error .endless
  | fuel + 1, capacity, needed =>
      if capacity < needed then doubleUntil fuel (capacity * 2) needed else .ok capacity

theorem doubleUntil_error_iff {fuel : Nat} {capacity needed : UInt64} :
    doubleUntil fuel capacity needed = .error .endless ↔ ∀ k < fuel, capacity * 2 ^ k < needed := by
  induction fuel generalizing capacity with
  | zero => exact iff_of_true rfl fun k before => absurd before (Nat.not_lt_zero k)
  | succ fuel ih =>
      unfold doubleUntil
      split
      · rename_i small
        rw [ih]
        constructor
        · intro later k before
          cases k with
          | zero => rwa [UInt64.pow_zero, UInt64.mul_one]
          | succ k =>
              rw [UInt64.pow_succ, UInt64.mul_comm (2 ^ k), ← UInt64.mul_assoc]
              exact later k (Nat.lt_of_succ_lt_succ before)
        · intro all k before
          have next := all (k + 1) (Nat.succ_lt_succ before)
          rwa [UInt64.pow_succ, UInt64.mul_comm (2 ^ k), ← UInt64.mul_assoc] at next
      · rename_i large
        refine iff_of_false nofun fun all => large ?_
        have first := all 0 (Nat.succ_pos fuel)
        rwa [UInt64.pow_zero, UInt64.mul_one] at first

theorem toNat_two_pow (k : Nat) : ((2 : UInt64) ^ k).toNat = 2 ^ k % 2 ^ 64 := by
  induction k with
  | zero => rfl
  | succ k ih =>
      rw [UInt64.pow_succ, UInt64.toNat_mul, ih, Nat.pow_succ, Nat.mod_mul_mod]
      rfl

/-- After 64 doublings the word is 0, so a loop that has not ended by then does not end. -/
theorem doubleUntil_endless {capacity needed : UInt64}
    (endless : doubleUntil 64 capacity needed = .error .endless) (fuel : Nat) :
    doubleUntil fuel capacity needed = .error .endless := by
  rw [doubleUntil_error_iff] at endless ⊢
  intro k _
  rcases Nat.lt_or_ge k 64 with early | late
  · exact endless k early
  · have gone : (2 : UInt64) ^ k = 0 := by
      apply UInt64.toNat.inj
      rw [toNat_two_pow]
      exact Nat.mod_eq_zero_of_dvd (Nat.pow_dvd_pow 2 late)
    rw [gone, UInt64.mul_zero]
    exact UInt64.lt_of_le_of_lt (UInt64.zero_le) (endless 0 (by decide))

/-- Where no doubling overflows, the loop ends with the least multiple that is enough. -/
theorem doubleUntil_ok {fuel : Nat} {capacity needed : UInt64} (positive : 0 < capacity.toNat)
    (small : needed.toNat ≤ 2 ^ 63) (enough : needed.toNat ≤ capacity.toNat * 2 ^ fuel) :
    ∃ k, ∃ r : UInt64, doubleUntil (fuel + 1) capacity needed = .ok r ∧
      r.toNat = capacity.toNat * 2 ^ k ∧ needed.toNat ≤ r.toNat ∧
      ∀ j < k, capacity.toNat * 2 ^ j < needed.toNat := by
  induction fuel generalizing capacity with
  | zero =>
      rw [Nat.pow_zero, Nat.mul_one] at enough
      refine ⟨0, capacity, ?_, by rw [Nat.pow_zero, Nat.mul_one], enough,
        fun j before => absurd before (Nat.not_lt_zero j)⟩
      rw [doubleUntil, if_neg (by rw [UInt64.lt_iff_toNat_lt]; omega)]
  | succ fuel ih =>
      unfold doubleUntil
      by_cases less : capacity < needed
      · have below := UInt64.lt_iff_toNat_lt.mp less
        have twice : (capacity * 2).toNat = capacity.toNat * 2 := by
          rw [UInt64.toNat_mul, show (2 : UInt64).toNat = 2 from rfl, Nat.mod_eq_of_lt (by omega)]
        rw [if_pos less]
        obtain ⟨k, r, ends, value, above, least⟩ := @ih (capacity * 2) (by omega) (by
          rw [twice, Nat.mul_assoc, ← Nat.pow_succ']
          exact enough)
        refine ⟨k + 1, r, ends, ?_, above, ?_⟩
        · rw [value, twice, Nat.mul_assoc, ← Nat.pow_succ']
        · intro j before
          cases j with
          | zero => rwa [Nat.pow_zero, Nat.mul_one]
          | succ j =>
              have earlier := least j (Nat.lt_of_succ_lt_succ before)
              rwa [twice, Nat.mul_assoc, ← Nat.pow_succ'] at earlier
      · rw [if_neg less]
        refine ⟨0, capacity, rfl, by rw [Nat.pow_zero, Nat.mul_one], ?_,
          fun j before => absurd before (Nat.not_lt_zero j)⟩
        rw [UInt64.lt_iff_toNat_lt] at less
        omega

end PhpWebSocket.Lib
