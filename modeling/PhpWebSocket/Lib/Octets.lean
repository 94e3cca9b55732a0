import Mathlib.Data.Nat.Bitwise
import Mathlib.Data.UInt
import Mathlib.Tactic.Ring

/-! # Octet strings as numbers

Big-endian numbers in a fixed count of octets, written with shifts as byte-level
programs write them, and the two laws such programs rest on: reading what was
written, and writing what was read. Exclusive or goes through the number octet
by octet, which is what lets a program mask a whole machine word at once.
-/

namespace PhpWebSocket.Lib

/-- The number whose octets are given, most significant first. -/
def bigEndian (octets : List UInt8) : Nat :=
  octets.foldl (fun acc b => acc <<< 8 ||| b.toNat) 0

/-- The `k` low octets of a number, most significant first. -/
def toOctets : Nat → Nat → List UInt8
  | 0, _ => []
  | k + 1, n => UInt8.ofNat ((n >>> (8 * k)) &&& 0xff) :: toOctets k n

@[simp] theorem length_toOctets (k n : Nat) : (toOctets k n).length = k := by
  induction k with
  | zero => rfl
  | succ k ih => simp only [toOctets, List.length_cons, ih]

theorem shift_or (acc : Nat) (b : UInt8) : acc <<< 8 ||| b.toNat = acc * 2 ^ 8 + b.toNat := by
  have small : b.toNat < 2 ^ 8 := b.toNat_lt
  rw [Nat.shiftLeft_eq, Nat.mul_comm acc, Nat.two_pow_add_eq_or_of_lt small]

private theorem foldl_scale (octets : List UInt8) (acc : Nat) :
    octets.foldl (fun acc b => acc <<< 8 ||| b.toNat) acc =
      acc * 2 ^ (8 * octets.length) + bigEndian octets := by
  induction octets generalizing acc with
  | nil => simp [bigEndian]
  | cons b rest ih =>
      have head : bigEndian (b :: rest) = b.toNat * 2 ^ (8 * rest.length) + bigEndian rest := by
        rw [bigEndian, List.foldl_cons, ih, shift_or]
        ring
      rw [List.foldl_cons, ih, shift_or, head, List.length_cons]
      ring

@[simp] theorem bigEndian_nil : bigEndian [] = 0 := rfl

theorem bigEndian_cons (b : UInt8) (rest : List UInt8) :
    bigEndian (b :: rest) = b.toNat * 2 ^ (8 * rest.length) + bigEndian rest := by
  rw [bigEndian, List.foldl_cons, shift_or, foldl_scale]
  ring

theorem bigEndian_lt (octets : List UInt8) : bigEndian octets < 2 ^ (8 * octets.length) := by
  induction octets with
  | nil => decide
  | cons b rest ih =>
      have small : b.toNat < 2 ^ 8 := b.toNat_lt
      have step : (b.toNat + 1) * 2 ^ (8 * rest.length) ≤ 2 ^ 8 * 2 ^ (8 * rest.length) :=
        Nat.mul_le_mul_right _ small
      rw [bigEndian_cons, List.length_cons]
      calc b.toNat * 2 ^ (8 * rest.length) + bigEndian rest
          < b.toNat * 2 ^ (8 * rest.length) + 2 ^ (8 * rest.length) := Nat.add_lt_add_left ih _
        _ = (b.toNat + 1) * 2 ^ (8 * rest.length) := (Nat.add_one_mul _ _).symm
        _ ≤ 2 ^ 8 * 2 ^ (8 * rest.length) := step
        _ = 2 ^ (8 * (rest.length + 1)) := by rw [← pow_add]; ring_nf

theorem bigEndian_append (a b : List UInt8) :
    bigEndian (a ++ b) = bigEndian a <<< (8 * b.length) ||| bigEndian b := by
  have small := bigEndian_lt b
  rw [bigEndian, List.foldl_append, foldl_scale, ← bigEndian, Nat.shiftLeft_eq,
    Nat.mul_comm (bigEndian a), Nat.two_pow_add_eq_or_of_lt small]

private theorem low_octet (n k : Nat) :
    (UInt8.ofNat ((n >>> (8 * k)) &&& 0xff)).toNat = n / 2 ^ (8 * k) % 2 ^ 8 := by
  rw [UInt8.toNat_ofNat', Nat.and_two_pow_sub_one_eq_mod _ 8, Nat.shiftRight_eq_div_pow, Nat.mod_mod]

/-- Reading back the octets of a number keeps exactly its low bits. -/
theorem bigEndian_toOctets (k n : Nat) : bigEndian (toOctets k n) = n % 2 ^ (8 * k) := by
  induction k with
  | zero => simp [toOctets, Nat.mod_one]
  | succ k ih =>
      rw [toOctets, bigEndian_cons, low_octet, length_toOctets, ih]
      have split : 2 ^ (8 * (k + 1)) = 2 ^ (8 * k) * 2 ^ 8 := by rw [← pow_add]; ring_nf
      rw [split, Nat.mod_mul]
      ring

theorem bigEndian_toOctets_of_lt {k n : Nat} (h : n < 2 ^ (8 * k)) :
    bigEndian (toOctets k n) = n := by
  rw [bigEndian_toOctets, Nat.mod_eq_of_lt h]

theorem bigEndian_injective {a b : List UInt8} (same : a.length = b.length)
    (h : bigEndian a = bigEndian b) : a = b := by
  induction a generalizing b with
  | nil => exact (List.length_eq_zero_iff.mp same.symm).symm
  | cons x xs ih =>
      cases b with
      | nil => simp at same
      | cons y ys =>
          have lengths : xs.length = ys.length := by simpa using same
          rw [bigEndian_cons, bigEndian_cons, lengths] at h
          have xsLt : bigEndian xs < 2 ^ (8 * ys.length) := lengths ▸ bigEndian_lt xs
          have ysLt := bigEndian_lt ys
          have heads : x.toNat = y.toNat := by
            have := congrArg (· / 2 ^ (8 * ys.length)) h
            simpa [Nat.mul_comm _ (2 ^ (8 * ys.length)), Nat.mul_add_div, Nat.div_eq_of_lt xsLt,
              Nat.div_eq_of_lt ysLt] using this
          have tails : bigEndian xs = bigEndian ys := by rw [heads] at h; omega
          rw [UInt8.toNat_inj.mp heads, ih lengths tails]

theorem toOctets_bigEndian (octets : List UInt8) :
    toOctets octets.length (bigEndian octets) = octets := by
  apply bigEndian_injective (length_toOctets _ _)
  exact bigEndian_toOctets_of_lt (bigEndian_lt octets)

theorem bigEndian_pair (a b : UInt8) : bigEndian [a, b] = a.toNat <<< 8 ||| b.toNat := by
  simp [bigEndian]

/-- A fact about one octet is settled by the 256 octets there are. -/
theorem forall_octet {p : UInt8 → Prop} (h : ∀ n : Fin 256, p (UInt8.ofNat n)) (b : UInt8) : p b := by
  have small : b.toNat < 256 := b.toNat_lt
  simpa using h ⟨b.toNat, small⟩

/-- Exclusive or of two octet strings, position by position. -/
def xorOctets (a b : List UInt8) : List UInt8 := List.zipWith (· ^^^ ·) a b

theorem length_xorOctets {a b : List UInt8} (same : a.length = b.length) :
    (xorOctets a b).length = b.length := by
  simp [xorOctets, same]

private theorem block_xor {k p q r s : Nat} (hq : q < 2 ^ k) (hs : s < 2 ^ k) :
    (p * 2 ^ k + q) ^^^ (r * 2 ^ k + s) = (p ^^^ r) * 2 ^ k + (q ^^^ s) := by
  have hqs : q ^^^ s < 2 ^ k := Nat.xor_lt_two_pow hq hs
  rw [Nat.mul_comm p, Nat.mul_comm r, Nat.mul_comm (p ^^^ r)]
  apply Nat.eq_of_testBit_eq
  intro i
  rw [Nat.testBit_xor, Nat.testBit_two_pow_mul_add _ hq, Nat.testBit_two_pow_mul_add _ hs,
    Nat.testBit_two_pow_mul_add _ hqs]
  split <;> simp only [Nat.testBit_xor]

theorem bigEndian_xorOctets {a b : List UInt8} (same : a.length = b.length) :
    bigEndian (xorOctets a b) = bigEndian a ^^^ bigEndian b := by
  induction a generalizing b with
  | nil =>
      rw [List.length_eq_zero_iff.mp same.symm]
      rfl
  | cons x xs ih =>
      cases b with
      | nil => simp at same
      | cons y ys =>
          have lengths : xs.length = ys.length := by simpa using same
          have xsLt : bigEndian xs < 2 ^ (8 * ys.length) := lengths ▸ bigEndian_lt xs
          rw [show xorOctets (x :: xs) (y :: ys) = (x ^^^ y) :: xorOctets xs ys from rfl,
            bigEndian_cons, length_xorOctets lengths, ih lengths, bigEndian_cons, bigEndian_cons,
            lengths, block_xor xsLt (bigEndian_lt ys), UInt8.toNat_xor]

theorem toOctets_xor {a b : List UInt8} (same : a.length = b.length) :
    toOctets b.length (bigEndian a ^^^ bigEndian b) = xorOctets a b := by
  rw [← bigEndian_xorOctets same, ← length_xorOctets same, toOctets_bigEndian]

end PhpWebSocket.Lib
