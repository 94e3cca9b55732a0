import PhpWebSocket.Lib.Utf8
import PhpWebSocket.Protocol

/-! # The UTF-8 check

`websocket_protocol_is_valid_utf8` knows nine classes of lead octets. They are the four
lengths of an encoding, with the overlong forms, the surrogates and the values above
U+10FFFF cut out of the ranges of the second octet.
-/

namespace PhpWebSocket

open Lib

theorem isTail_iff (b : UInt8) : isTail b = true ↔ Tail b := by
  unfold Tail
  revert b
  exact forall_octet (by decide +kernel)

theorem isTail_eq (b : UInt8) : isTail b = decide (Tail b) := by
  rw [Bool.eq_iff_iff, isTail_iff, decide_eq_true_eq]

theorem inside_eq (n low high : Nat) :
    (!(decide (n < low) || decide (high < n))) = decide (low ≤ n ∧ n ≤ high) := by
  rw [Bool.eq_iff_iff]
  simp

/-- The lead classes and the bounds of the source as numbers. -/
theorem isValidUtf8_cons (c : UInt8) (rest : Bytes) :
    isValidUtf8 (c :: rest) =
      if c.toNat ≤ 0x7f then isValidUtf8 rest
      else if 0xc2 ≤ c.toNat ∧ c.toNat ≤ 0xdf then
        match rest with
        | b1 :: rest => decide (Tail b1) && isValidUtf8 rest
        | _ => false
      else if 0xe0 ≤ c.toNat ∧ c.toNat ≤ 0xef then
        match rest with
        | b1 :: b2 :: rest => decide (Tail b1 ∧ Tail b2 ∧ (c.toNat = 0xe0 → 0xa0 ≤ b1.toNat) ∧
            (c.toNat = 0xed → b1.toNat ≤ 0x9f)) && isValidUtf8 rest
        | _ => false
      else if 0xf0 ≤ c.toNat ∧ c.toNat ≤ 0xf4 then
        match rest with
        | b1 :: b2 :: b3 :: rest => decide (Tail b1 ∧ Tail b2 ∧ Tail b3 ∧
            (c.toNat = 0xf0 → 0x90 ≤ b1.toNat) ∧ (c.toNat = 0xf4 → b1.toNat ≤ 0x8f)) && isValidUtf8 rest
        | _ => false
      else false := by
  rw [isValidUtf8.eq_def]
  simp only [isTail_eq, UInt8.le_iff_toNat_le, UInt8.lt_iff_toNat_lt, gt_iff_lt, ← UInt8.toNat_inj,
    UInt8.reduceToNat, Bool.or_eq_true, decide_eq_true_eq, inside_eq, ← Bool.decide_and]
  have same {p q : Prop} [Decidable p] [Decidable q] (iff : p ↔ q) (valid : Bool) :
      (decide p && valid) = (decide q && valid) := by rw [decide_eq_decide.mpr iff]
  rcases rest with _ | ⟨b1, _ | ⟨b2, _ | ⟨b3, rest⟩⟩⟩ <;> dsimp only <;> split_ifs <;>
    first
    | rfl
    | omega
    | exact same (by simp only [Tail]; omega) _

theorem isValidUtf8_encode (c : Char) (rest : Bytes) :
    isValidUtf8 (String.utf8EncodeChar c ++ rest) = isValidUtf8 rest := by
  rcases encode_cases c with ⟨b0, encoded⟩ | ⟨b0, b1, encoded⟩ | ⟨b0, b1, b2, encoded⟩ |
    ⟨b0, b1, b2, b3, encoded⟩
  · have lead := encode_one_iff.mp ⟨c, encoded⟩
    rw [encoded, List.cons_append, isValidUtf8_cons, if_pos lead, List.nil_append]
  · obtain ⟨low, high, tail⟩ := encode_two_iff.mp ⟨c, encoded⟩
    rw [encoded, List.cons_append, isValidUtf8_cons, if_neg (by omega), if_pos ⟨low, high⟩]
    simp [tail]
  · obtain ⟨low, high, bounds⟩ := encode_three_iff.mp ⟨c, encoded⟩
    rw [encoded, List.cons_append, isValidUtf8_cons, if_neg (by omega), if_neg (by omega),
      if_pos ⟨low, high⟩]
    simp only [List.cons_append, List.nil_append, decide_eq_true bounds, Bool.true_and]
  · obtain ⟨low, high, bounds⟩ := encode_four_iff.mp ⟨c, encoded⟩
    rw [encoded, List.cons_append, isValidUtf8_cons, if_neg (by omega), if_neg (by omega),
      if_neg (by omega), if_pos ⟨low, high⟩]
    simp only [List.cons_append, List.nil_append, decide_eq_true bounds, Bool.true_and]

theorem exists_encode {c : UInt8} {b : Bytes} (valid : isValidUtf8 (c :: b) = true) :
    ∃ char rest, c :: b = String.utf8EncodeChar char ++ rest ∧ isValidUtf8 rest = true := by
  have behind {char : Char} {start rest : Bytes} (encoded : String.utf8EncodeChar char = start)
      (valid : isValidUtf8 rest = true) :
      ∃ char more, start ++ rest = String.utf8EncodeChar char ++ more ∧ isValidUtf8 more = true :=
    ⟨char, rest, by rw [encoded], valid⟩
  rw [isValidUtf8_cons] at valid
  split at valid
  · rename_i lead
    obtain ⟨char, encoded⟩ := encode_one_iff.mpr lead
    exact behind encoded valid
  · split at valid
    · rename_i lead
      split at valid
      · rename_i b1 rest
        rw [Bool.and_eq_true, decide_eq_true_eq] at valid
        obtain ⟨char, encoded⟩ := encode_two_iff.mpr ⟨lead.1, lead.2, valid.1⟩
        exact behind encoded valid.2
      · cases valid
    · split at valid
      · rename_i lead
        split at valid
        · rename_i b1 b2 rest
          rw [Bool.and_eq_true, decide_eq_true_eq] at valid
          obtain ⟨char, encoded⟩ := encode_three_iff.mpr ⟨lead.1, lead.2, valid.1⟩
          exact behind encoded valid.2
        · cases valid
      · split at valid
        · rename_i lead
          split at valid
          · rename_i b1 b2 b3 rest
            rw [Bool.and_eq_true, decide_eq_true_eq] at valid
            obtain ⟨char, encoded⟩ := encode_four_iff.mpr ⟨lead.1, lead.2, valid.1⟩
            exact behind encoded valid.2
          · cases valid
        · cases valid

/-- The check accepts the encodings of finite lists of scalar values, and nothing else. -/
theorem isValidUtf8_iff (b : Bytes) :
    isValidUtf8 b = true ↔ ∃ chars : List Char, b = chars.flatMap String.utf8EncodeChar := by
  constructor
  · intro valid
    induction size : b.length using Nat.strong_induction_on generalizing b with
    | _ n ih =>
        subst size
        cases b with
        | nil => exact ⟨[], rfl⟩
        | cons c b =>
            obtain ⟨char, rest, split, validRest⟩ := exists_encode valid
            have shorter : rest.length < (c :: b).length := by
              have some := char.utf8Size_pos
              rw [split, List.length_append, String.length_utf8EncodeChar]
              omega
            obtain ⟨chars, more⟩ := ih _ shorter rest validRest rfl
            exact ⟨char :: chars, by rw [List.flatMap_cons, ← more, split]⟩
  · rintro ⟨chars, rfl⟩
    induction chars with
    | nil => rfl
    | cons char chars ih => rw [List.flatMap_cons, isValidUtf8_encode, ih]

end PhpWebSocket
