import Mathlib.Tactic.Common
import Mathlib.Data.UInt

/-! # UTF-8, octet by octet

Which octets are the encoding of one scalar value. A `Char` is a scalar value, and
`String.utf8EncodeChar` is its encoding; for each length the octets are described by their
ranges, as decoders test them.
-/

namespace PhpWebSocket.Lib

theorem exists_char {n : Nat} (valid : n.isValidChar) : ∃ c : Char, c.val.toNat = n :=
  ⟨Char.ofNatAux n valid, rfl⟩

theorem char_valid (c : Char) :
    c.val.toNat < 0xd800 ∨ (0xdfff < c.val.toNat ∧ c.val.toNat < 0x110000) := c.valid

theorem octet_eq_iff {n : Nat} {b : UInt8} (small : n < 256) : UInt8.ofNat n = b ↔ n = b.toNat := by
  rw [← UInt8.toNat_inj, UInt8.toNat_ofNat', Nat.mod_eq_of_lt small]

/-- An octet that continues a character. -/
def Tail (b : UInt8) : Prop := 0x80 ≤ b.toNat ∧ b.toNat ≤ 0xbf

instance (b : UInt8) : Decidable (Tail b) := inferInstanceAs (Decidable (_ ∧ _))

theorem encode_one_iff {b : UInt8} : (∃ c, String.utf8EncodeChar c = [b]) ↔ b.toNat ≤ 0x7f := by
  constructor
  · rintro ⟨c, encoded⟩
    simp only [String.utf8EncodeChar] at encoded
    split at encoded
    · rename_i small
      rw [List.cons.injEq, octet_eq_iff (by omega)] at encoded
      omega
    · split at encoded
      · cases encoded
      · split at encoded <;> cases encoded
  · intro small
    obtain ⟨c, value⟩ := exists_char (n := b.toNat) (Or.inl (by omega))
    refine ⟨c, ?_⟩
    simp only [String.utf8EncodeChar, value]
    rw [if_pos small, UInt8.ofNat_toNat]

theorem encode_two_iff {b0 b1 : UInt8} : (∃ c, String.utf8EncodeChar c = [b0, b1]) ↔
    0xc2 ≤ b0.toNat ∧ b0.toNat ≤ 0xdf ∧ Tail b1 := by
  constructor
  · rintro ⟨c, encoded⟩
    simp only [String.utf8EncodeChar] at encoded
    split at encoded
    · cases encoded
    · split at encoded
      · simp only [List.cons.injEq, and_true] at encoded
        rw [octet_eq_iff (by omega), octet_eq_iff (by omega)] at encoded
        unfold Tail
        omega
      · split at encoded <;> cases encoded
  · rintro ⟨low, high, tail⟩
    unfold Tail at tail
    obtain ⟨c, value⟩ := exists_char (n := (b0.toNat - 0xc0) * 64 + (b1.toNat - 0x80))
      (Or.inl (by omega))
    refine ⟨c, ?_⟩
    simp only [String.utf8EncodeChar, value]
    rw [if_neg (by omega), if_pos (by omega)]
    simp only [List.cons.injEq, and_true]
    rw [octet_eq_iff (by omega), octet_eq_iff (by omega)]
    omega

/-- Three octets: neither an overlong form nor a surrogate. -/
theorem encode_three_iff {b0 b1 b2 : UInt8} : (∃ c, String.utf8EncodeChar c = [b0, b1, b2]) ↔
    0xe0 ≤ b0.toNat ∧ b0.toNat ≤ 0xef ∧ Tail b1 ∧ Tail b2 ∧
      (b0.toNat = 0xe0 → 0xa0 ≤ b1.toNat) ∧ (b0.toNat = 0xed → b1.toNat ≤ 0x9f) := by
  constructor
  · rintro ⟨c, encoded⟩
    have valid := char_valid c
    simp only [String.utf8EncodeChar] at encoded
    split at encoded
    · cases encoded
    · split at encoded
      · cases encoded
      · split at encoded
        · simp only [List.cons.injEq, and_true] at encoded
          rw [octet_eq_iff (by omega), octet_eq_iff (by omega), octet_eq_iff (by omega)] at encoded
          rw [Tail, Tail]
          omega
        · cases encoded
  · rintro ⟨low, high, tail1, tail2, short, surrogate⟩
    unfold Tail at tail1 tail2
    obtain ⟨c, value⟩ := exists_char
      (n := (b0.toNat - 0xe0) * 4096 + (b1.toNat - 0x80) * 64 + (b2.toNat - 0x80))
      (by rw [Nat.isValidChar]; omega)
    refine ⟨c, ?_⟩
    simp only [String.utf8EncodeChar, value]
    rw [if_neg (by omega), if_neg (by omega), if_pos (by omega)]
    simp only [List.cons.injEq, and_true]
    rw [octet_eq_iff (by omega), octet_eq_iff (by omega), octet_eq_iff (by omega)]
    omega

/-- Four octets: neither an overlong form nor a value above the last one. -/
theorem encode_four_iff {b0 b1 b2 b3 : UInt8} : (∃ c, String.utf8EncodeChar c = [b0, b1, b2, b3]) ↔
    0xf0 ≤ b0.toNat ∧ b0.toNat ≤ 0xf4 ∧ Tail b1 ∧ Tail b2 ∧ Tail b3 ∧
      (b0.toNat = 0xf0 → 0x90 ≤ b1.toNat) ∧ (b0.toNat = 0xf4 → b1.toNat ≤ 0x8f) := by
  constructor
  · rintro ⟨c, encoded⟩
    have valid := char_valid c
    simp only [String.utf8EncodeChar] at encoded
    split at encoded
    · cases encoded
    · split at encoded
      · cases encoded
      · split at encoded
        · cases encoded
        · simp only [List.cons.injEq, and_true] at encoded
          rw [octet_eq_iff (by omega), octet_eq_iff (by omega), octet_eq_iff (by omega),
            octet_eq_iff (by omega)] at encoded
          rw [Tail, Tail, Tail]
          omega
  · rintro ⟨low, high, tail1, tail2, tail3, short, large⟩
    unfold Tail at tail1 tail2 tail3
    obtain ⟨c, value⟩ := exists_char
      (n := (b0.toNat - 0xf0) * 262144 + (b1.toNat - 0x80) * 4096 + (b2.toNat - 0x80) * 64 +
        (b3.toNat - 0x80)) (by rw [Nat.isValidChar]; omega)
    refine ⟨c, ?_⟩
    simp only [String.utf8EncodeChar, value]
    rw [if_neg (by omega), if_neg (by omega), if_neg (by omega)]
    simp only [List.cons.injEq, and_true]
    rw [octet_eq_iff (by omega), octet_eq_iff (by omega), octet_eq_iff (by omega),
      octet_eq_iff (by omega)]
    omega

theorem encode_cases (c : Char) : (∃ b0, String.utf8EncodeChar c = [b0]) ∨
    (∃ b0 b1, String.utf8EncodeChar c = [b0, b1]) ∨
    (∃ b0 b1 b2, String.utf8EncodeChar c = [b0, b1, b2]) ∨
    ∃ b0 b1 b2 b3, String.utf8EncodeChar c = [b0, b1, b2, b3] := by
  simp only [String.utf8EncodeChar]
  split
  · exact Or.inl ⟨_, rfl⟩
  · split
    · exact Or.inr (Or.inl ⟨_, _, rfl⟩)
    · split
      · exact Or.inr (Or.inr (Or.inl ⟨_, _, _, rfl⟩))
      · exact Or.inr (Or.inr (Or.inr ⟨_, _, _, _, rfl⟩))

end PhpWebSocket.Lib
