import PhpWebSocket.Lib.Checked
import PhpWebSocket.Protocol

/-! # Masking in memory

The two masking loops on the buffers they read and write, with every access checked and the
index as the source counts it. `Protocol` has the octets that they come to.
-/

namespace PhpWebSocket

open Lib Checked

/-- The 8-byte loop of `websocket_mask_payload_copy`: where it stops, and what it has written. -/
def maskWordsInto (endian : Endian) (mask64 : Nat) (src : Bytes) (len : Nat) :
    Nat → Nat → Bytes → Checked (Nat × Bytes)
  | 0, _, _ => .error .endless
  | fuel + 1, i, dst =>
      if i + 8 ≤ len then do
        let chunk ← copy src i 8
        let dst ← write dst i (endian.store 8 (endian.load chunk ^^^ mask64))
        maskWordsInto endian mask64 src len fuel (i + 8) dst
      else .ok (i, dst)

/-- The 4-byte step. -/
def maskHalfWordInto (endian : Endian) (mask32 : Nat) (src : Bytes) (len i : Nat) (dst : Bytes) :
    Checked (Nat × Bytes) :=
  if i + 4 ≤ len then do
    let chunk ← copy src i 4
    let dst ← write dst i (endian.store 4 (endian.load chunk ^^^ mask32))
    .ok (i + 4, dst)
  else .ok (i, dst)

/-- The loop over single octets. -/
def maskBytesInto (mask : MaskKey) (src : Bytes) (len : Nat) : Nat → Nat → Bytes → Checked Bytes
  | 0, _, _ => .error .endless
  | fuel + 1, i, dst =>
      if i < len then do
        let octet ← read src i
        let dst ← write dst i [octet ^^^ mask.octetAt i]
        maskBytesInto mask src len fuel (i + 1) dst
      else .ok dst

/-- `websocket_mask_payload_copy`. -/
def maskPayloadCopyInto (endian : Endian) (dst src : Bytes) (len : Nat) (mask : MaskKey) :
    Checked Bytes := do
  let mask32 := endian.load mask.octets
  let mask64 := mask32 <<< 32 ||| mask32
  let words ← maskWordsInto endian mask64 src len (len + 1) 0 dst
  let half ← maskHalfWordInto endian mask32 src len words.1 words.2
  maskBytesInto mask src len (len + 1) half.1 half.2

/-- `websocket_server_mask_payload`. -/
def maskPayloadInto (dst src : Bytes) (len : Nat) (mask : MaskKey) : Checked Bytes :=
  maskBytesInto mask src len (len + 1) 0 dst

/-- The destination `dst` when the first `i` octets have been masked. -/
def maskedUpTo (mask : MaskKey) (src dst : Bytes) (i : Nat) : Bytes :=
  maskPayload (src.take i) mask ++ dst.drop i

section

variable {mask : MaskKey} {src dst : Bytes} {len i : Nat}

theorem maskBytes_aligned (mask : MaskKey) (aligned : i % 4 = 0) (b : Bytes) :
    maskBytes mask i b = maskBytes mask 0 b := by
  obtain ⟨q, rfl⟩ := Nat.dvd_of_mod_eq_zero aligned
  induction q with
  | zero => rfl
  | succ q ih => rw [Nat.mul_succ, maskBytes_period, ih (by omega)]

/-- The step of all three loops: `n` more octets, which come out as the plain loop has them. -/
theorem maskedUpTo_write (n : Nat) (readable : i + n ≤ src.length) (writable : i + n ≤ dst.length) :
    write (maskedUpTo mask src dst i) i (maskBytes mask i ((src.drop i).take n)) =
      .ok (maskedUpTo mask src dst (i + n)) := by
  have front : (maskPayload (src.take i) mask).length = i := by
    rw [length_maskPayload, List.length_take]
    omega
  have length : (maskBytes mask i ((src.drop i).take n)).length = n := by
    rw [length_maskBytes, List.length_take, List.length_drop]
    omega
  have joined : maskPayload (src.take i) mask ++ maskBytes mask i ((src.drop i).take n) =
      maskPayload (src.take (i + n)) mask := by
    have taken : (src.take i).length = i := by
      rw [List.length_take]
      omega
    rw [maskPayload, maskPayload, List.take_add, maskBytes_append, taken, Nat.zero_add]
  have room : (maskPayload (src.take i) mask).length +
      (maskBytes mask i ((src.drop i).take n)).length ≤ dst.length := by
    rw [front, length]
    exact writable
  have wrote := write_behind dst room
  rw [joined, front] at wrote
  have all : (maskPayload (src.take (i + n)) mask).length = i + n := by
    rw [length_maskPayload, List.length_take]
    omega
  rw [all] at wrote
  exact wrote

theorem maskWordsInto_ok (endian : Endian) (readable : len ≤ src.length) (writable : len ≤ dst.length)
    {fuel : Nat} (enough : len < i + fuel) (aligned : i % 4 = 0) (inside : i ≤ len) :
    ∃ j, j % 4 = 0 ∧ j ≤ len ∧
      maskWordsInto endian (endian.load mask.octets <<< 32 ||| endian.load mask.octets) src len fuel i
        (maskedUpTo mask src dst i) = .ok (j, maskedUpTo mask src dst j) := by
  induction fuel generalizing i with
  | zero => omega
  | succ fuel ih =>
      unfold maskWordsInto
      split
      · rename_i room
        have chunk : ((src.drop i).take 8).length = (mask.octets ++ mask.octets).length := by
          rw [List.length_take, List.length_drop]
          change _ = 8
          omega
        have word := endian.store_xor chunk
        rw [← endian.load_twice, show (mask.octets ++ mask.octets).length = 8 from rfl] at word
        have plain : xorOctets ((src.drop i).take 8) (mask.octets ++ mask.octets) =
            maskBytes mask i ((src.drop i).take 8) := by
          rw [maskBytes_aligned mask aligned]
          generalize (src.drop i).take 8 = octets at chunk ⊢
          match octets, chunk with
          | [a, b, c, d, e, f, g, h], _ => rfl
        rw [copy_ok (by omega), ok_bind, word, plain, maskedUpTo_write 8 (by omega) (by omega), ok_bind]
        exact ih (by omega) (by omega) (by omega)
      · exact ⟨i, aligned, inside, rfl⟩

theorem maskHalfWordInto_ok (endian : Endian) (readable : len ≤ src.length)
    (writable : len ≤ dst.length) (aligned : i % 4 = 0) (inside : i ≤ len) :
    ∃ j, j ≤ len ∧
      maskHalfWordInto endian (endian.load mask.octets) src len i (maskedUpTo mask src dst i) =
        .ok (j, maskedUpTo mask src dst j) := by
  unfold maskHalfWordInto
  split
  · rename_i room
    have chunk : ((src.drop i).take 4).length = mask.octets.length := by
      rw [List.length_take, List.length_drop]
      change _ = 4
      omega
    have word := endian.store_xor chunk
    rw [show mask.octets.length = 4 from rfl] at word
    have plain : xorOctets ((src.drop i).take 4) mask.octets =
        maskBytes mask i ((src.drop i).take 4) := by
      rw [maskBytes_aligned mask aligned]
      generalize (src.drop i).take 4 = octets at chunk ⊢
      match octets, chunk with
      | [a, b, c, d], _ => rfl
    refine ⟨i + 4, room, ?_⟩
    rw [copy_ok (by omega), ok_bind, word, plain, maskedUpTo_write 4 (by omega) (by omega), ok_bind]
  · exact ⟨i, inside, rfl⟩

theorem maskBytesInto_ok (readable : len ≤ src.length) (writable : len ≤ dst.length) {fuel : Nat}
    (enough : len < i + fuel) (inside : i ≤ len) :
    maskBytesInto mask src len fuel i (maskedUpTo mask src dst i) =
      .ok (maskedUpTo mask src dst len) := by
  induction fuel generalizing i with
  | zero => omega
  | succ fuel ih =>
      unfold maskBytesInto
      split
      · rename_i before
        have one : maskBytes mask i ((src.drop i).take 1) = [src.getD i 0 ^^^ mask.octetAt i] := by
          rw [List.take_one, List.head?_drop, List.getD_eq_getElem?_getD,
            List.getElem?_eq_getElem (by omega)]
          rfl
        rw [read_ok (by omega) 0, ok_bind, ← one, maskedUpTo_write 1 (by omega) (by omega), ok_bind]
        exact ih (by omega) (by omega)
      · rw [show i = len by omega]

theorem maskedUpTo_zero (mask : MaskKey) (src dst : Bytes) : maskedUpTo mask src dst 0 = dst := by
  rw [maskedUpTo, List.take_zero, List.drop_zero]
  rfl

/-- Neither loop leaves the buffers, and the octets are those of `maskPayload`. -/
theorem maskPayloadCopyInto_ok (endian : Endian) (mask : MaskKey) (readable : len ≤ src.length)
    (writable : len ≤ dst.length) :
    maskPayloadCopyInto endian dst src len mask =
      .ok (maskPayload (src.take len) mask ++ dst.drop len) := by
  obtain ⟨j, aligned, inside, words⟩ := maskWordsInto_ok endian readable writable
    (show len < 0 + (len + 1) by omega) rfl (Nat.zero_le len)
  obtain ⟨k, within, half⟩ := maskHalfWordInto_ok endian readable writable aligned inside
  have octets : maskBytesInto mask src len (len + 1) k (maskedUpTo mask src dst k) = _ :=
    maskBytesInto_ok readable writable (by omega) within
  rw [maskedUpTo_zero] at words
  rw [maskPayloadCopyInto, words, ok_bind, half, ok_bind, octets, maskedUpTo]

theorem maskPayloadInto_ok (mask : MaskKey) (readable : len ≤ src.length)
    (writable : len ≤ dst.length) :
    maskPayloadInto dst src len mask = .ok (maskPayload (src.take len) mask ++ dst.drop len) := by
  have octets : maskBytesInto mask src len (len + 1) 0 (maskedUpTo mask src dst 0) = _ :=
    maskBytesInto_ok readable writable (by omega) (Nat.zero_le len)
  rw [maskedUpTo_zero] at octets
  exact octets

end

theorem octetAt_eq (mask : MaskKey) (i : Nat) : mask.octetAt i = mask.octets.getD (i % 4) 0 := by
  rw [MaskKey.octetAt, Nat.and_two_pow_sub_one_eq_mod _ 2]
  have below := Nat.mod_lt i (show 0 < 4 by decide)
  generalize i % 4 = r at below ⊢
  rcases r with _ | _ | _ | _ | r
  iterate 4 rfl
  omega

theorem getElem?_maskBytes (mask : MaskKey) (i j : Nat) (b : Bytes) :
    (maskBytes mask i b)[j]? = b[j]?.map (· ^^^ mask.octetAt (i + j)) := by
  induction b generalizing i j with
  | nil => rfl
  | cons x rest ih =>
      cases j with
      | zero => rfl
      | succ j =>
          rw [maskBytes, List.getElem?_cons_succ, List.getElem?_cons_succ, ih,
            show i + 1 + j = i + (j + 1) by omega]

/-- The copying loop writes what the plain loop writes: every octet below the length under its
    octet of the key, and nothing from there on. Under the same key it gives the payload back. -/
theorem maskPayloadCopy_exact (endian : Endian) (mask : MaskKey) {src dst : Bytes} {len : Nat}
    (readable : len ≤ src.length) (writable : len ≤ dst.length) :
    ∃ out, maskPayloadCopyInto endian dst src len mask = .ok out ∧
      maskPayloadInto dst src len mask = .ok out ∧
      (∀ i, i < len → out[i]? = some (src.getD i 0 ^^^ mask.octets.getD (i % 4) 0)) ∧
      (∀ i, len ≤ i → out[i]? = dst[i]?) ∧
      ∀ back : Bytes, len ≤ back.length →
        maskPayloadCopyInto endian back out len mask = .ok (src.take len ++ back.drop len) := by
  have length : (maskPayload (src.take len) mask).length = len := by
    rw [length_maskPayload, List.length_take]
    omega
  refine ⟨_, maskPayloadCopyInto_ok endian mask readable writable,
    maskPayloadInto_ok mask readable writable, ?_, ?_, ?_⟩
  · intro i before
    rw [List.getElem?_append_left (by omega), maskPayload, getElem?_maskBytes, List.getElem?_take,
      if_pos before, List.getD_eq_getElem?_getD, List.getElem?_eq_getElem (by omega), Nat.zero_add,
      octetAt_eq]
    rfl
  · intro i behind
    rw [List.getElem?_append_right (by omega), length, List.getElem?_drop]
    congr 1
    omega
  · intro back room
    have again : (maskPayload (src.take len) mask ++ dst.drop len).take len =
        maskPayload (src.take len) mask := List.take_left' length
    rw [maskPayloadCopyInto_ok endian mask (by rw [List.length_append]; omega) room, again,
      maskPayload_involutive]

/-- All three strides, on the big-endian order, in a buffer with an octet behind. -/
theorem maskPayloadCopy_exact_strides :
    let mask : MaskKey := ⟨1, 2, 3, 4⟩
    ∃ out, maskPayloadCopyInto .big (List.replicate 15 0xff) (List.replicate 14 0) 14 mask = .ok out ∧
      maskPayloadInto (List.replicate 15 0xff) (List.replicate 14 0) 14 mask = .ok out ∧
      out = [1, 2, 3, 4, 1, 2, 3, 4, 1, 2, 3, 4, 1, 2, 0xff] := by
  intro mask
  obtain ⟨out, copied, plain, -, -, -⟩ := @maskPayloadCopy_exact .big mask (List.replicate 14 0)
    (List.replicate 15 0xff) 14 (by decide) (by decide)
  have evaluated : maskPayloadInto (List.replicate 15 0xff) (List.replicate 14 0) 14 mask =
      .ok [1, 2, 3, 4, 1, 2, 3, 4, 1, 2, 3, 4, 1, 2, 0xff] := by decide +kernel
  exact ⟨out, copied, plain, Except.ok.inj (plain.symm.trans evaluated)⟩

end PhpWebSocket
