import PhpWebSocket.FrameParser

/-! # The parser accepts what the encoder writes

The parser and the encoder are separate code. This module shows them to be inverse
on the frames a client may send: the buffer is accepted with some frame exactly if
it starts with that frame packed under some mask key, and the frame is one the
limits allow. The length field is the heart of it (`readLength_iff`): a declared
length is accepted in one form only, the one the encoder chooses.
-/

namespace PhpWebSocket

open Lib

/-- The flags of a client's frame. -/
def clientFlags (final : Bool) : UInt8 := (if final then flagFin else 0) ||| flagMask

/-- The frames a client may send under a message limit. -/
structure Acceptable (maxMessageSize : Nat) (frame : ServerFrame) : Prop where
  opcode : opcodeIsValid frame.opcode
  control : opcodeIsControl frame.opcode → frame.final ∧ frame.payload.length ≤ 125
  data : ¬ opcodeIsControl frame.opcode → frame.payload.length ≤ maxMessageSize
  close : frame.opcode = opcodeClose → ClosePayload frame.payload

/-! ## Octets -/

private theorem masked_octet (b : UInt8) : b &&& 0x80 ≠ 0 → b = 0x80 ||| (b &&& 0x7f) := by
  revert b
  exact forall_octet (by decide +kernel)

private theorem length_octet (b : UInt8) :
    b.toNat < 128 → (0x80 ||| b) &&& 0x80 ≠ 0 ∧ (0x80 ||| b) &&& 0x7f = b := by
  revert b
  exact forall_octet (by decide +kernel)

private theorem low_bits_lt (b : UInt8) : (b &&& 0x7f).toNat < 128 := by
  revert b
  exact forall_octet (by decide +kernel)

private theorem firstOctet_read (b : UInt8) (noRsv : b &&& 0x70 = 0) :
    firstOctet (b &&& 0x0f) (clientFlags (b &&& 0x80 ≠ 0)) = b := by
  revert noRsv
  revert b
  exact forall_octet (by decide +kernel)

private theorem firstOctet_written (opcode : UInt8) : opcodeIsValid opcode →
    ∀ final, firstOctet opcode (clientFlags final) &&& 0x70 = 0 ∧
      firstOctet opcode (clientFlags final) &&& 0x0f = opcode ∧
      decide (firstOctet opcode (clientFlags final) &&& 0x80 ≠ 0) = final := by
  revert opcode
  exact forall_octet (by decide +kernel)

private theorem clientFlags_mask (final : Bool) : flagSet (clientFlags final) flagMask = true := by
  cases final <;> rfl

/-! ## The length field -/

private theorem lengthField_short {n : Nat} (h : n < 126) :
    lengthField true n = [0x80 ||| UInt8.ofNat n] := by
  simp [lengthField, h]

private theorem lengthField_two {n : Nat} (low : 126 ≤ n) (high : n ≤ 0xffff) :
    lengthField true n = (0x80 ||| 126) :: toOctets 2 n := by
  simp [lengthField, toOctets, high, Nat.not_lt.mpr low]

private theorem lengthField_eight {n : Nat} (low : 0xffff < n) :
    lengthField true n = (0x80 ||| 127) :: toOctets 8 n := by
  simp [lengthField, Nat.not_le.mpr low, show ¬ n < 126 by omega]

private theorem top_bit_clear (a : UInt8) (rest : Bytes) (long : rest.length = 7) :
    a &&& 0x80 = 0 ↔ bigEndian (a :: rest) < 2 ^ 63 := by
  have bound := bigEndian_lt rest
  have octet : ∀ a : UInt8, a &&& 0x80 = 0 ↔ a.toNat < 128 :=
    forall_octet (by decide +kernel)
  rw [octet, bigEndian_cons, long]
  rw [long] at bound
  omega

private theorem lengthField_of_readLength {b0 b1 : UInt8} {rest : Bytes} {n pos : Nat}
    (masked : b1 &&& 0x80 ≠ 0) (h : readLength (b0 :: b1 :: rest) = .ok n pos) :
    n < 2 ^ 63 ∧ ∃ tail, b1 :: rest = lengthField true n ++ tail ∧
      pos = 1 + (lengthField true n).length := by
  have len7 := low_bits_lt b1
  simp only [readLength, List.getD_cons_succ, List.getD_cons_zero] at h
  split at h
  next is126 =>
    have second : b1 = 0x80 ||| 126 := by
      rw [masked_octet b1 masked,
        UInt8.toNat_inj.mp (show (b1 &&& 0x7f).toNat = (126 : UInt8).toNat from is126)]
    rcases rest with _ | ⟨x, _ | ⟨y, tail⟩⟩
    · simp at h
    · simp at h
    · simp only [List.length_cons, List.getD_cons_succ, List.getD_cons_zero] at h
      rw [if_neg (by omega), ← bigEndian_pair] at h
      split at h
      · cases h
      next low =>
        cases h
        have small : bigEndian [x, y] < 2 ^ 16 := bigEndian_lt [x, y]
        have field := lengthField_two (Nat.not_lt.mp low) (by omega)
        rw [show toOctets 2 (bigEndian [x, y]) = [x, y] from toOctets_bigEndian [x, y]] at field
        exact ⟨by omega, tail, by rw [field, second]; rfl, by rw [field]; rfl⟩
  next not126 =>
    split at h
    next is127 =>
      have second : b1 = 0x80 ||| 127 := by
        rw [masked_octet b1 masked,
          UInt8.toNat_inj.mp (show (b1 &&& 0x7f).toNat = (127 : UInt8).toNat from is127)]
      split at h
      · cases h
      next present =>
        simp only [List.length_cons, Nat.not_lt] at present
        have long : (rest.take 8).length = 8 := by rw [List.length_take]; omega
        obtain ⟨a, more, rfl⟩ := List.exists_cons_of_length_pos (show 0 < rest.length by omega)
        simp only [List.getD_cons_zero, List.drop_succ_cons, List.drop_zero] at h
        split at h
        · cases h
        next top =>
          split at h
          · cases h
          next low =>
            cases h
            have seven : (more.take 7).length = 7 := by simpa using long
            have high := (top_bit_clear a (more.take 7) seven).mp (by simpa using top)
            have field := lengthField_eight (Nat.not_le.mp low)
            have octets := toOctets_bigEndian ((a :: more).take 8)
            rw [long] at octets
            rw [octets] at field
            refine ⟨high, (a :: more).drop 8, ?_, by rw [field, List.length_cons, long]⟩
            rw [field, List.cons_append, List.take_append_drop, second]
    next not127 =>
      cases h
      have small : (b1 &&& 0x7f).toNat < 126 := by omega
      have field := lengthField_short small
      rw [UInt8.ofNat_toNat, ← masked_octet b1 masked] at field
      exact ⟨by omega, rest, by rw [field]; rfl, by rw [field]; rfl⟩

private theorem readLength_lengthField (b0 : UInt8) {b1 : UInt8} {rest tail : Bytes} {n : Nat}
    (high : n < 2 ^ 63) (same : b1 :: rest = lengthField true n ++ tail) :
    readLength (b0 :: b1 :: rest) = .ok n (1 + (lengthField true n).length) := by
  simp only [readLength, List.getD_cons_succ, List.getD_cons_zero]
  rcases Nat.lt_or_ge n 126 with small | large
  · rw [lengthField_short small] at same ⊢
    obtain ⟨rfl, rfl⟩ := List.cons.inj same
    have value : (UInt8.ofNat n).toNat = n := by simp; omega
    rw [(length_octet (UInt8.ofNat n) (by omega)).2, value]
    simp [show n ≠ 126 by omega, show n ≠ 127 by omega]
  · rcases Nat.lt_or_ge 0xffff n with wide | narrow
    · rw [lengthField_eight wide] at same ⊢
      rw [List.cons_append] at same
      obtain ⟨rfl, rfl⟩ := List.cons.inj same
      have read : bigEndian (toOctets 8 n) = n := bigEndian_toOctets_of_lt (by omega)
      have slice : (toOctets 8 n ++ tail).take 8 = toOctets 8 n := by
        rw [List.take_append_of_le_length (by simp), List.take_of_length_le (by simp)]
      have top : (toOctets 8 n ++ tail).getD 0 0 &&& 0x80 = 0 :=
        (top_bit_clear _ (toOctets 7 n) (by simp)).mpr
          (show bigEndian (toOctets 8 n) < 2 ^ 63 by rw [read]; exact high)
      rw [if_neg (by decide), if_pos (by decide), if_neg (by simp), if_neg (not_not.mpr top)]
      simp only [List.drop_succ_cons, List.drop_zero, slice, read, length_toOctets,
        List.length_cons]
      rw [if_neg (by omega)]
    · rw [lengthField_two large narrow] at same ⊢
      rw [List.cons_append] at same
      obtain ⟨rfl, rfl⟩ := List.cons.inj same
      have read : bigEndian (toOctets 2 n) = n := bigEndian_toOctets_of_lt (by omega)
      have pair : (toOctets 2 n ++ tail).getD 0 0 = UInt8.ofNat ((n >>> 8) &&& 0xff) ∧
          (toOctets 2 n ++ tail).getD 1 0 = UInt8.ofNat ((n >>> 0) &&& 0xff) := ⟨rfl, rfl⟩
      rw [if_pos (by decide), if_neg (by simp), pair.1, pair.2, ← bigEndian_pair]
      rw [show [UInt8.ofNat ((n >>> 8) &&& 0xff), UInt8.ofNat ((n >>> 0) &&& 0xff)] = toOctets 2 n
        from rfl, read, if_neg (by omega)]
      simp

/-- A declared length is read exactly where the encoder has written it: in the
    shortest of the three forms, and never with the top bit of a 64-bit length. -/
theorem readLength_iff (b0 b1 : UInt8) (rest : Bytes) (n pos : Nat) (masked : b1 &&& 0x80 ≠ 0) :
    readLength (b0 :: b1 :: rest) = .ok n pos ↔
      n < 2 ^ 63 ∧ ∃ tail, b1 :: rest = lengthField true n ++ tail ∧
        pos = 1 + (lengthField true n).length := by
  constructor
  · exact lengthField_of_readLength masked
  · rintro ⟨high, tail, same, rfl⟩
    exact readLength_lengthField b0 high same

/-! ## The payload -/

private theorem getD_drop (input : Bytes) (pos i : Nat) :
    (input.drop pos).getD i 0 = input.getD (pos + i) 0 := by
  simp only [List.getD_eq_getElem?_getD, List.getElem?_drop]

/-- The close code is tested on masked octets, two at a time; it is the code of the
    unmasked payload. -/
private theorem maskedCloseCode_eq (input : Bytes) (n pos : Nat) (mask : MaskKey) (long : 2 ≤ n)
    (present : pos + n ≤ input.length) :
    maskedCloseCode input pos mask = closeCodeOf (maskPayload ((input.drop pos).take n) mask) := by
  have first := getD_drop input pos 0
  have second := getD_drop input pos 1
  have enough : 2 ≤ (input.drop pos).length := by rw [List.length_drop]; omega
  match atSlice : input.drop pos, enough with
  | x :: y :: more, _ =>
      rw [atSlice] at first second
      have taken : (x :: y :: more).take n = x :: y :: more.take (n - 2) := by
        obtain ⟨m, rfl⟩ := Nat.exists_eq_add_of_le long
        simp [Nat.add_comm 2 m]
      simp only [List.getD_cons_zero, List.getD_cons_succ, Nat.add_zero] at first second
      rw [taken, maskedCloseCode, ← first, ← second, closeCodeOf, maskPayload]
      simp only [maskBytes, List.take_succ_cons, List.take_zero, bigEndian_pair]
      rfl

theorem readPayload_ok_iff (input : Bytes) (opcode : UInt8) (final : Bool) (n pos : Nat)
    (mask : MaskKey) (frame : ServerFrame) (present : pos + n ≤ input.length) :
    readPayload input opcode final n pos mask = .ok frame ↔
      frame = ⟨opcode, final, sizeAdd pos n, maskPayload ((input.drop pos).take n) mask⟩ ∧
        (opcode = opcodeClose → ClosePayload frame.payload) := by
  have length : (maskPayload ((input.drop pos).take n) mask).length = n := by
    rw [length_maskPayload, List.length_take, List.length_drop]
    omega
  by_cases close : opcode = opcodeClose
  · rcases show n = 0 ∨ n = 1 ∨ 2 ≤ n by omega with rfl | rfl | long
    · simp only [readPayload, close, decide_true, Bool.true_and, ge_iff_le,
        show ¬ 2 ≤ 0 by omega, show ¬ 0 = 1 by omega, decide_false, Bool.false_and,
        Bool.false_eq_true, if_false, FrameResult.ok.injEq, forall_const]
      refine ⟨fun same => ⟨same.symm, ?_⟩, fun both => both.1.symm⟩
      subst same
      exact Or.inl rfl
    · simp only [readPayload, close, decide_true, Bool.and_self, if_true, reduceCtorEq, false_iff,
        forall_const, not_and]
      rintro rfl (empty | ⟨two, -⟩)
      · exact absurd (congrArg List.length empty) (by rw [length]; decide)
      · rw [length] at two
        omega
    · have code := maskedCloseCode_eq input n pos mask long present
      simp only [readPayload, close, decide_true, Bool.true_and, show ¬ n = 1 by omega, long,
        decide_false, Bool.false_eq_true, if_false, code]
      cases valid : closeCodeIsValid (closeCodeOf (maskPayload ((input.drop pos).take n) mask)) <;>
        cases utf8 : isValidUtf8 ((maskPayload ((input.drop pos).take n) mask).drop 2)
      all_goals
        simp only [Bool.not_true, Bool.not_false, Bool.false_eq_true, if_true, if_false,
          reduceCtorEq, false_iff, FrameResult.ok.injEq, not_and, forall_const]
      case true.true =>
        refine ⟨fun same => ⟨same.symm, ?_⟩, fun both => both.1.symm⟩
        subst same
        exact Or.inr ⟨by rw [length]; exact long, valid, utf8⟩
      all_goals
        rintro rfl (empty | ⟨-, accepted, reason⟩)
        · exact absurd (congrArg List.length empty) (by rw [length, List.length_nil]; omega)
        · first
            | exact absurd accepted (by rw [valid]; decide)
            | exact absurd reason (by rw [utf8]; decide)
  · simp only [readPayload, close, decide_false, Bool.false_and, Bool.false_eq_true, if_false,
      FrameResult.ok.injEq, false_implies, and_true, eq_comm]

/-! ## The whole frame -/

/-- A client's frame on the wire. -/
def clientFrame (mask : MaskKey) (payload : Bytes) (opcode : UInt8) (final : Bool) : Bytes :=
  firstOctet opcode (clientFlags final) :: (lengthField true payload.length ++
    (mask.octets ++ maskPayload payload mask))

theorem packPayload_client (endian : Endian) (mask : MaskKey) (payload : Bytes) (opcode : UInt8)
    (final : Bool) :
    packPayload endian (some mask) payload opcode (clientFlags final) =
      some (clientFrame mask payload opcode final) := by
  simp only [packPayload, clientFlags_mask, if_true, maskPayloadCopy_eq, clientFrame,
    List.cons_append, List.append_assoc]

theorem length_clientFrame (mask : MaskKey) (payload : Bytes) (opcode : UInt8) (final : Bool) :
    (clientFrame mask payload opcode final).length =
      1 + (lengthField true payload.length).length + 4 + payload.length := by
  simp only [clientFrame, List.length_cons, List.length_append, MaskKey.octets, List.length_nil,
    length_maskPayload]
  omega

theorem length_lengthField_le (masked : Bool) (n : Nat) : (lengthField masked n).length ≤ 9 := by
  unfold lengthField
  repeat' split
  all_goals simp

private theorem lengthField_head (n : Nat) :
    ∃ b1 field, lengthField true n = b1 :: field ∧ b1 &&& 0x80 ≠ 0 := by
  rcases Nat.lt_or_ge n 126 with short | long
  · refine ⟨_, _, lengthField_short short, (length_octet _ ?_).1⟩
    simp only [UInt8.toNat_ofNat']
    omega
  · rcases Nat.lt_or_ge 0xffff n with wide | narrow
    · exact ⟨_, _, lengthField_eight wide, by decide⟩
    · exact ⟨_, _, lengthField_two long narrow, by decide⟩

theorem read_drop (input : Bytes) (pos : Nat) :
    MaskKey.read input pos = MaskKey.read (input.drop pos) 0 := by
  simp only [MaskKey.read, getD_drop, Nat.add_zero, Nat.zero_add]

theorem parseFrame_clientFrame (mask : MaskKey) (frame : ServerFrame) (rest : Bytes)
    (maxMessageSize : Nat) (ok : Acceptable maxMessageSize frame)
    (small : frame.payload.length < 2 ^ 63)
    (consumed : frame.bytesConsumed =
      (clientFrame mask frame.payload frame.opcode frame.final).length) :
    parseFrame (clientFrame mask frame.payload frame.opcode frame.final ++ rest) maxMessageSize =
      .ok frame := by
  obtain ⟨noRsv, opcode, final⟩ := firstOctet_written frame.opcode ok.opcode frame.final
  have room := length_lengthField_le true frame.payload.length
  obtain ⟨b1, field, atField, masked⟩ := lengthField_head frame.payload.length
  rw [length_clientFrame] at consumed
  generalize atFirst : firstOctet frame.opcode (clientFlags frame.final) = b0 at noRsv opcode final
  generalize atTail : mask.octets ++ (maskPayload frame.payload mask ++ rest) = tail
  have whole : clientFrame mask frame.payload frame.opcode frame.final ++ rest =
      b0 :: b1 :: (field ++ tail) := by
    simp only [clientFrame, atFirst, atField, ← atTail, List.cons_append, List.append_assoc]
  have atLength : readLength (b0 :: b1 :: (field ++ tail)) =
      .ok frame.payload.length (1 + (lengthField true frame.payload.length).length) := by
    apply (readLength_iff b0 b1 _ _ _ masked).mpr
    exact ⟨by omega, tail, by rw [atField]; rfl, rfl⟩
  have behind : (b0 :: b1 :: (field ++ tail)).drop
      (1 + (lengthField true frame.payload.length).length) = tail := by
    rw [Nat.add_comm, atField, List.drop_succ_cons, ← List.cons_append, List.drop_left]
  have key : MaskKey.read tail 0 = mask := by rw [← atTail]; rfl
  have payload : tail.drop 4 = maskPayload frame.payload mask ++ rest := by rw [← atTail]; rfl
  have length : (b0 :: b1 :: (field ++ tail)).length = frame.bytesConsumed + rest.length := by
    rw [← whole, List.length_append, length_clientFrame, consumed]
  have controlOk : ¬ (opcodeIsControl frame.opcode &&
      (!frame.final || frame.payload.length > 125)) = true := by
    simp only [Bool.and_eq_true, Bool.or_eq_true, Bool.not_eq_true', decide_eq_true_eq, not_and,
      not_or, Bool.not_eq_false, Nat.not_lt]
    intro control
    exact ok.control control
  have dataOk : ¬ (!opcodeIsControl frame.opcode &&
      frame.payload.length > maxMessageSize) = true := by
    simp only [Bool.and_eq_true, Bool.not_eq_true', decide_eq_true_eq, not_and, Nat.not_lt]
    intro data
    exact ok.data (by rw [data]; decide)
  have ready : ¬ (sizeMax < 1 + (lengthField true frame.payload.length).length + 4 +
      frame.payload.length ∨ (b0 :: b1 :: (field ++ tail)).length <
        1 + (lengthField true frame.payload.length).length + 4 + frame.payload.length) := by
    rw [length]
    unfold sizeMax
    omega
  have clean : ¬ (decide (b0 &&& 0x70 ≠ 0) || decide (b1 &&& 0x80 = 0)) = true := by
    simp only [noRsv, masked, ne_eq, not_true, decide_false, Bool.or_self, Bool.false_eq_true,
      not_false_iff]
  have known : ¬ (!opcodeIsValid frame.opcode) = true := by
    rw [ok.opcode]
    decide
  rw [whole, parseFrame, if_neg (by simp)]
  simp only [List.getD_cons_zero, List.getD_cons_succ]
  rw [opcode, final, if_neg clean, if_neg known, atLength]
  simp only
  rw [if_neg controlOk, if_neg dataOk, readBody_eq _ _ _ _ _ (by omega), if_neg ready]
  rw [readPayload_ok_iff _ _ _ _ _ _ _ (by rw [length]; omega)]
  refine ⟨?_, ok.close⟩
  rw [read_drop, ← List.drop_drop, behind, key, payload, List.take_left' (by simp),
    maskPayload_involutive, sizeAdd_of_le (by simp only [sizeMax]; omega), ← consumed]

theorem exists_four {b : Bytes} (long : 4 ≤ b.length) :
    ∃ k0 k1 k2 k3 rest, b = k0 :: k1 :: k2 :: k3 :: rest := by
  rcases b with _ | ⟨k0, _ | ⟨k1, _ | ⟨k2, _ | ⟨k3, rest⟩⟩⟩⟩
  iterate 4 exact absurd long (by simp)
  exact ⟨k0, k1, k2, k3, rest, rfl⟩

theorem readBody_ok {b0 : UInt8} {tail : Bytes} {n : Nat} {opcode : UInt8} {final : Bool}
    {frame : ServerFrame}
    (h : readBody (b0 :: (lengthField true n ++ tail)) opcode final n
      (1 + (lengthField true n).length) = .ok frame) :
    ∃ mask rest, tail = mask.octets ++ (maskPayload frame.payload mask ++ rest) ∧
      frame.payload.length = n ∧ frame.opcode = opcode ∧ frame.final = final ∧
      frame.bytesConsumed = 1 + (lengthField true n).length + 4 + n ∧
      (opcode = opcodeClose → ClosePayload frame.payload) := by
  have room := length_lengthField_le true n
  rw [readBody_eq _ _ _ _ _ (by omega)] at h
  split at h
  · cases h
  next present =>
    have total : (b0 :: (lengthField true n ++ tail)).length =
        1 + (lengthField true n).length + tail.length := by
      rw [List.length_cons, List.length_append]
      omega
    have behind : (b0 :: (lengthField true n ++ tail)).drop (1 + (lengthField true n).length) =
        tail := by
      rw [Nat.add_comm, List.drop_succ_cons, List.drop_left]
    rw [total] at present
    have four : 4 ≤ tail.length := by omega
    obtain ⟨k0, k1, k2, k3, body, rfl⟩ := exists_four four
    have count : (k0 :: k1 :: k2 :: k3 :: body).length = body.length + 4 := rfl
    simp only [count, sizeMax] at present
    have key : MaskKey.read (b0 :: (lengthField true n ++ k0 :: k1 :: k2 :: k3 :: body))
        (1 + (lengthField true n).length) = ⟨k0, k1, k2, k3⟩ := by
      rw [read_drop, behind]
      rfl
    rw [key, readPayload_ok_iff _ _ _ _ _ _ _ (by omega),
      ← List.drop_drop, behind, sizeAdd_of_le (by simp only [sizeMax]; omega)] at h
    obtain ⟨rfl, closeOk⟩ := h
    simp only [List.drop_succ_cons, List.drop_zero] at closeOk ⊢
    have long : (body.take n).length = n := by
      rw [List.length_take]
      omega
    refine ⟨⟨k0, k1, k2, k3⟩, body.drop n, ?_, ?_, trivial, trivial, trivial, closeOk⟩
    · simp [maskPayload_involutive, MaskKey.octets]
    · rw [length_maskPayload, long]

/-- An accepted frame is one the limits allow, packed at the start of the buffer. -/
theorem clientFrame_of_parseFrame {b : Bytes} {maxMessageSize : Nat} {frame : ServerFrame}
    (h : parseFrame b maxMessageSize = .ok frame) :
    Acceptable maxMessageSize frame ∧ frame.payload.length < 2 ^ 63 ∧
      ∃ mask rest, b = clientFrame mask frame.payload frame.opcode frame.final ++ rest ∧
        frame.bytesConsumed = (clientFrame mask frame.payload frame.opcode frame.final).length := by
  rcases b with _ | ⟨b0, _ | ⟨b1, rest⟩⟩
  · simp [parseFrame] at h
  · simp [parseFrame] at h
  · rw [parseFrame, if_neg (by simp)] at h
    simp only [List.getD_cons_zero, List.getD_cons_succ] at h
    split at h
    · cases h
    next octets =>
      simp only [ne_eq, Bool.or_eq_true, decide_eq_true_eq, not_or, not_not] at octets
      obtain ⟨noRsv, masked⟩ := octets
      split at h
      · cases h
      next valid =>
        simp only [Bool.not_eq_true', Bool.not_eq_false] at valid
        cases atLength : readLength (b0 :: b1 :: rest) with
        | incomplete => simp only [atLength, reduceCtorEq] at h
        | invalid => simp only [atLength, reduceCtorEq] at h
        | ok n pos =>
            obtain ⟨small, tail, same, rfl⟩ := (readLength_iff b0 b1 rest n pos masked).mp atLength
            simp only [atLength] at h
            split at h
            · cases h
            next control =>
              split at h
              · cases h
              next data =>
                rw [same] at h ⊢
                obtain ⟨mask, rest, rfl, declared, opcode, final, consumed, closeOk⟩ := readBody_ok h
                have firstRead := firstOctet_read b0 noRsv
                simp only [Bool.and_eq_true, Bool.or_eq_true, Bool.not_eq_true', decide_eq_true_eq,
                  not_and, not_or, Bool.not_eq_false, Nat.not_lt] at control data
                rw [← opcode] at valid control data closeOk
                refine ⟨⟨valid, ?_, ?_, closeOk⟩, ?_, mask, rest, ?_, ?_⟩
                · intro isControl
                  rw [declared, final]
                  exact ⟨decide_eq_true (control isControl).1, (control isControl).2⟩
                · intro isData
                  rw [declared]
                  exact data (Bool.eq_false_of_not_eq_true isData)
                · rw [declared]
                  exact small
                · rw [clientFrame, declared, opcode, final, firstRead]
                  simp
                · rw [length_clientFrame, declared, consumed]

/-- The header of an accepted frame: no reserved bit, masked, a length in its
    shortest form and no top bit in a 64-bit length. -/
structure CanonicalHeader (b : Bytes) (payloadLen : Nat) : Prop where
  noRsv : b.getD 0 0 &&& 0x70 = 0
  masked : b.getD 1 0 &&& 0x80 ≠ 0
  short : payloadLen < 126 ↔ b.getD 1 0 &&& 0x7f ≠ 126 ∧ b.getD 1 0 &&& 0x7f ≠ 127
  middle : (126 ≤ payloadLen ∧ payloadLen ≤ 0xffff) ↔ b.getD 1 0 &&& 0x7f = 126
  long : 0xffff < payloadLen ↔ b.getD 1 0 &&& 0x7f = 127
  topBit : 0xffff < payloadLen → b.getD 2 0 &&& 0x80 = 0

theorem canonicalHeader_clientFrame (mask : MaskKey) (payload rest : Bytes) (opcode : UInt8)
    (final : Bool) (valid : opcodeIsValid opcode) (small : payload.length < 2 ^ 63) :
    CanonicalHeader (clientFrame mask payload opcode final ++ rest) payload.length := by
  have noRsv := (firstOctet_written opcode valid final).1
  simp only [clientFrame, List.cons_append, List.append_assoc]
  generalize mask.octets ++ (maskPayload payload mask ++ rest) = tail
  rcases Nat.lt_or_ge payload.length 126 with short | long
  · obtain ⟨masked, len7⟩ := length_octet (UInt8.ofNat payload.length) (by simp; omega)
    have value : (UInt8.ofNat payload.length).toNat = payload.length := by simp; omega
    rw [lengthField_short short]
    refine ⟨noRsv, masked, ?_, ?_, ?_, fun wide => by omega⟩
    all_goals
      simp only [List.cons_append, List.nil_append, List.getD_cons_succ, List.getD_cons_zero, len7,
        ← UInt8.toNat_inj, ne_eq, value]
      simp
      omega
  · rcases Nat.lt_or_ge 0xffff payload.length with wide | narrow
    · have read : bigEndian (toOctets 8 payload.length) = payload.length :=
        bigEndian_toOctets_of_lt (by omega)
      have top : (toOctets 8 payload.length ++ tail).getD 0 0 &&& 0x80 = 0 :=
        (top_bit_clear _ (toOctets 7 payload.length) (by simp)).mpr
          (show bigEndian (toOctets 8 payload.length) < 2 ^ 63 by rw [read]; exact small)
      rw [lengthField_eight wide]
      refine ⟨noRsv, show ((0x80 : UInt8) ||| 127) &&& 0x80 ≠ 0 by decide, ?_, ?_, ?_, fun _ => top⟩
      all_goals
        simp only [List.cons_append, List.getD_cons_succ, List.getD_cons_zero]
        first
          | exact iff_of_true wide (by decide)
          | exact iff_of_false (by omega) (by decide)
    · rw [lengthField_two long narrow]
      refine ⟨noRsv, show ((0x80 : UInt8) ||| 126) &&& 0x80 ≠ 0 by decide, ?_, ?_, ?_,
        fun wide => by omega⟩
      all_goals
        simp only [List.cons_append, List.getD_cons_succ, List.getD_cons_zero]
        first
          | exact iff_of_true ⟨long, narrow⟩ (by decide)
          | exact iff_of_false (by omega) (by decide)

/-- The parser accepts exactly the image of the encoder: the frames the limits
    allow, each packed under some mask key at the start of the buffer. What it
    accepts has a canonical header. -/
theorem parseFrame_ok_iff_packed (endian : Endian) (b : Bytes) (maxMessageSize : Nat)
    (small : b.length < 2 ^ 62) (frame : ServerFrame) :
    (parseFrame b maxMessageSize = .ok frame ↔
      Acceptable maxMessageSize frame ∧ frame.bytesConsumed ≤ b.length ∧
        ∃ mask, packPayload endian (some mask) frame.payload frame.opcode
          (clientFlags frame.final) = some (b.take frame.bytesConsumed)) ∧
      (parseFrame b maxMessageSize = .ok frame → CanonicalHeader b frame.payload.length) := by
  refine ⟨⟨?_, ?_⟩, ?_⟩
  · intro h
    obtain ⟨acceptable, -, mask, rest, rfl, consumed⟩ := clientFrame_of_parseFrame h
    refine ⟨acceptable, by rw [consumed, List.length_append]; omega, mask, ?_⟩
    rw [packPayload_client, consumed, List.take_left]
  · rintro ⟨acceptable, present, mask, packed⟩
    rw [packPayload_client, Option.some_inj] at packed
    have consumed : frame.bytesConsumed =
        (clientFrame mask frame.payload frame.opcode frame.final).length := by
      rw [packed, List.length_take, Nat.min_eq_left present]
    have bound : frame.payload.length < 2 ^ 62 := by
      have total := length_clientFrame mask frame.payload frame.opcode frame.final
      omega
    have parsed := parseFrame_clientFrame mask frame (b.drop frame.bytesConsumed) maxMessageSize
      acceptable (by omega) consumed
    rwa [packed, List.take_append_drop] at parsed
  · intro h
    obtain ⟨acceptable, bound, mask, rest, rfl, -⟩ := clientFrame_of_parseFrame h
    exact canonicalHeader_clientFrame mask _ rest _ _ acceptable.opcode bound

/-- A masked "Hi" in one text frame, with an octet behind it. -/
theorem parseFrame_ok_iff_packed_text :
    ([0x81, 0x82, 1, 2, 3, 4, 0x49, 0x6b, 0x89] : Bytes).length < 2 ^ 62 ∧
      parseFrame [0x81, 0x82, 1, 2, 3, 4, 0x49, 0x6b, 0x89] 100 =
        .ok ⟨opcodeText, true, 8, [0x48, 0x69]⟩ ∧
      packPayload .little (some ⟨1, 2, 3, 4⟩) [0x48, 0x69] opcodeText (clientFlags true) =
        some [0x81, 0x82, 1, 2, 3, 4, 0x49, 0x6b] ∧
      CanonicalHeader [0x81, 0x82, 1, 2, 3, 4, 0x49, 0x6b, 0x89] 2 := by
  have small : ([0x81, 0x82, 1, 2, 3, 4, 0x49, 0x6b, 0x89] : Bytes).length < 2 ^ 62 := by decide
  have both := parseFrame_ok_iff_packed .little _ 100 small ⟨opcodeText, true, 8, [0x48, 0x69]⟩
  have parsed : parseFrame [0x81, 0x82, 1, 2, 3, 4, 0x49, 0x6b, 0x89] 100 =
      .ok ⟨opcodeText, true, 8, [0x48, 0x69]⟩ := both.1.mpr
    ⟨⟨by decide, by decide, by decide, by decide⟩, by decide, ⟨1, 2, 3, 4⟩, by decide⟩
  exact ⟨small, parsed, by decide, both.2 parsed⟩

end PhpWebSocket
