import PhpWebSocket.FrameCodec
import PhpWebSocket.Lib.Consumer
import PhpWebSocket.Unpack

/-! # `unpack` gives back what was packed

Whatever the payload, the mask key, the flags and the length form, the octets of
`pack_payload` are read back as one raw frame, and nothing shorter is. What `unpack`
makes of the raw frame is a matter of its opcode, its FIN bit and its payload alone, so
a loop that drops `bytesConsumed` recovers every frame however the stream is cut.
-/

namespace PhpWebSocket

open Lib

/-! ## What was packed -/

/-- The flags that can be seen of a frame packed with `flags`. -/
def wireFlags (flags : UInt8) : UInt8 :=
  if flagSet flags flagCompress then (flags &&& ~~~ flagCompress) ||| flagRsv1 else flags

theorem firstOctet_unpack {opcode : UInt8} (valid : opcodeIsValid opcode = true) (flags : UInt8)
    (all : flags &&& flagsAll = flags) {b1 : UInt8}
    (mask : b1 &&& 0x80 ≠ 0 ↔ flagSet flags flagMask = true) :
    firstOctet opcode flags &&& 0x0f = opcode ∧
      decide (firstOctet opcode flags &&& 0x80 ≠ 0) = flagSet flags flagFin ∧
      unpackFlags (firstOctet opcode flags) b1 = wireFlags flags := by
  simp only [unpackFlags, mask]
  clear mask
  simp only [opcodeIsValid, Bool.or_eq_true, decide_eq_true_eq] at valid
  revert all
  revert flags
  rcases valid with ((((rfl | rfl) | rfl) | rfl) | rfl) | rfl
  all_goals exact forall_octet (by decide +kernel)

/-- The octets `pack_payload` writes, with `key` for a masked frame. -/
def wireFrame (key : MaskKey) (payload : Bytes) (opcode flags : UInt8) : Bytes :=
  firstOctet opcode flags :: (lengthField (flagSet flags flagMask) payload.length ++
    if flagSet flags flagMask then key.octets ++ maskPayload payload key else payload)

theorem packPayload_wireFrame (endian : Endian) (key : MaskKey) (payload : Bytes)
    (opcode flags : UInt8) :
    packPayload endian (some key) payload opcode flags = some (wireFrame key payload opcode flags) := by
  cases masked : flagSet flags flagMask with
  | true =>
      simp only [packPayload, wireFrame, masked, if_true, maskPayloadCopy_eq, List.cons_append,
        List.append_assoc]
  | false => simp only [packPayload, wireFrame, masked, Bool.false_eq_true, if_false, List.cons_append]

theorem exists_wireFrame {endian : Endian} {random : Option MaskKey} {payload octets : Bytes}
    {opcode flags : UInt8} (packs : packPayload endian random payload opcode flags = some octets) :
    ∃ key, octets = wireFrame key payload opcode flags := by
  cases random with
  | some key =>
      rw [packPayload_wireFrame] at packs
      exact ⟨key, (Option.some.inj packs).symm⟩
  | none =>
      cases masked : flagSet flags flagMask with
      | true => simp [packPayload, masked] at packs
      | false =>
          -- no key is drawn, so any will do
          refine ⟨⟨0, 0, 0, 0⟩, ?_⟩
          simp only [packPayload, masked, Bool.false_eq_true, if_false, Option.some.injEq] at packs
          simp only [← packs, wireFrame, masked, Bool.false_eq_true, if_false, List.cons_append]

theorem length_wireFrame (key : MaskKey) (payload : Bytes) (opcode flags : UInt8) :
    (wireFrame key payload opcode flags).length =
      1 + (lengthField (flagSet flags flagMask) payload.length).length +
        (if flagSet flags flagMask then 4 else 0) + payload.length := by
  cases masked : flagSet flags flagMask with
  | true =>
      simp only [wireFrame, masked, if_true, List.length_cons, List.length_append, MaskKey.octets,
        List.length_nil, length_maskPayload]
      omega
  | false =>
      simp only [wireFrame, masked, Bool.false_eq_true, if_false, List.length_cons,
        List.length_append]
      omega

private theorem length_octet_read (masked : Bool) (b : UInt8) : b.toNat < 128 →
    (((if masked then 0x80 else 0) ||| b) &&& 0x80 ≠ 0 ↔ masked = true) ∧
      ((if masked then 0x80 else 0) ||| b) &&& 0x7f = b := by
  revert b
  cases masked <;> exact forall_octet (by decide +kernel)

/-- The length field carries the mask bit, and every length is read back from it. -/
theorem unpackLength_lengthField (masked : Bool) {n : Nat} (small : n < 2 ^ 64) :
    ∃ b1 field, lengthField masked n = b1 :: field ∧ (b1 &&& 0x80 ≠ 0 ↔ masked = true) ∧
      ∀ b0 tail, unpackLength (b0 :: b1 :: (field ++ tail)) =
        some (n, 1 + (lengthField masked n).length) := by
  rcases Nat.lt_or_ge n 126 with short | long
  · have value : (UInt8.ofNat n).toNat = n := by simp; omega
    obtain ⟨bit, low⟩ := length_octet_read masked (UInt8.ofNat n) (by omega)
    have field : lengthField masked n = [(if masked then 0x80 else 0) ||| UInt8.ofNat n] := by
      simp [lengthField, short]
    refine ⟨_, _, field, bit, ?_⟩
    intro b0 tail
    rw [field]
    simp only [unpackLength, List.getD_cons_succ, List.getD_cons_zero, low, value]
    rw [if_neg (by omega), if_neg (by omega)]
    rfl
  · rcases Nat.lt_or_ge 0xffff n with wide | narrow
    · obtain ⟨bit, low⟩ := length_octet_read masked 127 (by decide)
      have field : lengthField masked n = ((if masked then 0x80 else 0) ||| 127) :: toOctets 8 n := by
        simp [lengthField, Nat.not_le.mpr wide, show ¬ n < 126 by omega]
      refine ⟨_, _, field, bit, ?_⟩
      intro b0 tail
      have read : bigEndian (toOctets 8 n) = n := bigEndian_toOctets_of_lt small
      rw [field]
      simp only [unpackLength, List.getD_cons_succ, List.getD_cons_zero, low, List.drop_succ_cons,
        List.drop_zero, List.length_cons, List.length_append, length_toOctets]
      rw [if_neg (by decide), if_pos (by decide), if_neg (by omega),
        List.take_left' (length_toOctets 8 n), read]
    · obtain ⟨bit, low⟩ := length_octet_read masked 126 (by decide)
      have field : lengthField masked n = ((if masked then 0x80 else 0) ||| 126) :: toOctets 2 n := by
        simp [lengthField, toOctets, narrow, Nat.not_lt.mpr long]
      refine ⟨_, _, field, bit, ?_⟩
      intro b0 tail
      have read : bigEndian (toOctets 2 n) = n := bigEndian_toOctets_of_lt (by omega)
      rw [field]
      simp only [toOctets, bigEndian_pair] at read
      simp only [unpackLength, toOctets, List.cons_append, List.nil_append, List.getD_cons_succ,
        List.getD_cons_zero, low, read, List.length_cons]
      rw [if_pos (by decide), if_neg (by omega)]
      rfl

/-- A packed frame is found in front of any octets, with its flags as the wire shows them. -/
theorem readFrame_wireFrame (endian : Endian) (key : MaskKey) {payload : Bytes}
    (small : payload.length < 2 ^ 63) {opcode flags : UInt8} (valid : opcodeIsValid opcode = true)
    (all : flags &&& flagsAll = flags) (rest : Bytes) :
    readFrame endian (wireFrame key payload opcode flags ++ rest) =
      some ⟨opcode, flagSet flags flagFin, wireFlags flags, payload,
        (wireFrame key payload opcode flags).length⟩ := by
  obtain ⟨b1, field, atField, bit, read⟩ :=
    unpackLength_lengthField (flagSet flags flagMask) (show payload.length < 2 ^ 64 by omega)
  obtain ⟨first, final, seen⟩ := firstOctet_unpack valid flags all bit
  have room := length_lengthField_le (flagSet flags flagMask) payload.length
  have consumed := length_wireFrame key payload opcode flags
  generalize atTail : (if flagSet flags flagMask then key.octets ++ maskPayload payload key
    else payload) ++ rest = tail
  have whole : wireFrame key payload opcode flags ++ rest =
      firstOctet opcode flags :: b1 :: (field ++ tail) := by
    simp only [wireFrame, atField, ← atTail, List.cons_append, List.append_assoc]
  have total : (firstOctet opcode flags :: b1 :: (field ++ tail)).length =
      (wireFrame key payload opcode flags).length + rest.length := by
    rw [← whole, List.length_append]
  have behind : (firstOctet opcode flags :: b1 :: (field ++ tail)).drop
      (1 + (lengthField (flagSet flags flagMask) payload.length).length) = tail := by
    rw [Nat.add_comm, atField, List.drop_succ_cons, ← List.cons_append, List.drop_left]
  have start : payloadStart (firstOctet opcode flags :: b1 :: (field ++ tail))
      (1 + (lengthField (flagSet flags flagMask) payload.length).length) + payload.length =
        (wireFrame key payload opcode flags).length := by
    rw [consumed, payloadStart, List.getD_cons_succ, List.getD_cons_zero]
    simp only [bit]
    split <;> omega
  have limit : 14 + payload.length ≤ sizeMax := by
    unfold sizeMax
    omega
  have fits : (wireFrame key payload opcode flags).length ≤ sizeMax := by
    rw [consumed]
    split <;> omega
  rw [whole, readFrame_eq endian (by simp) (read _ tail), start, if_neg (by omega)]
  rw [payloadStart, List.getD_cons_succ, List.getD_cons_zero] at start
  simp only [rawFrame, List.getD_cons_succ, List.getD_cons_zero, first, final, seen, decide_eq_true_eq,
    bit] at start ⊢
  cases masked : flagSet flags flagMask with
  | true =>
      simp only [masked, if_true] at atTail start ⊢
      simp only [masked] at behind
      have keyRead : MaskKey.read (firstOctet opcode flags :: b1 :: (field ++ tail))
          (1 + (lengthField true payload.length).length) = key := by
        rw [read_drop, behind, ← atTail]
        rfl
      have octets : tail.drop 4 = maskPayload payload key ++ rest := by
        rw [← atTail]
        rfl
      rw [keyRead, ← List.drop_drop, behind, octets, List.take_left' (by simp), maskPayloadCopy_eq,
        maskPayload_involutive, sizeAdd_of_le (by rw [start]; exact fits), start]
  | false =>
      simp only [masked, Bool.false_eq_true, if_false] at atTail start ⊢
      simp only [masked] at behind
      rw [behind, ← atTail, List.take_left' rfl, sizeAdd_of_le (by rw [start]; exact fits), start]

/-! ## The content -/

/-- The frames whose content `unpack` rejects. -/
def Rejected (opcode : UInt8) (final : Bool) (payload : Bytes) : Prop :=
  (opcodeIsControl opcode = true ∧ (final = false ∨ 125 < payload.length)) ∨
    (opcode = opcodeClose ∧ (payload.length = 1 ∨ isValidUtf8 (payload.drop 2) = false)) ∨
    (opcode = opcodeText ∧ final = true ∧ isValidUtf8 payload = false)

instance (opcode : UInt8) (final : Bool) (payload : Bytes) :
    Decidable (Rejected opcode final payload) :=
  inferInstanceAs (Decidable (_ ∨ _))

theorem fromOpcode_valid {opcode : UInt8} (valid : opcodeIsValid opcode = true) :
    ∃ type, MessageType.fromOpcode opcode = some type ∧ type.opcode = opcode := by
  simp only [opcodeIsValid, Bool.or_eq_true, decide_eq_true_eq] at valid
  rcases valid with ((((rfl | rfl) | rfl) | rfl) | rfl) | rfl
  all_goals exact ⟨_, rfl, rfl⟩

namespace RawFrame

variable {raw : RawFrame}

theorem control_iff : (opcodeIsControl raw.opcode &&
    (!raw.final || raw.payload.length > 125)) = true ↔
      opcodeIsControl raw.opcode = true ∧ (raw.final = false ∨ 125 < raw.payload.length) := by
  simp only [Bool.and_eq_true, Bool.or_eq_true, Bool.not_eq_true', decide_eq_true_eq, gt_iff_lt]

theorem content_rejected (valid : opcodeIsValid raw.opcode = true)
    (rejected : Rejected raw.opcode raw.final raw.payload) : ∃ e, raw.content = .threw e := by
  obtain ⟨type, known, -⟩ := fromOpcode_valid valid
  rw [content, if_neg (by simp [valid])]
  by_cases control : opcodeIsControl raw.opcode = true ∧ (raw.final = false ∨ 125 < raw.payload.length)
  · rw [if_pos (control_iff.mpr control)]
    exact ⟨_, rfl⟩
  · rw [if_neg (mt control_iff.mp control)]
    split
    · exact ⟨_, rfl⟩
    · rename_i one
      simp only [Bool.and_eq_true, decide_eq_true_eq, not_and] at one
      rcases rejected with control' | ⟨close, content⟩ | ⟨text, final, utf8⟩
      · exact absurd control' control
      · have utf8 := content.resolve_left (one close)
        have long : raw.payload.length ≥ 2 := by
          by_contra short
          rw [List.drop_of_length_le (by omega)] at utf8
          cases utf8
        rw [if_pos close, if_pos long, if_pos (by simp [utf8])]
        exact ⟨_, rfl⟩
      · rw [if_neg (by rw [text]; decide), known]
        dsimp only
        rw [if_pos (by simp [text, final, utf8])]
        exact ⟨_, rfl⟩

theorem content_closeFrame (close : raw.opcode = opcodeClose)
    (accepted : ¬ Rejected raw.opcode raw.final raw.payload) :
    raw.content = .closeFrame
      ⟨if raw.payload = [] then closeNormal else closeCodeOf raw.payload, raw.payload.drop 2,
        raw.flags.toNat, raw.bytesConsumed⟩ := by
  simp only [Rejected, not_or, not_and] at accepted
  obtain ⟨control, content, -⟩ := accepted
  obtain ⟨notOne, utf8⟩ := content close
  have control : ¬ (opcodeIsControl raw.opcode = true ∧
      (raw.final = false ∨ 125 < raw.payload.length)) := fun both =>
    both.2.elim (control both.1).1 (control both.1).2
  have known : opcodeIsValid raw.opcode = true := by
    rw [close]
    rfl
  rw [RawFrame.content, if_neg (by simp [known]), if_neg (mt control_iff.mp control),
    if_neg (by simp [notOne]), if_pos close]
  by_cases long : raw.payload.length ≥ 2
  · have some : raw.payload ≠ [] := List.ne_nil_of_length_pos (by omega)
    rw [if_pos long, if_neg (by simp [utf8]), if_neg some]
  · have empty : raw.payload = [] := List.length_eq_zero_iff.mp (by omega)
    rw [if_neg long, if_pos empty, empty]
    rfl

theorem content_frame (valid : opcodeIsValid raw.opcode = true) (data : raw.opcode ≠ opcodeClose)
    (accepted : ¬ Rejected raw.opcode raw.final raw.payload) :
    ∃ type, type.opcode = raw.opcode ∧ raw.content = .frame
      ⟨type, raw.opcode.toNat, raw.flags.toNat, raw.payload, raw.final, raw.bytesConsumed⟩ := by
  obtain ⟨type, known, same⟩ := fromOpcode_valid valid
  simp only [Rejected, not_or, not_and] at accepted
  obtain ⟨control, -, text⟩ := accepted
  have control : ¬ (opcodeIsControl raw.opcode = true ∧
      (raw.final = false ∨ 125 < raw.payload.length)) := fun both =>
    both.2.elim (control both.1).1 (control both.1).2
  have utf8 : ¬ (raw.opcode = opcodeText && raw.final && !isValidUtf8 raw.payload) = true := by
    simp only [Bool.and_eq_true, decide_eq_true_eq, Bool.not_eq_true', not_and, and_imp]
    exact text
  refine ⟨type, same, ?_⟩
  rw [content, if_neg (by simp [valid]), if_neg (mt control_iff.mp control),
    if_neg (by simp [data]), if_neg data, known]
  dsimp only
  rw [if_neg utf8]

/-- Whether a frame is thrown away is a matter of its opcode, FIN bit and payload. -/
theorem content_threw_iff (valid : opcodeIsValid raw.opcode = true) :
    (∃ e, raw.content = .threw e) ↔ Rejected raw.opcode raw.final raw.payload := by
  refine ⟨fun ⟨e, threw⟩ => ?_, content_rejected valid⟩
  by_contra accepted
  by_cases close : raw.opcode = opcodeClose
  · rw [content_closeFrame close accepted] at threw
    cases threw
  · obtain ⟨type, -, object⟩ := content_frame valid close accepted
    rw [object] at threw
    cases threw

theorem content_consumed {n : Nat} (object : (∃ frame : Frame, raw.content = .frame frame ∧
      frame.bytesConsumed = n) ∨
    ∃ frame : CloseFrame, raw.content = .closeFrame frame ∧ frame.bytesConsumed = n) :
    n = raw.bytesConsumed := by
  rcases object with ⟨frame, h, rfl⟩ | ⟨frame, h, rfl⟩
  all_goals
    simp only [content] at h
    repeat' split at h
    all_goals cases h
    all_goals rfl

end RawFrame

theorem unpack_consumed {endian : Endian} {input : Bytes} {n : Nat}
    (object : (∃ frame : Frame, unpack endian input = .frame frame ∧ frame.bytesConsumed = n) ∨
      ∃ frame : CloseFrame, unpack endian input = .closeFrame frame ∧ frame.bytesConsumed = n) :
    0 < n ∧ n ≤ input.length := by
  unfold unpack at object
  cases found : readFrame endian input with
  | none => simp [found] at object
  | some raw =>
      simp only [found] at object
      rw [RawFrame.content_consumed object]
      exact readFrame_consumed found

/-! ## One frame -/

/-- A call of `pack_payload` that succeeds, on a valid opcode and known flags. -/
structure Packing (endian : Endian) where
  payload : Bytes
  opcode : UInt8
  flags : UInt8
  random : Option MaskKey
  octets : Bytes
  short : payload.length < 2 ^ 61
  valid : opcodeIsValid opcode = true
  known : flags &&& flagsAll = flags
  packs : packPayload endian random payload opcode flags = some octets

namespace Packing

variable {endian : Endian} (packing : Packing endian)

def final : Bool := flagSet packing.flags flagFin

theorem octets_eq : ∃ key, packing.octets =
    wireFrame key packing.payload packing.opcode packing.flags := exists_wireFrame packing.packs

def raw : RawFrame :=
  ⟨packing.opcode, packing.final, wireFlags packing.flags, packing.payload, packing.octets.length⟩

theorem readFrame_append (rest : Bytes) :
    readFrame endian (packing.octets ++ rest) = some packing.raw := by
  obtain ⟨key, octets⟩ := packing.octets_eq
  have small := packing.short
  rw [raw, octets]
  exact readFrame_wireFrame endian key (by omega) packing.valid packing.known rest

/-- No part of a frame is taken for one. -/
theorem unpack_isPrefix {part : Bytes} (isPrefix : part <+: packing.octets)
    (strict : part ≠ packing.octets) : unpack endian part = .null := by
  obtain ⟨more, whole⟩ := isPrefix
  unfold unpack
  cases found : readFrame endian part with
  | none => rfl
  | some raw =>
      have same := packing.readFrame_append []
      rw [List.append_nil, ← whole, PhpWebSocket.readFrame_append more found] at same
      have consumed := (readFrame_consumed found).2
      rw [Option.some.inj same] at consumed
      have length := congrArg List.length whole
      rw [List.length_append] at length
      have none : more = [] := List.length_eq_zero_iff.mp (by simp only [Packing.raw] at consumed; omega)
      rw [none, List.append_nil] at whole
      exact absurd whole strict

theorem unpack_eq (rest : Bytes) : unpack endian (packing.octets ++ rest) = packing.raw.content := by
  rw [unpack, packing.readFrame_append]

end Packing

/-! ## Many frames -/

/-- A loop that unpacks what it has received, and drops the octets of each object. -/
def decoderBite (endian : Endian) (objects : List Unpacked) (input : Bytes) :
    Bite (List Unpacked) PhpError :=
  match unpack endian input with
  | .null => .wait
  | .frame frame => .take frame.bytesConsumed (objects ++ [.frame frame])
  | .closeFrame frame => .take frame.bytesConsumed (objects ++ [.closeFrame frame])
  | .threw e => .stop 0 e

section

variable {endian : Endian} {objects : List Unpacked} {input : Bytes}

theorem decoderBite_progress {n : Nat} {objects' : List Unpacked}
    (bite : decoderBite endian objects input = .take n objects') : 0 < n ∧ n ≤ input.length := by
  cases atUnpack : unpack endian input with
  | null | threw => simp [decoderBite, atUnpack] at bite
  | frame frame =>
      simp only [decoderBite, atUnpack, Bite.take.injEq] at bite
      exact unpack_consumed (Or.inl ⟨frame, atUnpack, bite.1⟩)
  | closeFrame frame =>
      simp only [decoderBite, atUnpack, Bite.take.injEq] at bite
      exact unpack_consumed (Or.inr ⟨frame, atUnpack, bite.1⟩)

theorem decoderBite_bounded {n : Nat} {e : PhpError}
    (bite : decoderBite endian objects input = .stop n e) : n ≤ input.length := by
  cases atUnpack : unpack endian input with
  | null | frame | closeFrame => simp [decoderBite, atUnpack] at bite
  | threw thrown =>
      simp only [decoderBite, atUnpack, Bite.stop.injEq] at bite
      omega

theorem decoderBite_stable (decided : decoderBite endian objects input ≠ .wait) (more : Bytes) :
    decoderBite endian objects (input ++ more) = decoderBite endian objects input := by
  have known : unpack endian input ≠ .null := by
    intro null
    simp [decoderBite, null] at decided
  simp only [decoderBite, unpack_append more known]

end

def decoder (endian : Endian) : Consumer UInt8 (List Unpacked) PhpError where
  bite := decoderBite endian
  progress := decoderBite_progress
  bounded := decoderBite_bounded
  stable := decoderBite_stable

theorem decoder_bite {endian : Endian} (packing : Packing endian)
    (accepted : ¬ Rejected packing.opcode packing.final packing.payload) (objects : List Unpacked)
    (rest : Bytes) : (decoder endian).bite objects (packing.octets ++ rest) =
      .take packing.octets.length (objects ++ [unpack endian packing.octets]) := by
  have alone := packing.unpack_eq []
  rw [List.append_nil] at alone
  simp only [decoder, decoderBite, packing.unpack_eq, alone]
  by_cases close : packing.opcode = opcodeClose
  · rw [@RawFrame.content_closeFrame packing.raw close accepted]
    rfl
  · obtain ⟨type, -, object⟩ :=
      @RawFrame.content_frame packing.raw packing.valid close accepted
    rw [object]
    rfl

theorem drain_packings {endian : Endian} (packings : List (Packing endian))
    (accepted : ∀ packing ∈ packings, ¬ Rejected packing.opcode packing.final packing.payload)
    (objects : List Unpacked) :
    (decoder endian).drain objects (packings.map Packing.octets).flatten =
      .waiting (objects ++ packings.map fun packing => unpack endian packing.octets) [] := by
  induction packings generalizing objects with
  | nil =>
      rw [List.map_nil, List.map_nil, List.append_nil]
      exact Consumer.drain_wait rfl
  | cons packing rest ih =>
      have first := accepted packing (List.mem_cons_self ..)
      rw [List.map_cons, List.flatten_cons, Consumer.drain_take (decoder_bite packing first objects _),
        List.drop_left, ih fun later mem => accepted later (List.mem_cons_of_mem _ mem)]
      rw [List.map_cons, List.append_assoc, List.singleton_append]

/-- Every strict part of a packed frame is unpacked as `null`, and the frame, whatever
    follows it, as the object with its opcode, FIN, flags and payload, or with its close
    code and reason. It is rejected for its opcode, FIN and payload alone. A loop that
    drops `bytesConsumed` recovers any frames that are not rejected from any chunking. -/
theorem unpack_packed (endian : Endian) :
    (∀ (packing : Packing endian) (rest : Bytes),
      (∀ part, part <+: packing.octets → part ≠ packing.octets → unpack endian part = .null) ∧
        ((∃ e, unpack endian (packing.octets ++ rest) = .threw e) ↔
          Rejected packing.opcode packing.final packing.payload) ∧
        ((∀ e, unpack endian (packing.octets ++ rest) ≠ .threw e) →
          (packing.opcode ≠ opcodeClose → ∃ type, type.opcode = packing.opcode ∧
            unpack endian (packing.octets ++ rest) = .frame
              ⟨type, packing.opcode.toNat, (wireFlags packing.flags).toNat, packing.payload,
                packing.final, packing.octets.length⟩) ∧
          (packing.opcode = opcodeClose →
            unpack endian (packing.octets ++ rest) = .closeFrame
              ⟨if packing.payload = [] then closeNormal else closeCodeOf packing.payload,
                packing.payload.drop 2, (wireFlags packing.flags).toNat,
                packing.octets.length⟩))) ∧
      ∀ (packings : List (Packing endian)) (pieces : List Bytes),
        (∀ packing ∈ packings, ∀ e, unpack endian packing.octets ≠ .threw e) →
        pieces.flatten = (packings.map Packing.octets).flatten →
        pieces.foldl (decoder endian).feed (.waiting [] []) =
          .waiting (packings.map fun packing => unpack endian packing.octets) [] := by
  have threw : ∀ (packing : Packing endian) (rest : Bytes),
      (∃ e, unpack endian (packing.octets ++ rest) = .threw e) ↔
        Rejected packing.opcode packing.final packing.payload := by
    intro packing rest
    rw [packing.unpack_eq]
    exact @RawFrame.content_threw_iff packing.raw packing.valid
  refine ⟨fun packing rest => ⟨fun part => packing.unpack_isPrefix, threw packing rest, ?_⟩, ?_⟩
  · intro calm
    have accepted : ¬ Rejected packing.opcode packing.final packing.payload := fun rejected =>
      ((threw packing rest).mpr rejected).elim calm
    rw [packing.unpack_eq]
    exact ⟨fun data => @RawFrame.content_frame packing.raw packing.valid data accepted,
      fun close => @RawFrame.content_closeFrame packing.raw close accepted⟩
  · intro packings pieces calm stream
    have accepted : ∀ packing ∈ packings,
        ¬ Rejected packing.opcode packing.final packing.payload := by
      intro packing mem rejected
      obtain ⟨e, thrown⟩ := (threw packing []).mpr rejected
      rw [List.append_nil] at thrown
      exact calm packing mem e thrown
    have start : (.waiting [] [] : Drained UInt8 (List Unpacked) PhpError) =
        (decoder endian).drain [] [] := (Consumer.drain_wait rfl).symm
    rw [start, Consumer.foldl_feed, List.nil_append, stream, drain_packings packings accepted,
      List.nil_append]

/-- A masked Text frame with the COMPRESS flag. -/
def compressedHi : Packing .little where
  payload := [0x48, 0x69]
  opcode := opcodeText
  flags := flagFin ||| flagCompress ||| flagMask
  random := some ⟨1, 2, 3, 4⟩
  octets := [0xc1, 0x82, 1, 2, 3, 4, 0x49, 0x6b]
  short := by decide
  valid := by decide
  known := by decide
  packs := by decide

/-- An empty Close frame. -/
def emptyClose : Packing .little where
  payload := []
  opcode := opcodeClose
  flags := flagFin
  random := none
  octets := [0x88, 0x00]
  short := by decide
  valid := by decide
  known := by decide
  packs := by decide

/-- Both frames, in pieces that cut each of them. -/
theorem unpack_packed_pieces :
    List.foldl (decoder .little).feed (.waiting [] [])
        [[0xc1], [0x82, 1, 2, 3, 4, 0x49, 0x6b, 0x88], [0x00]] =
      .waiting
        [.frame ⟨.text, 1, 0x25, [0x48, 0x69], true, 8⟩, .closeFrame ⟨1000, [], 1, 2⟩] [] := by
  have both := (unpack_packed .little).2 [compressedHi, emptyClose]
    [[0xc1], [0x82, 1, 2, 3, 4, 0x49, 0x6b, 0x88], [0x00]]
  refine (both ?_ rfl).trans ?_
  · intro packing mem e
    simp only [List.mem_cons, List.not_mem_nil, or_false] at mem
    rcases mem with rfl | rfl
    · intro threw
      exact absurd (threw.symm.trans (show _ = Unpacked.frame _ from rfl)) (by simp)
    · intro threw
      exact absurd (threw.symm.trans (show _ = Unpacked.closeFrame _ from rfl)) (by simp)
  · rfl

end PhpWebSocket
