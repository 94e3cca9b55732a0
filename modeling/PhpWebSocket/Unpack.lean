import PhpWebSocket.FrameParser

/-! # `Protocol::encode`, `pack` and `unpack`

The codec that PHP code calls. Its decoder is not the server's parser: it takes
frames with and without a mask, with reserved bits, with a length in any form, and
any close code. The source writes it as one function; here the header, the octets of
the payload and the checks of the content are definitions of their own, in the order
in which the source makes them. `pack` and `encode` check less, each on its own.
-/

namespace PhpWebSocket

open Lib

/-- `WebSocket\Frame`. -/
structure Frame where
  type : MessageType
  opcode : Int
  flags : Int
  payload : Bytes
  final : Bool
  bytesConsumed : Nat
  deriving Repr, DecidableEq

/-- `WebSocket\CloseFrame`. -/
structure CloseFrame where
  code : Int
  reason : Bytes
  flags : Int
  bytesConsumed : Nat
  deriving Repr, DecidableEq

/-! ## Decoding -/

/-- What `Protocol::unpack` comes to. -/
inductive Unpacked where
  | null
  | frame (frame : Frame)
  | closeFrame (frame : CloseFrame)
  | threw (e : PhpError)
  deriving Repr, DecidableEq

/-- The flags of a frame with these two first octets. -/
def unpackFlags (b0 b1 : UInt8) : UInt8 :=
  (if b0 &&& 0x80 ≠ 0 then flagFin else 0) |||
    (if b0 &&& 0x40 ≠ 0 then flagRsv1 else 0) |||
    (if b0 &&& 0x20 ≠ 0 then flagRsv2 else 0) |||
    (if b0 &&& 0x10 ≠ 0 then flagRsv3 else 0) |||
    (if b1 &&& 0x80 ≠ 0 then flagMask else 0)

/-- The declared length and the offset behind it; a length is taken in any form. -/
def unpackLength (input : Bytes) : Option (Nat × Nat) :=
  let len7 := (input.getD 1 0 &&& 0x7f).toNat
  if len7 = 126 then
    if input.length < 4 then none
    else some ((input.getD 2 0).toNat <<< 8 ||| (input.getD 3 0).toNat, 4)
  else if len7 = 127 then
    if input.length < 10 then none else some (bigEndian ((input.drop 2).take 8), 10)
  else some (len7, 2)

/-- A frame as it lies in the buffer, before its content is checked. -/
structure RawFrame where
  opcode : UInt8
  final : Bool
  flags : UInt8
  payload : Bytes
  bytesConsumed : Nat
  deriving Repr, DecidableEq

/-- The frame with `payloadLen` octets of payload, whose length field ends at `pos`. -/
def rawFrame (endian : Endian) (input : Bytes) (payloadLen pos : Nat) : RawFrame :=
  let b0 := input.getD 0 0
  let b1 := input.getD 1 0
  let masked : Bool := b1 &&& 0x80 ≠ 0
  let start := if masked then pos + 4 else pos
  let octets := (input.drop start).take payloadLen
  { opcode := b0 &&& 0x0f
    final := b0 &&& 0x80 ≠ 0
    flags := unpackFlags b0 b1
    payload := if masked then maskPayloadCopy endian octets (MaskKey.read input pos) else octets
    bytesConsumed := sizeAdd start payloadLen }

/-- The first part of `websocket_protocol_unpack`: `none` while octets are missing. The
    payload is taken out of the buffer here, which the source does behind its checks. -/
def readFrame (endian : Endian) (input : Bytes) : Option RawFrame :=
  if input.length < 2 then none
  else
    match unpackLength input with
    | none => none
    | some (payloadLen, pos) =>
        let masked : Bool := input.getD 1 0 &&& 0x80 ≠ 0
        if masked && input.length < pos + 4 then none
        else
          let start := if masked then pos + 4 else pos
          if payloadLen > sizeMax || payloadLen > sizeMax - start ||
              input.length < sizeAdd start payloadLen then none
          else some (rawFrame endian input payloadLen pos)

def unsupportedOpcode (opcode : UInt8) : PhpError :=
  .error ("Unsupported WebSocket opcode " ++ toString opcode.toNat)

/-- The second part: the checks of a whole frame, and the object made of it. -/
def RawFrame.content (raw : RawFrame) : Unpacked :=
  let payloadLen := raw.payload.length
  let flags : Int := raw.flags.toNat
  if !opcodeIsValid raw.opcode then .threw (unsupportedOpcode raw.opcode)
  else if opcodeIsControl raw.opcode && (!raw.final || payloadLen > 125) then
    .threw (.error "Invalid WebSocket control frame")
  else if raw.opcode = opcodeClose && payloadLen = 1 then
    .threw (.error "Invalid WebSocket close frame")
  else if raw.opcode = opcodeClose then
    if payloadLen ≥ 2 then
      if !isValidUtf8 (raw.payload.drop 2) then
        .threw (.error "Invalid WebSocket close reason UTF-8")
      else
        .closeFrame ⟨closeCodeOf raw.payload, raw.payload.drop 2, flags, raw.bytesConsumed⟩
    else .closeFrame ⟨closeNormal, [], flags, raw.bytesConsumed⟩
  else
    match MessageType.fromOpcode raw.opcode with
    | none => .threw (unsupportedOpcode raw.opcode)
    | some type =>
        if raw.opcode = opcodeText && raw.final && !isValidUtf8 raw.payload then
          .threw (.error "Invalid WebSocket text frame UTF-8")
        else .frame ⟨type, raw.opcode.toNat, flags, raw.payload, raw.final, raw.bytesConsumed⟩

/-- `Protocol::unpack`, and `Protocol::decode`, which is the same function. -/
def unpack (endian : Endian) (input : Bytes) : Unpacked :=
  match readFrame endian input with
  | none => .null
  | some raw => raw.content

/-! ## Encoding -/

/-- `websocket_protocol_pack_payload` for PHP code, which sees the exception if the random
    octets of a mask key cannot be read. -/
def packed (endian : Endian) (random : Except PhpError MaskKey) (payload : Bytes)
    (opcode flags : UInt8) : Except PhpError Bytes :=
  match packPayload endian random.toOption payload opcode flags, random with
  | some frame, _ => .ok frame
  | none, .error e => .error e
  -- with a key at hand the packing does not fail
  | none, .ok _ => .error .other

/-- `Protocol::encode`. -/
def encode (endian : Endian) (random : Except PhpError MaskKey) (payload : Bytes)
    (type : Option MessageType) (masked : Bool) : Except PhpError Bytes :=
  let opcode := (type.map MessageType.opcode).getD opcodeText
  let flags := if masked then flagFin ||| flagMask else flagFin
  if opcode = opcodeText && !isValidUtf8 payload then
    .error (.argumentValueError 1 "must be valid UTF-8 for text frames")
  else packed endian random payload opcode flags

/-- The first argument of `Protocol::pack`; `other` is a value of a type it refuses. -/
inductive PackData where
  | string (payload : Bytes)
  | frame (frame : Frame)
  | closeFrame (frame : CloseFrame)
  | other (typeName : String)
  deriving Repr, DecidableEq

/-- `websocket_protocol_opcode_is_valid` on the `zend_long` that `pack` is given. -/
def longOpcodeIsValid (opcode : Int) : Bool :=
  0 ≤ opcode && opcode ≤ 0xf && opcodeIsValid (UInt8.ofNat opcode.toNat)

/-- `websocket_protocol_opcode_is_control` on a `zend_long`. -/
def longOpcodeIsControl (opcode : Int) : Bool := 0x8 ≤ opcode && opcode ≤ 0xf

/-- `(uint8_t) (flags & WEBSOCKET_FLAGS_ALL)`. -/
def flagsOctet (flags : Int) : UInt8 := UInt8.ofNat (flags % 2 ^ 8).toNat &&& flagsAll

/-- The checks of `Protocol::pack`, and the frame. -/
def packChecked (endian : Endian) (random : Except PhpError MaskKey) (payload : Bytes)
    (opcode flags : Int) : Except PhpError Bytes :=
  let final := flagSet (flagsOctet flags) flagFin
  if !longOpcodeIsValid opcode then
    .error (.argumentValueError 2 "must be a valid WebSocket opcode")
  else if longOpcodeIsControl opcode && !final then
    .error (.argumentValueError 3 "must include FIN for control frames")
  else if longOpcodeIsControl opcode && payload.length > 125 then
    .error (.argumentValueError 1 "control frame payload must be at most 125 bytes")
  else if opcode = opcodeText.toNat && final && !isValidUtf8 payload then
    .error (.argumentValueError 1 "must be valid UTF-8 for text frames")
  else packed endian random payload (UInt8.ofNat opcode.toNat) (flagsOctet flags)

/-- `Protocol::pack`. -/
def pack (endian : Endian) (random : Except PhpError MaskKey) (data : PackData)
    (opcode flags : Int) : Except PhpError Bytes :=
  match data with
  | .string payload => packChecked endian random payload opcode flags
  | .frame frame => packChecked endian random frame.payload frame.opcode frame.flags
  | .closeFrame frame =>
      match closePayload frame.code frame.reason with
      | .error e => .error e
      | .ok payload => packChecked endian random payload opcodeClose.toNat frame.flags
  | .other typeName =>
      .error (.typeError ("must be of type string|WebSocket\\Frame|WebSocket\\CloseFrame, " ++
        typeName ++ " given"))

/-! ## What is complete stays complete -/

theorem unpackLength_pos {b : Bytes} {payloadLen pos : Nat} (present : 2 ≤ b.length)
    (h : unpackLength b = some (payloadLen, pos)) : 2 ≤ pos ∧ pos ≤ 10 ∧ pos ≤ b.length := by
  simp only [unpackLength] at h
  repeat' split at h
  all_goals simp only [reduceCtorEq, Option.some.injEq, Prod.mk.injEq] at h
  all_goals omega

theorem unpackLength_append {b : Bytes} (c : Bytes) {length : Nat × Nat} (present : 2 ≤ b.length)
    (h : unpackLength b = some length) : unpackLength (b ++ c) = some length := by
  have second : (b ++ c).getD 1 0 = b.getD 1 0 := getD_append present
  revert h
  simp only [unpackLength, second, List.length_append]
  intro h
  split
  · rename_i two
    rw [if_pos two] at h
    split at h
    · cases h
    · rename_i long
      rw [if_neg (by omega), getD_append (show 2 < b.length by omega),
        getD_append (show 3 < b.length by omega)]
      exact h
  · rename_i notTwo
    rw [if_neg notTwo] at h
    split
    · rename_i eight
      rw [if_pos eight] at h
      split at h
      · cases h
      · rename_i long
        have tail : ((b ++ c).drop 2).take 8 = (b.drop 2).take 8 := by
          rw [List.drop_append_of_le_length (by omega), List.take_append_of_le_length (by simp; omega)]
        rw [if_neg (by omega), tail]
        exact h
    · rename_i short
      rw [if_neg short] at h
      exact h

/-- The offset of the payload. -/
def payloadStart (input : Bytes) (pos : Nat) : Nat :=
  if input.getD 1 0 &&& 0x80 ≠ 0 then pos + 4 else pos

/-- The guards together ask for the whole frame, and no sum in them wraps. -/
theorem readFrame_eq (endian : Endian) {input : Bytes} {payloadLen pos : Nat}
    (present : 2 ≤ input.length) (length : unpackLength input = some (payloadLen, pos)) :
    readFrame endian input =
      if sizeMax < payloadStart input pos + payloadLen ∨
          input.length < payloadStart input pos + payloadLen then none
      else some (rawFrame endian input payloadLen pos) := by
  obtain ⟨-, small, -⟩ := unpackLength_pos present length
  have room : 14 ≤ sizeMax := by decide
  have guards : ∀ start ≤ 14, ∀ raw : Option RawFrame,
      (if (payloadLen > sizeMax || payloadLen > sizeMax - start ||
        input.length < sizeAdd start payloadLen) = true then none else raw) =
      if sizeMax < start + payloadLen ∨ input.length < start + payloadLen then none else raw := by
    intro start below raw
    simp only [Bool.or_eq_true, decide_eq_true_eq]
    by_cases wraps : sizeMax < start + payloadLen
    · rw [if_pos (by omega), if_pos (Or.inl wraps)]
    · rw [sizeAdd_of_le (by omega)]
      split <;> split <;> first | rfl | omega
  rw [readFrame, if_neg (by omega), length]
  by_cases masked : input.getD 1 0 &&& 0x80 ≠ 0
  · simp only [payloadStart, masked, decide_true, if_true, Bool.true_and, not_false_eq_true, ne_eq,
      decide_eq_true_eq]
    rw [guards (pos + 4) (by omega)]
    split
    · rw [if_pos (Or.inr (by omega))]
    · rfl
  · simp only [payloadStart, masked, decide_false, if_false, Bool.false_and, Bool.false_eq_true]
    exact guards pos (by omega) _

theorem readFrame_some {endian : Endian} {input : Bytes} {raw : RawFrame}
    (h : readFrame endian input = some raw) :
    2 ≤ input.length ∧ ∃ payloadLen pos, unpackLength input = some (payloadLen, pos) ∧
      payloadStart input pos + payloadLen ≤ sizeMax ∧
      payloadStart input pos + payloadLen ≤ input.length ∧
      raw = rawFrame endian input payloadLen pos := by
  by_cases short : input.length < 2
  · rw [readFrame, if_pos short] at h
    cases h
  · have present : 2 ≤ input.length := by omega
    refine ⟨present, ?_⟩
    cases length : unpackLength input with
    | none =>
        rw [readFrame, if_neg short, length] at h
        cases h
    | some found =>
        obtain ⟨payloadLen, pos⟩ := found
        rw [readFrame_eq endian present length] at h
        split at h
        · cases h
        · rename_i whole
          simp only [not_or, Nat.not_lt] at whole
          exact ⟨payloadLen, pos, rfl, whole.1, whole.2, (Option.some.inj h).symm⟩

theorem readFrame_consumed {endian : Endian} {input : Bytes} {raw : RawFrame}
    (h : readFrame endian input = some raw) :
    0 < raw.bytesConsumed ∧ raw.bytesConsumed ≤ input.length := by
  obtain ⟨present, payloadLen, pos, length, room, whole, rfl⟩ := readFrame_some h
  have after := (unpackLength_pos present length).1
  have start : (rawFrame endian input payloadLen pos).bytesConsumed =
      payloadStart input pos + payloadLen := by
    rw [← sizeAdd_of_le room]
    simp only [rawFrame, payloadStart, decide_eq_true_eq]
  have behind : 2 ≤ payloadStart input pos := by
    unfold payloadStart
    split <;> omega
  omega

theorem readFrame_append {endian : Endian} {input : Bytes} {raw : RawFrame} (more : Bytes)
    (h : readFrame endian input = some raw) : readFrame endian (input ++ more) = some raw := by
  obtain ⟨present, payloadLen, pos, length, room, whole, rfl⟩ := readFrame_some h
  have first : (input ++ more).getD 0 0 = input.getD 0 0 := getD_append (by omega)
  have second : (input ++ more).getD 1 0 = input.getD 1 0 := getD_append present
  have start : payloadStart (input ++ more) pos = payloadStart input pos := by
    rw [payloadStart, payloadStart, second]
  have longer : 2 ≤ (input ++ more).length := by
    rw [List.length_append]
    omega
  have ready : ¬ (sizeMax < payloadStart (input ++ more) pos + payloadLen ∨
      (input ++ more).length < payloadStart (input ++ more) pos + payloadLen) := by
    rw [start, List.length_append]
    omega
  rw [readFrame_eq endian longer (unpackLength_append more present length), if_neg ready]
  have slice : ∀ n, n + payloadLen ≤ input.length →
      ((input ++ more).drop n).take payloadLen = (input.drop n).take payloadLen := by
    intro n inside
    rw [List.drop_append_of_le_length (by omega), List.take_append_of_le_length (by simp; omega)]
  unfold payloadStart at whole
  simp only [rawFrame, first, second]
  by_cases masked : input.getD 1 0 &&& 0x80 ≠ 0
  · rw [if_pos masked] at whole
    have key : MaskKey.read (input ++ more) pos = MaskKey.read input pos := by
      simp only [MaskKey.read, getD_append (b := more) (show pos < input.length by omega),
        getD_append (b := more) (show pos + 1 < input.length by omega),
        getD_append (b := more) (show pos + 2 < input.length by omega),
        getD_append (b := more) (show pos + 3 < input.length by omega)]
    simp only [masked, ne_eq, not_false_eq_true, decide_true, if_true, key, slice _ whole]
  · rw [if_neg masked] at whole
    simp only [masked, decide_false, Bool.false_eq_true, if_false, slice _ whole]

/-- Octets behind a frame change nothing of what `unpack` makes of it. -/
theorem unpack_append {endian : Endian} {input : Bytes} (more : Bytes)
    (decided : unpack endian input ≠ .null) :
    unpack endian (input ++ more) = unpack endian input := by
  unfold unpack at decided ⊢
  cases found : readFrame endian input with
  | none =>
      rw [found] at decided
      exact absurd rfl decided
  | some raw => rw [readFrame_append more found]

end PhpWebSocket
