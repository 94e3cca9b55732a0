import PhpWebSocket.Protocol

/-! # The server's frame parser

`websocket_server_parse_frame`, on the octets in a connection's read buffer. The
source writes one function; here its three blocks (the length field, the checks
before the payload, the checks on the payload) are definitions of their own, in
the order in which the source makes them. `size_t` sums are `sizeAdd`, so that a
guard which failed to prevent a wrap-around would show.
-/

namespace PhpWebSocket

open Lib

/-- `websocket_server_frame`, as `WEBSOCKET_SERVER_FRAME_OK` leaves it. -/
structure ServerFrame where
  opcode : UInt8
  final : Bool
  bytesConsumed : Nat
  payload : Bytes
  deriving Repr, DecidableEq

/-- `websocket_server_frame_status`, with the frame where there is one. -/
inductive FrameResult where
  | incomplete
  | ok (frame : ServerFrame)
  | protocolError
  | messageTooBig
  | invalidPayload
  deriving Repr, DecidableEq

inductive LengthResult where
  | incomplete
  | invalid
  | ok (payloadLen pos : Nat)
  deriving Repr, DecidableEq

/-- The length field: the declared length and the offset behind it. -/
def readLength (input : Bytes) : LengthResult :=
  let len7 := (input.getD 1 0 &&& 0x7f).toNat
  if len7 = 126 then
    if input.length < 4 then .incomplete
    else
      let payloadLen := (input.getD 2 0).toNat <<< 8 ||| (input.getD 3 0).toNat
      if payloadLen < 126 then .invalid else .ok payloadLen 4
  else if len7 = 127 then
    if input.length < 10 then .incomplete
    else if input.getD 2 0 &&& 0x80 ≠ 0 then .invalid
    else
      let payloadLen := bigEndian ((input.drop 2).take 8)
      if payloadLen ≤ 0xffff then .invalid else .ok payloadLen 10
  else .ok len7 2

def MaskKey.read (input : Bytes) (pos : Nat) : MaskKey :=
  ⟨input.getD pos 0, input.getD (pos + 1) 0, input.getD (pos + 2) 0, input.getD (pos + 3) 0⟩

/-- The close code, read from octets that are still masked. -/
def maskedCloseCode (input : Bytes) (pos : Nat) (mask : MaskKey) : Int :=
  (((input.getD pos 0 ^^^ mask.k0).toNat <<< 8 ||| (input.getD (pos + 1) 0 ^^^ mask.k1).toNat : Nat) : Int)

/-- From `pos` on the whole payload is present. -/
def readPayload (input : Bytes) (opcode : UInt8) (final : Bool) (payloadLen pos : Nat)
    (mask : MaskKey) : FrameResult :=
  if opcode = opcodeClose && payloadLen = 1 then .protocolError
  else if opcode = opcodeClose && payloadLen ≥ 2 &&
      !closeCodeIsValid (maskedCloseCode input pos mask) then .protocolError
  else
    let payload := maskPayload ((input.drop pos).take payloadLen) mask
    if opcode = opcodeClose && payloadLen ≥ 2 && !isValidUtf8 (payload.drop 2) then .invalidPayload
    else .ok { opcode, final, bytesConsumed := sizeAdd pos payloadLen, payload }

/-- Behind the length field: wait for the mask key, then for the payload. -/
def readBody (input : Bytes) (opcode : UInt8) (final : Bool) (payloadLen pos : Nat) : FrameResult :=
  if payloadLen > sizeMax || payloadLen > sizeMax - pos || input.length < sizeAdd pos 4 then .incomplete
  else
    let mask := MaskKey.read input pos
    let pos := sizeAdd pos 4
    if payloadLen > sizeMax - pos || input.length < sizeAdd pos payloadLen then .incomplete
    else readPayload input opcode final payloadLen pos mask

/-- `websocket_server_parse_frame`. -/
def parseFrame (input : Bytes) (maxMessageSize : Nat) : FrameResult :=
  if input.length < 2 then .incomplete
  else
    let b0 := input.getD 0 0
    let b1 := input.getD 1 0
    let final : Bool := b0 &&& 0x80 ≠ 0
    let opcode := b0 &&& 0x0f
    if b0 &&& 0x70 ≠ 0 || b1 &&& 0x80 = 0 then .protocolError
    else if !opcodeIsValid opcode then .protocolError
    else
      match readLength input with
      | .incomplete => .incomplete
      | .invalid => .protocolError
      | .ok payloadLen pos =>
          if opcodeIsControl opcode && (!final || payloadLen > 125) then .protocolError
          else if !opcodeIsControl opcode && payloadLen > maxMessageSize then .messageTooBig
          else readBody input opcode final payloadLen pos

theorem readLength_pos {b : Bytes} {payloadLen pos : Nat} (present : 2 ≤ b.length)
    (h : readLength b = .ok payloadLen pos) : 2 ≤ pos ∧ pos ≤ 10 ∧ pos ≤ b.length := by
  simp only [readLength] at h
  repeat' split at h
  all_goals simp only [reduceCtorEq, LengthResult.ok.injEq] at h
  all_goals omega

/-- The two guards together ask for the whole frame, and no sum in them wraps. -/
theorem readBody_eq (input : Bytes) (opcode : UInt8) (final : Bool) (payloadLen pos : Nat)
    (small : pos ≤ 10) :
    readBody input opcode final payloadLen pos =
      if sizeMax < pos + 4 + payloadLen ∨ input.length < pos + 4 + payloadLen then .incomplete
      else readPayload input opcode final payloadLen (pos + 4) (MaskKey.read input pos) := by
  have room : 14 ≤ sizeMax := by decide
  have four : sizeAdd pos 4 = pos + 4 := sizeAdd_of_le (by omega)
  simp only [readBody, four, Bool.or_eq_true, decide_eq_true_eq]
  by_cases wraps : sizeMax < pos + 4 + payloadLen
  · rw [if_pos (Or.inl wraps)]
    split
    · rfl
    · rw [if_pos (by omega)]
  · have sum : sizeAdd (pos + 4) payloadLen = pos + 4 + payloadLen := sizeAdd_of_le (by omega)
    rw [sum]
    split
    next early => rw [if_pos (by omega)]
    next early => split <;> split <;> first | rfl | omega

/-! ## What is decided stays decided

Every test reads octets below an offset that an earlier test has compared with the
length, so octets that arrive later change no result but `incomplete`.
-/

theorem getD_append {a b : Bytes} {i : Nat} (inside : i < a.length) :
    (a ++ b).getD i 0 = a.getD i 0 := by
  simp only [List.getD_eq_getElem?_getD, List.getElem?_append_left inside]

theorem readLength_append (b c : Bytes) (present : 2 ≤ b.length)
    (decided : readLength b ≠ .incomplete) : readLength (b ++ c) = readLength b := by
  have second : (b ++ c).getD 1 0 = b.getD 1 0 := getD_append present
  revert decided
  simp only [readLength, second, List.length_append]
  intro decided
  split
  next is126 =>
    simp only [if_pos is126] at decided
    by_cases short : b.length < 4
    · simp only [short, if_true, ne_eq, not_true] at decided
    · simp only [short, if_false, show ¬ b.length + c.length < 4 by omega,
        getD_append (b := c) (show 2 < b.length by omega),
        getD_append (b := c) (show 3 < b.length by omega)]
  next not126 =>
    simp only [if_neg not126] at decided
    split
    next is127 =>
      simp only [if_pos is127] at decided
      by_cases short : b.length < 10
      · simp only [short, if_true, ne_eq, not_true] at decided
      · have tail : ((b ++ c).drop 2).take 8 = (b.drop 2).take 8 := by
          rw [List.drop_append_of_le_length (by omega), List.take_append_of_le_length (by simp; omega)]
        simp only [short, if_false, show ¬ b.length + c.length < 10 by omega, tail,
          getD_append (b := c) (show 2 < b.length by omega)]
    next not127 => rfl

private theorem readPayload_append (b c : Bytes) (opcode : UInt8) (final : Bool)
    (payloadLen pos : Nat) (mask : MaskKey) (present : pos + payloadLen ≤ b.length) :
    readPayload (b ++ c) opcode final payloadLen pos mask =
      readPayload b opcode final payloadLen pos mask := by
  have slice : ((b ++ c).drop pos).take payloadLen = (b.drop pos).take payloadLen := by
    rw [List.drop_append_of_le_length (by omega), List.take_append_of_le_length (by simp; omega)]
  by_cases long : payloadLen ≥ 2
  · have code : maskedCloseCode (b ++ c) pos mask = maskedCloseCode b pos mask := by
      simp only [maskedCloseCode, getD_append (b := c) (show pos < b.length by omega),
        getD_append (b := c) (show pos + 1 < b.length by omega)]
    simp only [readPayload, slice, code]
  · simp only [readPayload, slice, long, decide_false, Bool.and_false, Bool.false_and]

private theorem readBody_append (b c : Bytes) (opcode : UInt8) (final : Bool)
    (payloadLen pos : Nat) (small : pos ≤ 10)
    (decided : readBody b opcode final payloadLen pos ≠ .incomplete) :
    readBody (b ++ c) opcode final payloadLen pos = readBody b opcode final payloadLen pos := by
  rw [readBody_eq b _ _ _ _ small] at decided ⊢
  rw [readBody_eq (b ++ c) _ _ _ _ small]
  by_cases waits : sizeMax < pos + 4 + payloadLen ∨ b.length < pos + 4 + payloadLen
  · rw [if_pos waits] at decided
    exact absurd rfl decided
  · have mask : MaskKey.read (b ++ c) pos = MaskKey.read b pos := by
      simp only [MaskKey.read, getD_append (b := c) (show pos < b.length by omega),
        getD_append (b := c) (show pos + 1 < b.length by omega),
        getD_append (b := c) (show pos + 2 < b.length by omega),
        getD_append (b := c) (show pos + 3 < b.length by omega)]
    have ready : ¬ (sizeMax < pos + 4 + payloadLen ∨ (b ++ c).length < pos + 4 + payloadLen) := by
      rw [List.length_append]
      omega
    rw [if_neg waits, if_neg ready, mask]
    exact readPayload_append b c _ _ payloadLen (pos + 4) _ (by omega)

/-- Octets behind a buffer on which the parser has decided do not change what it
    decided, nor the frame. -/
theorem parseFrame_append (b c : Bytes) (maxMessageSize : Nat)
    (decided : parseFrame b maxMessageSize ≠ .incomplete) :
    parseFrame (b ++ c) maxMessageSize = parseFrame b maxMessageSize := by
  by_cases short : b.length < 2
  · simp only [parseFrame, short, if_true, ne_eq, not_true] at decided
  have present : 2 ≤ b.length := by omega
  have first : (b ++ c).getD 0 0 = b.getD 0 0 := getD_append (by omega)
  have second : (b ++ c).getD 1 0 = b.getD 1 0 := getD_append present
  revert decided
  simp only [parseFrame, first, second, List.length_append, short, if_false,
    show ¬ b.length + c.length < 2 by omega]
  intro decided
  split
  · rfl
  next octets =>
    simp only [if_neg octets] at decided
    split
    · rfl
    next valid =>
      simp only [if_neg valid] at decided
      have lengthDecided : readLength b ≠ .incomplete := by
        intro undecided
        simp only [undecided, ne_eq, not_true] at decided
      rw [readLength_append b c present lengthDecided]
      cases atLength : readLength b with
      | incomplete => exact absurd atLength lengthDecided
      | invalid => rfl
      | ok payloadLen pos =>
          simp only [atLength] at decided ⊢
          split
          · rfl
          next control =>
            simp only [if_neg control] at decided
            split
            · rfl
            next big =>
              simp only [if_neg big] at decided
              exact readBody_append b c _ _ payloadLen pos (readLength_pos present atLength).2.1 decided

end PhpWebSocket
