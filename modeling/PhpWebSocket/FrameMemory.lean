import PhpWebSocket.FrameStream
import PhpWebSocket.Masking
import PhpWebSocket.RoundTrip

/-! # The frame parsers in memory

`websocket_server_parse_frame` and `websocket_protocol_unpack` once more, in the order of the
source and on checked memory: every octet is read at the index the source writes, every
`size_t` sum and difference is computed where the source computes it, and an operand of `||` is
computed only when the ones before it are false.
-/

namespace PhpWebSocket

open Lib Checked

/-- `bytes[i]` against a bound, and what follows if it keeps it. -/
def testAt (bytes : Bytes) (i : Nat) (within : UInt8 → Bool) (next : Checked Bool) : Checked Bool := do
  let octet ← read bytes i
  if within octet then next else .ok false

/-- The lead classes of `websocket_protocol_is_valid_utf8`: the character at `i` begins with `c`,
    and `next` goes on at an index behind it. -/
def characterAt (bytes : Bytes) (len i : Nat) (c : UInt8) (next : Nat → Checked Bool) :
    Checked Bool :=
  if c ≤ 0x7f then next (i + 1)
  else if 0xc2 ≤ c && c ≤ 0xdf then
    if i + 1 ≥ len then .ok false
    else testAt bytes (i + 1) isTail (next (i + 2))
  else if c = 0xe0 then
    if i + 2 ≥ len then .ok false
    else testAt bytes (i + 1) (fun b => !(b < 0xa0 || b > 0xbf))
      (testAt bytes (i + 2) isTail (next (i + 3)))
  else if (0xe1 ≤ c && c ≤ 0xec) || (0xee ≤ c && c ≤ 0xef) then
    if i + 2 ≥ len then .ok false
    else testAt bytes (i + 1) isTail (testAt bytes (i + 2) isTail (next (i + 3)))
  else if c = 0xed then
    if i + 2 ≥ len then .ok false
    else testAt bytes (i + 1) (fun b => !(b < 0x80 || b > 0x9f))
      (testAt bytes (i + 2) isTail (next (i + 3)))
  else if c = 0xf0 then
    if i + 3 ≥ len then .ok false
    else testAt bytes (i + 1) (fun b => !(b < 0x90 || b > 0xbf))
      (testAt bytes (i + 2) isTail (testAt bytes (i + 3) isTail (next (i + 4))))
  else if 0xf1 ≤ c && c ≤ 0xf3 then
    if i + 3 ≥ len then .ok false
    else testAt bytes (i + 1) isTail
      (testAt bytes (i + 2) isTail (testAt bytes (i + 3) isTail (next (i + 4))))
  else if c = 0xf4 then
    if i + 3 ≥ len then .ok false
    else testAt bytes (i + 1) (fun b => !(b < 0x80 || b > 0x8f))
      (testAt bytes (i + 2) isTail (testAt bytes (i + 3) isTail (next (i + 4))))
  else .ok false

/-- `websocket_protocol_is_valid_utf8` on `len` octets at a pointer. -/
def isValidUtf8At (bytes : Bytes) (len : Nat) : Nat → Nat → Checked Bool
  | 0, _ => .error .endless
  | fuel + 1, i =>
      if i < len then do
        let c ← read bytes i
        characterAt bytes len i c fun i => isValidUtf8At bytes len fuel i
      else .ok true

/-- The loop over the eight octets of a long length, in a `uint64_t`. -/
def readEightAt (input : Bytes) : Checked Nat :=
  (List.range 8).foldlM (fun payloadLen i => do
    let octet ← read input (2 + i)
    .ok ((payloadLen <<< 8 ||| octet.toNat) % 2 ^ 64)) 0

/-- `payload_len > SIZE_MAX - pos || len < pos + more`. -/
def lacksAt (input : Bytes) (payloadLen pos more : Nat) : Checked Bool := do
  let room ← sub sizeMax pos
  if payloadLen > room then .ok true
  else do
    let needed ← add sizeMax pos more
    .ok (decide (input.length < needed))

/-! ## The server's parser -/

def readLengthAt (input : Bytes) (b1 : UInt8) : Checked LengthResult :=
  let len7 := (b1 &&& 0x7f).toNat
  if len7 = 126 then
    if input.length < 4 then .ok .incomplete
    else do
      let b2 ← read input 2
      let b3 ← read input 3
      let payloadLen := b2.toNat <<< 8 ||| b3.toNat
      if payloadLen < 126 then .ok .invalid else .ok (.ok payloadLen 4)
  else if len7 = 127 then
    if input.length < 10 then .ok .incomplete
    else do
      let b2 ← read input 2
      if b2 &&& 0x80 ≠ 0 then .ok .invalid
      else do
        let payloadLen ← readEightAt input
        if payloadLen ≤ 0xffff then .ok .invalid else .ok (.ok payloadLen 10)
  else .ok (.ok len7 2)

/-- The checks on the code of a close frame, before its payload is unmasked. -/
def closeRefusedAt (input : Bytes) (opcode : UInt8) (payloadLen pos : Nat) (mask : MaskKey) :
    Checked Bool :=
  if opcode = opcodeClose then
    if payloadLen = 1 then .ok true
    else if payloadLen ≥ 2 then do
      let first ← read input pos
      let second ← read input (pos + 1)
      let closeCode : Int := ((first ^^^ mask.k0).toNat <<< 8 ||| (second ^^^ mask.k1).toNat : Nat)
      .ok (!closeCodeIsValid closeCode)
    else .ok false
  else .ok false

/-- The UTF-8 check, where there is one, of a text that begins at `start` in a string of
    `payloadLen` octets. -/
def textValidAt (text : Bool) (payload : Bytes) (start payloadLen : Nat) : Checked Bool :=
  if text then do
    let textLen ← sub payloadLen start
    isValidUtf8At (payload.drop start) textLen (textLen + 1) 0
  else .ok true

def readPayloadAt (input : Bytes) (opcode : UInt8) (final : Bool) (payloadLen pos : Nat)
    (mask : MaskKey) : Checked FrameResult := do
  let refused ← closeRefusedAt input opcode payloadLen pos mask
  if refused then .ok .protocolError
  else do
    -- the string and its terminator
    let payload := List.replicate (payloadLen + 1) 0
    let payload ← maskPayloadInto payload (input.drop pos) payloadLen mask
    let payload ← write payload payloadLen [0]
    let bytesConsumed ← add sizeMax pos payloadLen
    let valid ← textValidAt (opcode = opcodeClose && payloadLen ≥ 2) payload 2 payloadLen
    if !valid then .ok .invalidPayload
    else .ok (.ok { opcode, final, bytesConsumed, payload := payload.take payloadLen })

def readBodyAt (input : Bytes) (opcode : UInt8) (final : Bool) (payloadLen pos : Nat) :
    Checked FrameResult :=
  if payloadLen > sizeMax then .ok .incomplete
  else do
    let short ← lacksAt input payloadLen pos 4
    if short then .ok .incomplete
    else do
      let key ← copy input pos 4
      let pos ← add sizeMax pos 4
      let short ← lacksAt input payloadLen pos payloadLen
      if short then .ok .incomplete
      else readPayloadAt input opcode final payloadLen pos (MaskKey.read key 0)

/-- `websocket_server_parse_frame`. -/
def parseFrameAt (input : Bytes) (maxMessageSize : Nat) : Checked FrameResult :=
  if input.length < 2 then .ok .incomplete
  else do
    let b0 ← read input 0
    let b1 ← read input 1
    let final : Bool := b0 &&& 0x80 ≠ 0
    let opcode := b0 &&& 0x0f
    if b0 &&& 0x70 ≠ 0 || b1 &&& 0x80 = 0 then .ok .protocolError
    else if !opcodeIsValid opcode then .ok .protocolError
    else do
      match ← readLengthAt input b1 with
      | .incomplete => .ok .incomplete
      | .invalid => .ok .protocolError
      | .ok payloadLen pos =>
          if opcodeIsControl opcode && (!final || payloadLen > 125) then .ok .protocolError
          else if !opcodeIsControl opcode && payloadLen > maxMessageSize then .ok .messageTooBig
          else readBodyAt input opcode final payloadLen pos

/-! ## `Protocol::unpack` -/

def unpackLengthAt (input : Bytes) (b1 : UInt8) : Checked (Option (Nat × Nat)) :=
  let len7 := (b1 &&& 0x7f).toNat
  if len7 = 126 then
    if input.length < 4 then .ok none
    else do
      let b2 ← read input 2
      let b3 ← read input 3
      .ok (some (b2.toNat <<< 8 ||| b3.toNat, 4))
  else if len7 = 127 then
    if input.length < 10 then .ok none
    else do
      let payloadLen ← readEightAt input
      .ok (some (payloadLen, 10))
  else .ok (some (len7, 2))

/-- The close frame made of an unmasked payload. -/
def unpackCloseAt (payload : Bytes) (payloadLen : Nat) (flags : Int) (bytesConsumed : Nat) :
    Checked Unpacked :=
  if payloadLen ≥ 2 then do
    let valid ← textValidAt true payload 2 payloadLen
    if !valid then .ok (.threw (.error "Invalid WebSocket close reason UTF-8"))
    else do
      let first ← read payload 0
      let second ← read payload 1
      let reasonLen ← sub payloadLen 2
      let reason ← copy payload 2 reasonLen
      .ok (.closeFrame ⟨(first.toNat <<< 8 ||| second.toNat : Nat), reason, flags, bytesConsumed⟩)
  else .ok (.closeFrame ⟨closeNormal, [], flags, bytesConsumed⟩)

/-- The string for the payload, filled and terminated. -/
def unpackPayloadAt (endian : Endian) (input : Bytes) (mask : Option MaskKey) (payloadLen pos : Nat) :
    Checked Bytes :=
  let payload := List.replicate (payloadLen + 1) 0
  match mask with
  | some mask => do
      let payload ← maskPayloadCopyInto endian payload (input.drop pos) payloadLen mask
      write payload payloadLen [0]
  | none => do
      let octets ← copy input pos payloadLen
      let payload ← write payload 0 octets
      write payload payloadLen [0]

/-- From the length field and the mask key on. -/
def unpackBodyAt (endian : Endian) (input : Bytes) (b0 b1 : UInt8) (mask : Option MaskKey)
    (payloadLen pos : Nat) : Checked Unpacked :=
  let final : Bool := b0 &&& 0x80 ≠ 0
  let opcode := b0 &&& 0x0f
  let flags : Int := (unpackFlags b0 b1).toNat
  if payloadLen > sizeMax then .ok .null
  else do
    let short ← lacksAt input payloadLen pos payloadLen
    if short then .ok .null
    else if !opcodeIsValid opcode then .ok (.threw (unsupportedOpcode opcode))
    else if opcodeIsControl opcode && (!final || payloadLen > 125) then
      .ok (.threw (.error "Invalid WebSocket control frame"))
    else if opcode = opcodeClose && payloadLen = 1 then
      .ok (.threw (.error "Invalid WebSocket close frame"))
    else do
      let payload ← unpackPayloadAt endian input mask payloadLen pos
      let bytesConsumed ← add sizeMax pos payloadLen
      if opcode = opcodeClose then unpackCloseAt payload payloadLen flags bytesConsumed
      else
        match MessageType.fromOpcode opcode with
        | none => .ok (.threw (unsupportedOpcode opcode))
        | some type => do
            let valid ← textValidAt (opcode = opcodeText && final) payload 0 payloadLen
            if !valid then .ok (.threw (.error "Invalid WebSocket text frame UTF-8"))
            else .ok (.frame ⟨type, opcode.toNat, flags, payload.take payloadLen, final, bytesConsumed⟩)

/-- `websocket_protocol_unpack`. -/
def unpackAt (endian : Endian) (input : Bytes) : Checked Unpacked :=
  if input.length < 2 then .ok .null
  else do
    let b0 ← read input 0
    let b1 ← read input 1
    match ← unpackLengthAt input b1 with
    | none => .ok .null
    | some (payloadLen, pos) =>
        if b1 &&& 0x80 ≠ 0 then do
          let needed ← add sizeMax pos 4
          if input.length < needed then .ok .null
          else do
            let key ← copy input pos 4
            let pos ← add sizeMax pos 4
            unpackBodyAt endian input b0 b1 (some (MaskKey.read key 0)) payloadLen pos
        else unpackBodyAt endian input b0 b1 none payloadLen pos

/-! ## No fault -/

section

variable {input bytes : Bytes} {payloadLen pos len i : Nat}

theorem drop_cons {text : Bytes} {b : UInt8} {rest : Bytes} (behind : text.drop i = b :: rest) :
    text.drop (i + 1) = rest ∧ text[i]? = some b := by
  constructor
  · rw [← List.drop_drop, behind, List.drop_one, List.tail_cons]
  · have first := congrArg (·[0]?) behind
    rwa [List.getElem?_drop] at first

theorem characterAt_ok {next : Nat → Checked Bool} (room : len ≤ bytes.length) {c : UInt8}
    {rest : Bytes} (here : (bytes.take len).drop i = c :: rest)
    (more : ∀ j, i < j → j ≤ len → next j = .ok (isValidUtf8 ((bytes.take len).drop j))) :
    characterAt bytes len i c next = .ok (isValidUtf8 (c :: rest)) := by
  have total : (bytes.take len).length = len := by
    rw [List.length_take]
    omega
  have test {j : Nat} {b : UInt8} (within : UInt8 → Bool) (valid : Bool)
      (present : (bytes.take len)[j]? = some b) :
      testAt bytes j within (.ok valid) = .ok (within b && valid) := by
    rw [List.getElem?_take] at present
    split at present
    · rw [testAt, Checked.read, present, ok_bind]
      cases within b <;> rfl
    · cases present
  have size {j : Nat} {xs : Bytes} (behind : (bytes.take len).drop j = xs) :
      xs.length = len - j := by rw [← behind, List.length_drop, total]
  obtain ⟨one, -⟩ := drop_cons here
  have left := size here
  rw [List.length_cons] at left
  have next1 := more (i + 1) (by omega) (by omega)
  rw [isValidUtf8.eq_def]
  rw [one] at next1
  rcases rest with _ | ⟨b1, rest⟩
  · simp only [List.length_nil] at left
    simp only [characterAt, next1, if_pos (show i + 1 ≥ len by omega), if_pos (show i + 2 ≥ len by omega),
      if_pos (show i + 3 ≥ len by omega)]
    simp only [← apply_ite Except.ok]
  simp only [List.length_cons] at left
  obtain ⟨two, at1⟩ := drop_cons one
  have next2 := more (i + 2) (by omega) (by omega)
  rw [two] at next2
  rcases rest with _ | ⟨b2, rest⟩
  · simp only [List.length_nil] at left
    simp only [characterAt, next1, next2, test _ _ at1, if_neg (show ¬ i + 1 ≥ len by omega),
      if_pos (show i + 2 ≥ len by omega), if_pos (show i + 3 ≥ len by omega)]
    simp only [← apply_ite Except.ok]
  simp only [List.length_cons] at left
  obtain ⟨three, at2⟩ := drop_cons two
  have next3 := more (i + 3) (by omega) (by omega)
  rw [three] at next3
  rcases rest with _ | ⟨b3, rest⟩
  · simp only [List.length_nil] at left
    simp only [characterAt, next1, next2, next3, test _ _ at1, test _ _ at2,
      if_neg (show ¬ i + 1 ≥ len by omega), if_neg (show ¬ i + 2 ≥ len by omega),
      if_pos (show i + 3 ≥ len by omega)]
    simp only [← apply_ite Except.ok, Bool.and_assoc]
  simp only [List.length_cons] at left
  obtain ⟨four, at3⟩ := drop_cons three
  have next4 := more (i + 4) (by omega) (by omega)
  rw [four] at next4
  simp only [characterAt, next1, next2, next3, next4, test _ _ at1, test _ _ at2, test _ _ at3,
    if_neg (show ¬ i + 1 ≥ len by omega), if_neg (show ¬ i + 2 ≥ len by omega),
    if_neg (show ¬ i + 3 ≥ len by omega)]
  simp only [← apply_ite Except.ok, Bool.and_assoc]

theorem isValidUtf8At_ok (room : len ≤ bytes.length) {fuel : Nat} (enough : len < i + fuel)
    (inside : i ≤ len) :
    isValidUtf8At bytes len fuel i = .ok (isValidUtf8 ((bytes.take len).drop i)) := by
  induction fuel generalizing i with
  | zero => omega
  | succ fuel ih =>
      rw [isValidUtf8At]
      split
      · rename_i before
        have here : (bytes.take len).drop i = bytes.getD i 0 :: (bytes.take len).drop (i + 1) := by
          rw [List.drop_eq_getElem_cons (by rw [List.length_take]; omega), List.getElem_take,
            List.getD_eq_getElem?_getD, List.getElem?_eq_getElem (by omega), Option.getD_some]
        rw [read_ok (by omega) 0, ok_bind,
          characterAt_ok room here fun j behind within => ih (by omega) within, here]
      · rw [List.drop_of_length_le (by rw [List.length_take]; omega)]
        rfl

theorem textValidAt_ok {text : Bool} {payload : Bytes} {start : Nat}
    (le : text = true → start ≤ payloadLen) (length : payload.length = payloadLen) :
    textValidAt text (payload ++ [0]) start payloadLen =
      .ok (!(text && !isValidUtf8 (payload.drop start))) := by
  unfold textValidAt
  split
  · rename_i checked
    have before := le checked
    rw [sub_ok before, ok_bind, isValidUtf8At_ok (by simp; omega) (by omega) (Nat.zero_le _),
      List.drop_zero, List.drop_append_of_le_length (by omega), List.take_left' (by simp; omega),
      checked, Bool.true_and, Bool.not_not]
  · rename_i unchecked
    simp [unchecked]

theorem readEightAt_ok (present : 10 ≤ input.length) :
    readEightAt input = .ok (bigEndian ((input.drop 2).take 8)) := by
  have upTo (n : Nat) (few : n ≤ 8) :
      (List.range n).foldlM (fun payloadLen i => do
        let octet ← read input (2 + i)
        Except.ok ((payloadLen <<< 8 ||| octet.toNat) % 2 ^ 64)) 0 =
      (.ok (bigEndian ((input.drop 2).take n)) : Checked Nat) := by
    induction n with
    | zero => rfl
    | succ n ih =>
        have taken : (input.drop 2).take (n + 1) =
            (input.drop 2).take n ++ [input.getD (2 + n) 0] := by
          rw [List.take_add_one, List.getElem?_drop, List.getD_eq_getElem?_getD,
            List.getElem?_eq_getElem (by omega)]
          rfl
        have step : bigEndian ((input.drop 2).take (n + 1)) =
            bigEndian ((input.drop 2).take n) <<< 8 ||| (input.getD (2 + n) 0).toNat := by
          rw [taken, bigEndian_append]
          simp [bigEndian]
        have small : bigEndian ((input.drop 2).take (n + 1)) < 2 ^ 64 :=
          Nat.lt_of_lt_of_le (bigEndian_lt _)
            (Nat.pow_le_pow_right (by decide) (by rw [List.length_take]; omega))
        rw [List.range_succ, List.foldlM_append, ih (by omega), ok_bind, List.foldlM_cons,
          read_ok (by omega) 0, ok_bind, ← step, Nat.mod_eq_of_lt small]
        rfl
  exact upTo 8 (Nat.le_refl 8)

theorem readLengthAt_ok (input : Bytes) :
    readLengthAt input (input.getD 1 0) = .ok (readLength input) := by
  rw [readLengthAt, readLength]
  dsimp only
  split
  · split
    · rfl
    · rw [read_ok (by omega) 0, ok_bind, read_ok (by omega) 0, ok_bind]
      split <;> rfl
  · split
    · split
      · rfl
      · rw [read_ok (by omega) 0, ok_bind, readEightAt_ok (by omega)]
        split
        · rfl
        · rw [ok_bind]
          split <;> rfl
    · rfl

theorem unpackLengthAt_ok (input : Bytes) :
    unpackLengthAt input (input.getD 1 0) = .ok (unpackLength input) := by
  rw [unpackLengthAt, unpackLength]
  split
  · split
    · rfl
    · rw [read_ok (by omega) 0, ok_bind, read_ok (by omega) 0, ok_bind]
  · split
    · split
      · rfl
      · rw [readEightAt_ok (by omega), ok_bind]
    · rfl

theorem lacksAt_ok {more : Nat} (small : pos ≤ sizeMax)
    (fits : payloadLen ≤ sizeMax - pos → pos + more ≤ sizeMax) :
    lacksAt input payloadLen pos more =
      .ok (decide (sizeMax < pos + payloadLen ∨ input.length < pos + more)) := by
  rw [lacksAt, sub_ok small, ok_bind]
  split
  · rename_i wraps
    rw [decide_eq_true (by omega)]
  · rename_i room
    rw [add_ok (fits (by omega)), ok_bind]
    congr 1
    rw [decide_eq_decide]
    omega

/-- The four octets of the key, copied out of the buffer. -/
theorem copiedKey (input : Bytes) (pos : Nat) :
    MaskKey.read ((input.drop pos).take 4) 0 = MaskKey.read input pos := by
  simp [MaskKey.read, List.getElem?_drop]

theorem closeRefusedAt_ok (opcode : UInt8) (mask : MaskKey)
    (present : pos + payloadLen ≤ input.length) :
    closeRefusedAt input opcode payloadLen pos mask =
      .ok (opcode = opcodeClose && payloadLen = 1 || opcode = opcodeClose && payloadLen ≥ 2 &&
        !closeCodeIsValid (maskedCloseCode input pos mask)) := by
  unfold closeRefusedAt
  split
  · rename_i close
    split
    · rename_i one
      simp [close, one]
    · rename_i notOne
      split
      · rename_i two
        rw [read_ok (by omega) 0, ok_bind, read_ok (by omega) 0, ok_bind]
        simp [close, notOne, two, maskedCloseCode]
      · rename_i none
        simp [notOne, none]
  · rename_i other
    simp [other]

theorem terminated {payload : Bytes} (length : payload.length = payloadLen) :
    write (payload ++ (List.replicate (payloadLen + 1) 0).drop payloadLen) payloadLen [0] =
      .ok (payload ++ [0]) := by
  have spare : (List.replicate (payloadLen + 1) (0 : UInt8)).drop payloadLen = [0] := by
    rw [List.drop_replicate, Nat.add_sub_cancel_left]
    rfl
  rw [spare, write_ok (by simp [length]), List.take_left' length, List.drop_of_length_le (by simp [length]),
    List.append_nil]

theorem readPayloadAt_ok (opcode : UInt8) (final : Bool) (mask : MaskKey)
    (fits : pos + payloadLen ≤ sizeMax) (present : pos + payloadLen ≤ input.length) :
    readPayloadAt input opcode final payloadLen pos mask =
      .ok (readPayload input opcode final payloadLen pos mask) := by
  have length : (maskPayload ((input.drop pos).take payloadLen) mask).length = payloadLen := by
    rw [length_maskPayload, List.length_take, List.length_drop]
    omega
  rw [readPayloadAt, closeRefusedAt_ok opcode mask present, ok_bind, readPayload, sizeAdd_of_le fits]
  by_cases one : opcode = opcodeClose && payloadLen = 1
  · simp [one]
  · by_cases code : opcode = opcodeClose && payloadLen ≥ 2 &&
        !closeCodeIsValid (maskedCloseCode input pos mask)
    · simp [one, code]
    · simp only [one, code, Bool.or_false, Bool.false_eq_true, if_false]
      rw [maskPayloadInto_ok mask (by rw [List.length_drop]; omega) (by simp), ok_bind,
        terminated length, ok_bind, add_ok fits, ok_bind,
        textValidAt_ok (by simp) length, ok_bind, List.take_left' length, Bool.not_not]
      split <;> rfl

theorem readBodyAt_ok (opcode : UInt8) (final : Bool) (small : pos ≤ 10) :
    readBodyAt input opcode final payloadLen pos =
      .ok (readBody input opcode final payloadLen pos) := by
  have room : 14 ≤ sizeMax := by decide
  rw [readBody_eq input opcode final payloadLen pos small, readBodyAt]
  split
  · rw [if_pos (by omega)]
  · rw [lacksAt_ok (by omega) (by omega), ok_bind]
    split
    · rename_i short
      rw [decide_eq_true_eq] at short
      rw [if_pos (by omega)]
    · rename_i key
      rw [decide_eq_true_eq] at key
      rw [copy_ok (by omega), ok_bind, add_ok (by omega), ok_bind,
        lacksAt_ok (by omega) (by omega), ok_bind, copiedKey]
      split
      · rename_i short
        rw [decide_eq_true_eq] at short
        rw [if_pos short]
      · rename_i whole
        rw [decide_eq_true_eq] at whole
        rw [if_neg whole, readPayloadAt_ok _ _ _ (by omega) (by omega)]

theorem parseFrameAt_ok (input : Bytes) (maxMessageSize : Nat) :
    parseFrameAt input maxMessageSize = .ok (parseFrame input maxMessageSize) := by
  rw [parseFrameAt, parseFrame]
  split
  · rfl
  · rename_i present
    rw [read_ok (by omega) 0, ok_bind, read_ok (by omega) 0, ok_bind]
    dsimp only
    split
    · rfl
    · split
      · rfl
      · rw [readLengthAt_ok, ok_bind]
        cases length : readLength input with
        | incomplete => rfl
        | invalid => rfl
        | ok payloadLen pos =>
            obtain ⟨-, small, -⟩ := readLength_pos (by omega) length
            dsimp only
            rw [readBodyAt_ok _ _ small]
            split
            · rfl
            · split <;> rfl

/-- The octets of the payload, unmasked if there is a key. -/
def unmasked (endian : Endian) (mask : Option MaskKey) (octets : Bytes) : Bytes :=
  match mask with
  | some mask => maskPayloadCopy endian octets mask
  | none => octets

theorem length_unmasked (endian : Endian) (mask : Option MaskKey) (octets : Bytes) :
    (unmasked endian mask octets).length = octets.length := by
  cases mask with
  | none => rfl
  | some mask => rw [unmasked, maskPayloadCopy_eq, length_maskPayload]

theorem unpackPayloadAt_ok (endian : Endian) (mask : Option MaskKey)
    (present : pos + payloadLen ≤ input.length) :
    unpackPayloadAt endian input mask payloadLen pos =
      .ok (unmasked endian mask ((input.drop pos).take payloadLen) ++ [0]) := by
  have length : (unmasked endian mask ((input.drop pos).take payloadLen)).length = payloadLen := by
    rw [length_unmasked, List.length_take, List.length_drop]
    omega
  cases mask with
  | some mask =>
      rw [unmasked, maskPayloadCopy_eq] at length ⊢
      rw [unpackPayloadAt]
      rw [maskPayloadCopyInto_ok endian mask (by rw [List.length_drop]; omega) (by simp), ok_bind,
        terminated length]
  | none =>
      unfold unmasked at length ⊢
      rw [unpackPayloadAt]
      rw [copy_ok present, ok_bind, write_ok (by simp [length]), ok_bind, List.take_zero,
        List.nil_append, Nat.zero_add, length, terminated length]

theorem unpackCloseAt_ok {payload : Bytes} (flags : Int) (bytesConsumed : Nat)
    (length : payload.length = payloadLen) :
    unpackCloseAt (payload ++ [0]) payloadLen flags bytesConsumed =
      .ok (if payloadLen ≥ 2 then
        if !isValidUtf8 (payload.drop 2) then .threw (.error "Invalid WebSocket close reason UTF-8")
        else .closeFrame ⟨closeCodeOf payload, payload.drop 2, flags, bytesConsumed⟩
      else .closeFrame ⟨closeNormal, [], flags, bytesConsumed⟩) := by
  unfold unpackCloseAt
  split
  · rename_i long
    rw [textValidAt_ok (fun _ => long) length, ok_bind, Bool.true_and, Bool.not_not]
    split
    · rfl
    · match payload, length with
      | first :: second :: reason, length =>
          rw [List.length_cons, List.length_cons] at length
          have rest : ((first :: second :: reason) ++ [0]).drop 2 = reason ++ [0] := rfl
          rw [read_ok (by simp) 0, ok_bind, read_ok (by simp) 0, ok_bind, sub_ok long, ok_bind,
            copy_ok (by simp; omega), ok_bind, rest, List.take_left' (by omega)]
          simp [closeCodeOf, bigEndian]
      | [_], length | [], length => simp at length; omega
  · rfl

theorem unpackBodyAt_ok (endian : Endian) (b0 b1 : UInt8) (mask : Option MaskKey)
    (small : pos ≤ 14) :
    unpackBodyAt endian input b0 b1 mask payloadLen pos =
      .ok (if sizeMax < pos + payloadLen ∨ input.length < pos + payloadLen then .null
      else (RawFrame.mk (b0 &&& 0x0f) (b0 &&& 0x80 ≠ 0) (unpackFlags b0 b1)
        (unmasked endian mask ((input.drop pos).take payloadLen))
        (sizeAdd pos payloadLen)).content) := by
  have room : 14 ≤ sizeMax := by decide
  unfold unpackBodyAt
  split
  · rw [if_pos (by omega)]
  · rw [lacksAt_ok (by omega) (by omega), ok_bind]
    split
    · rename_i short
      rw [decide_eq_true_eq] at short
      rw [if_pos short]
    · rename_i whole
      rw [decide_eq_true_eq] at whole
      have length : (unmasked endian mask ((input.drop pos).take payloadLen)).length = payloadLen := by
        rw [length_unmasked, List.length_take, List.length_drop]
        omega
      rw [if_neg whole, unpackPayloadAt_ok endian mask (by omega), add_ok (by omega),
        sizeAdd_of_le (by omega)]
      generalize unmasked endian mask ((input.drop pos).take payloadLen) = payload at length ⊢
      simp only [ok_bind, unpackCloseAt_ok _ _ length, RawFrame.content, length,
        textValidAt_ok (fun _ => Nat.zero_le _) length, List.take_left' length,
        List.drop_zero, Bool.not_not]
      cases MessageType.fromOpcode (b0 &&& 0x0f) <;> simp only [← apply_ite Except.ok]

theorem unpackAt_ok (endian : Endian) (input : Bytes) :
    unpackAt endian input = .ok (unpack endian input) := by
  have room : 14 ≤ sizeMax := by decide
  unfold unpackAt
  split
  · rename_i short
    rw [unpack, readFrame, if_pos short]
  · rename_i present
    rw [read_ok (by omega) 0, ok_bind, read_ok (by omega) 0, ok_bind, unpackLengthAt_ok, ok_bind]
    cases length : unpackLength input with
    | none => rw [unpack, readFrame, if_neg present, length]
    | some found =>
        obtain ⟨payloadLen, pos⟩ := found
        obtain ⟨-, small, -⟩ := unpackLength_pos (by omega) length
        rw [unpack, readFrame_eq endian (by omega) length]
        dsimp only
        by_cases masked : input.getD 1 0 &&& 0x80 ≠ 0
        · rw [if_pos masked, add_ok (by omega), ok_bind, payloadStart, if_pos masked]
          split
          · rw [if_pos (Or.inr (by omega))]
          · rw [copy_ok (by omega), ok_bind, ok_bind, copiedKey,
              unpackBodyAt_ok endian _ _ _ (by omega)]
            split
            · rfl
            · simp only [rawFrame, unmasked, masked, decide_true, if_true, ne_eq, not_false_eq_true]
        · rw [if_neg masked, payloadStart, if_neg masked, unpackBodyAt_ok endian _ _ _ (by omega)]
          split
          · rfl
          · simp only [rawFrame, unmasked, masked, decide_false, Bool.false_eq_true, if_false]

end

/-- The payload length that the octets in front of a buffer declare. -/
def declaredLength (input : Bytes) : Nat :=
  match (input.getD 1 0 &&& 0x7f).toNat with
  | 126 => bigEndian ((input.drop 2).take 2)
  | 127 => bigEndian ((input.drop 2).take 8)
  | len7 => len7

theorem bigEndian_two {input : Bytes} (present : 4 ≤ input.length) :
    bigEndian ((input.drop 2).take 2) = (input.getD 2 0).toNat <<< 8 ||| (input.getD 3 0).toNat := by
  match input, present with
  | _ :: _ :: b2 :: b3 :: rest, _ => exact bigEndian_pair b2 b3

theorem unpackLength_declared {input : Bytes} {payloadLen pos : Nat}
    (length : unpackLength input = some (payloadLen, pos)) : payloadLen = declaredLength input := by
  rw [unpackLength] at length
  rw [declaredLength]
  split at length
  · rename_i two
    split at length
    · cases length
    · rename_i present
      rw [two]
      injection length with same
      rw [← (Prod.mk.inj same).1]
      exact (bigEndian_two (by omega)).symm
  · rename_i notTwo
    split at length
    · rename_i eight
      split at length
      · cases length
      · rw [eight]
        injection length with same
        exact (Prod.mk.inj same).1.symm
    · rename_i notEight
      injection length with same
      rw [← (Prod.mk.inj same).1]
      split
      · contradiction
      · contradiction
      · rfl

/-- The server's parser refuses some lengths, and reads the others as `unpack` does. -/
theorem unpackLength_of_readLength {input : Bytes} {payloadLen pos : Nat}
    (length : readLength input = .ok payloadLen pos) : unpackLength input = some (payloadLen, pos) := by
  simp only [readLength] at length
  simp only [unpackLength]
  repeat' split at length
  all_goals simp_all

theorem readPayload_length {input payload : Bytes} {opcode opcode' : UInt8} {final final' : Bool}
    {payloadLen pos consumed : Nat} {mask : MaskKey} (present : pos + payloadLen ≤ input.length)
    (found : readPayload input opcode final payloadLen pos mask =
      .ok ⟨opcode', final', consumed, payload⟩) : payload.length = payloadLen := by
  simp only [readPayload] at found
  repeat' split at found
  all_goals simp only [reduceCtorEq, FrameResult.ok.injEq, ServerFrame.mk.injEq] at found
  rw [← found.2.2.2, length_maskPayload, List.length_take, List.length_drop]
  omega

theorem parseFrame_declared {input : Bytes} {maxMessageSize : Nat} {frame : ServerFrame}
    (found : parseFrame input maxMessageSize = .ok frame) :
    frame.payload.length = declaredLength input := by
  simp only [parseFrame] at found
  repeat' split at found
  all_goals try cases found
  rename_i present _ _ payloadLen pos length _ _
  obtain ⟨-, small, -⟩ := readLength_pos (by omega) length
  rw [readBody_eq _ _ _ _ _ small] at found
  split at found
  · cases found
  · rename_i whole
    rw [readPayload_length (by omega) found,
      unpackLength_declared (unpackLength_of_readLength length)]

theorem readFrame_declared {endian : Endian} {input : Bytes} {raw : RawFrame}
    (found : readFrame endian input = some raw) : raw.payload.length = declaredLength input := by
  obtain ⟨-, payloadLen, pos, length, -, whole, rfl⟩ := readFrame_some found
  rw [← unpackLength_declared length]
  unfold payloadStart at whole
  by_cases masked : input.getD 1 0 &&& 0x80 ≠ 0
  · rw [if_pos masked] at whole
    simp only [rawFrame, masked, decide_true, if_true, ne_eq, not_false_eq_true, maskPayloadCopy_eq,
      length_maskPayload, List.length_take, List.length_drop]
    omega
  · rw [if_neg masked] at whole
    simp only [rawFrame, masked, decide_false, Bool.false_eq_true, if_false, List.length_take,
      List.length_drop]
    omega

theorem content_of_frame {raw : RawFrame} {frame : Frame} (h : raw.content = .frame frame) :
    frame.payload = raw.payload ∧ frame.bytesConsumed = raw.bytesConsumed := by
  simp only [RawFrame.content] at h
  repeat' split at h
  all_goals cases h
  exact ⟨rfl, rfl⟩

theorem content_of_closeFrame {raw : RawFrame} {frame : CloseFrame}
    (h : raw.content = .closeFrame frame) :
    frame.bytesConsumed = raw.bytesConsumed ∧
      (frame.reason.length + 2 = raw.payload.length ∨
        frame.reason = [] ∧ raw.payload.length = 0) := by
  simp only [RawFrame.content] at h
  repeat' split at h
  all_goals cases h
  · refine ⟨rfl, Or.inl ?_⟩
    rw [List.length_drop]
    omega
  · rename_i notOne close short
    simp only [Bool.and_eq_true, decide_eq_true_eq, not_and] at notOne
    have other := notOne close
    exact ⟨rfl, Or.inr ⟨rfl, by omega⟩⟩

theorem unpack_content (endian : Endian) (input : Bytes) (found : unpack endian input ≠ .null) :
    ∃ raw, readFrame endian input = some raw ∧ unpack endian input = raw.content := by
  unfold unpack at found ⊢
  cases raw : readFrame endian input with
  | none =>
      rw [raw] at found
      exact absurd rfl found
  | some whole => exact ⟨whole, rfl, rfl⟩

/-- On memory in which every access and every sum is checked both parsers end without a fault,
    with the result of the unchecked ones; a frame that they return lies in the buffer and has
    the length that its header declares. -/
theorem frameParsers_inside (endian : Endian) (input : Bytes) (maxMessageSize : Nat) :
    parseFrameAt input maxMessageSize = .ok (parseFrame input maxMessageSize) ∧
      unpackAt endian input = .ok (unpack endian input) ∧
      (∀ frame, parseFrame input maxMessageSize = .ok frame →
        frame.bytesConsumed ≤ input.length ∧ frame.payload.length = declaredLength input) ∧
      (∀ frame, unpack endian input = .frame frame →
        frame.bytesConsumed ≤ input.length ∧ frame.payload.length = declaredLength input) ∧
      ∀ frame, unpack endian input = .closeFrame frame →
        frame.bytesConsumed ≤ input.length ∧
          (frame.reason.length + 2 = declaredLength input ∨
            frame.reason = [] ∧ declaredLength input = 0) := by
  refine ⟨parseFrameAt_ok input maxMessageSize, unpackAt_ok endian input, fun frame found =>
    ⟨(parseFrame_consumed found).2, parseFrame_declared found⟩, ?_, ?_⟩
  · intro frame found
    obtain ⟨raw, here, object⟩ := unpack_content endian input (by rw [found]; nofun)
    obtain ⟨payload, consumed⟩ := content_of_frame (object.symm.trans found)
    exact ⟨consumed ▸ (readFrame_consumed here).2, payload ▸ readFrame_declared here⟩
  · intro frame found
    obtain ⟨raw, here, object⟩ := unpack_content endian input (by rw [found]; nofun)
    obtain ⟨consumed, reason⟩ := content_of_closeFrame (object.symm.trans found)
    exact ⟨consumed ▸ (readFrame_consumed here).2, readFrame_declared here ▸ reason⟩

end PhpWebSocket
