import PhpWebSocket.RoundTrip

/-! # Encoders against the decoder

`encode`, `pack` and `unpack` each have a list of checks of their own. Here the lists are
compared: which strings of the encoders the decoder takes, and which objects of the
decoder the encoder takes back. Both hold but for Close frames, whose payload `encode` and
`pack` do not look at and whose code `unpack` does not look at, and for long control
frames of `encode`.
-/

namespace PhpWebSocket

open Lib

/-- The random octets are there if a frame with these flags needs them. -/
def Delivered (random : Except PhpError MaskKey) (flags : UInt8) : Prop :=
  flagSet flags flagMask = true → ∃ key, random = .ok key

/-- `unpack` has made an object. -/
def Unpacked.IsObject : Unpacked → Prop
  | .frame _ | .closeFrame _ => True
  | .null | .threw _ => False

/-! ## Packing -/

theorem packed_ok_iff (endian : Endian) (random : Except PhpError MaskKey) (payload : Bytes)
    (opcode flags : UInt8) :
    (∃ octets, packed endian random payload opcode flags = .ok octets) ↔ Delivered random flags := by
  cases random with
  | ok key =>
      refine ⟨fun _ _ => ⟨key, rfl⟩, fun _ => ⟨wireFrame key payload opcode flags, ?_⟩⟩
      simp only [packed, Except.toOption, packPayload_wireFrame]
  | error e =>
      cases masked : flagSet flags flagMask with
      | true => simp [packed, Except.toOption, packPayload, Delivered, masked]
      | false => simp [packed, packPayload, Delivered, masked]

theorem packed_wireFrame {endian : Endian} {random : Except PhpError MaskKey} {payload octets : Bytes}
    {opcode flags : UInt8} (h : packed endian random payload opcode flags = .ok octets) :
    ∃ key, octets = wireFrame key payload opcode flags := by
  unfold packed at h
  split at h
  · rename_i frame packs
    cases h
    exact exists_wireFrame packs
  · cases h
  · cases h

theorem unpack_packed_eq {endian : Endian} {random : Except PhpError MaskKey} {payload octets : Bytes}
    {opcode flags : UInt8} (small : payload.length < 2 ^ 63) (valid : opcodeIsValid opcode = true)
    (known : flags &&& flagsAll = flags)
    (h : packed endian random payload opcode flags = .ok octets) :
    unpack endian octets = RawFrame.content
      ⟨opcode, flagSet flags flagFin, wireFlags flags, payload, octets.length⟩ := by
  obtain ⟨key, rfl⟩ := packed_wireFrame h
  have found := readFrame_wireFrame endian key small valid known []
  rw [List.append_nil] at found
  rw [unpack, found]

theorem RawFrame.content_isObject_iff {raw : RawFrame} (valid : opcodeIsValid raw.opcode = true) :
    raw.content.IsObject ↔ ¬ Rejected raw.opcode raw.final raw.payload := by
  constructor
  · intro object rejected
    obtain ⟨e, threw⟩ := content_rejected valid rejected
    rw [threw] at object
    exact object
  · intro accepted
    by_cases close : raw.opcode = opcodeClose
    · rw [content_closeFrame close accepted]
      trivial
    · obtain ⟨type, -, object⟩ := content_frame valid close accepted
      rw [object]
      trivial

/-- A packed frame is decodable exactly if its content is not rejected, or if there is no
    such frame for want of a mask key. -/
theorem packed_decodable_iff {endian : Endian} {random : Except PhpError MaskKey} {payload : Bytes}
    {opcode flags : UInt8} (small : payload.length < 2 ^ 63) (valid : opcodeIsValid opcode = true)
    (known : flags &&& flagsAll = flags) :
    (∀ octets, packed endian random payload opcode flags = .ok octets →
        (unpack endian octets).IsObject) ↔
      (Delivered random flags → ¬ Rejected opcode (flagSet flags flagFin) payload) := by
  rw [← packed_ok_iff endian random payload opcode flags]
  constructor
  · rintro decodable ⟨octets, h⟩
    have object := decodable octets h
    rw [unpack_packed_eq small valid known h] at object
    exact (RawFrame.content_isObject_iff valid).mp object
  · intro accepted octets h
    rw [unpack_packed_eq small valid known h]
    exact (RawFrame.content_isObject_iff valid).mpr (accepted ⟨octets, h⟩)

/-! ## What the encoders do not check -/

/-- A Close payload the decoder takes. -/
def CloseContent (payload : Bytes) : Prop :=
  payload.length ≠ 1 ∧ isValidUtf8 (payload.drop 2) = true

instance (payload : Bytes) : Decidable (CloseContent payload) := inferInstanceAs (Decidable (_ ∧ _))

/-- `encode` leaves out the length of a control frame and the content of a Close frame. -/
theorem encode_decodable_iff (endian : Endian) (random : Except PhpError MaskKey) {payload : Bytes}
    (small : payload.length < 2 ^ 63) (type : Option MessageType) (masked : Bool) :
    (∀ octets, encode endian random payload type masked = .ok octets →
        (unpack endian octets).IsObject) ↔
      ((masked = true → ∃ key, random = .ok key) →
        (opcodeIsControl ((type.map MessageType.opcode).getD opcodeText) = true →
          payload.length ≤ 125) ∧
        ((type.map MessageType.opcode).getD opcodeText = opcodeClose → CloseContent payload)) := by
  have valid : opcodeIsValid ((type.map MessageType.opcode).getD opcodeText) = true := by
    cases type with
    | none => rfl
    | some type => cases type <;> rfl
  unfold encode
  generalize (type.map MessageType.opcode).getD opcodeText = opcode at valid ⊢
  by_cases broken : (decide (opcode = opcodeText) && !isValidUtf8 payload) = true
  · simp only [if_pos broken, reduceCtorEq, false_implies, implies_true, true_iff]
    simp only [Bool.and_eq_true, decide_eq_true_eq] at broken
    rw [broken.1]
    intro _
    exact ⟨fun control => absurd control (by decide), fun close => absurd close (by decide)⟩
  · have flags : ∀ flags, flags = (if masked then flagFin ||| flagMask else flagFin) →
        flags &&& flagsAll = flags ∧ flagSet flags flagFin = true ∧
          (Delivered random flags ↔ (masked = true → ∃ key, random = .ok key)) := by
      rintro flags rfl
      cases masked with
      | true =>
          have drawn : flagSet (flagFin ||| flagMask) flagMask = true := by decide
          exact ⟨by decide, by decide, by simp [Delivered, drawn]⟩
      | false =>
          have plain : flagSet flagFin flagMask = false := by decide
          exact ⟨by decide, by decide, by simp [Delivered, plain]⟩
    obtain ⟨known, final, delivered⟩ := flags _ rfl
    simp only [if_neg broken]
    rw [packed_decodable_iff small valid known, final, delivered]
    apply imp_congr_right
    intro _
    simp only [Bool.and_eq_true, decide_eq_true_eq, Bool.not_eq_true', not_and] at broken
    simp only [Rejected, CloseContent, reduceCtorEq, false_or, true_and, not_or, not_and, Nat.not_lt,
      Bool.not_eq_false]
    constructor
    · rintro ⟨control, close, -⟩
      exact ⟨control, close⟩
    · rintro ⟨control, close⟩
      exact ⟨control, close, fun text => Bool.eq_true_of_not_eq_false (broken text)⟩

theorem longOpcode_octet {opcode : Int} (valid : longOpcodeIsValid opcode = true) :
    ∃ octet : UInt8, opcodeIsValid octet = true ∧ opcode = octet.toNat ∧
      UInt8.ofNat opcode.toNat = octet := by
  simp only [longOpcodeIsValid, Bool.and_eq_true, decide_eq_true_eq] at valid
  obtain ⟨⟨low, high⟩, valid⟩ := valid
  refine ⟨_, valid, ?_, rfl⟩
  have small : opcode.toNat < 256 := by omega
  rw [UInt8.toNat_ofNat', Nat.mod_eq_of_lt small]
  omega

theorem longOpcodeIsControl_octet (octet : UInt8) :
    longOpcodeIsControl (octet.toNat : Int) = opcodeIsControl octet := by
  revert octet
  exact forall_octet (by decide +kernel)

theorem long_octet_inj {a b : UInt8} : (a.toNat : Int) = b.toNat ↔ a = b := by
  rw [Int.natCast_inj, UInt8.toNat_inj]

theorem flagsOctet_known (flags : Int) : flagsOctet flags &&& flagsAll = flagsOctet flags := by
  rw [flagsOctet, UInt8.and_assoc, UInt8.and_self]

/-- `pack` leaves out the content of a Close frame that it is given as a string or as a
    `Frame`. -/
theorem packChecked_decodable_iff (endian : Endian) (random : Except PhpError MaskKey)
    {payload : Bytes} (small : payload.length < 2 ^ 63) (opcode flags : Int) :
    (∀ octets, packChecked endian random payload opcode flags = .ok octets →
        (unpack endian octets).IsObject) ↔
      (Delivered random (flagsOctet flags) → opcode = opcodeClose.toNat →
        flagSet (flagsOctet flags) flagFin = true → payload.length ≤ 125 → CloseContent payload) := by
  have known := flagsOctet_known flags
  generalize atFlags : flagsOctet flags = octetFlags at known
  -- a check that fails leaves nothing to decode
  have refused : ∀ {e : PhpError} {p : Prop}, p → ((∀ octets, (Except.error e : Except PhpError Bytes) =
      .ok octets → (unpack endian octets).IsObject) ↔ p) :=
    fun holds => iff_of_true (fun _ same => by cases same) holds
  simp only [packChecked, atFlags]
  cases valid : longOpcodeIsValid opcode with
  | false =>
      apply refused
      intro _ close
      rw [close] at valid
      exact absurd valid (by decide)
  | true =>
      obtain ⟨octet, octetValid, rfl, same⟩ := longOpcode_octet valid
      rw [longOpcodeIsControl_octet, same]
      simp only [long_octet_inj, Bool.not_true, Bool.false_eq_true, if_false]
      have controlClose : octet = opcodeClose → opcodeIsControl octet = true := by
        rintro rfl
        rfl
      split
      · rename_i unfinished
        simp only [Bool.and_eq_true, Bool.not_eq_true'] at unfinished
        exact refused fun _ _ final => absurd final (by rw [unfinished.2]; decide)
      · rename_i finished
        split
        · rename_i long
          simp only [Bool.and_eq_true, decide_eq_true_eq] at long
          exact refused fun _ _ _ short => absurd short (by omega)
        · rename_i short
          split
          · rename_i broken
            simp only [Bool.and_eq_true, decide_eq_true_eq] at broken
            exact refused fun _ close => absurd (close.symm.trans broken.1.1) (by decide)
          · rename_i text
            simp only [Bool.and_eq_true, Bool.not_eq_true', not_and, Bool.not_eq_false,
              decide_eq_true_eq, Nat.not_lt, gt_iff_lt] at finished short text
            rw [packed_decodable_iff small octetValid known]
            apply imp_congr_right
            intro _
            constructor
            · intro accepted close _ _
              simp only [Rejected, not_or, not_and, Bool.not_eq_false] at accepted
              exact accepted.2.1 close
            · intro content rejected
              rcases rejected with ⟨control, open' | long⟩ | ⟨close, broken⟩ | ⟨isText, final, utf8⟩
              · rw [finished control] at open'
                cases open'
              · have := short control
                omega
              · have both := content close (finished (controlClose close)) (short (controlClose close))
                rcases broken with one | utf8
                · exact both.1 one
                · rw [both.2] at utf8
                  cases utf8
              · rw [text ⟨isText, final⟩] at utf8
                cases utf8

/-- What `encode` and `pack` return can be decoded exactly if, where there is a mask key to
    return it with, `encode` is not given a control payload of more than 125 octets, and
    neither is given a Close payload of one octet or with a reason that is not UTF-8. A
    `CloseFrame` can always be decoded. -/
theorem encoders_decodable_iff (endian : Endian) (random : Except PhpError MaskKey) :
    (∀ (payload : Bytes) (type : Option MessageType) (masked : Bool), payload.length < 2 ^ 63 →
      ((∀ octets, encode endian random payload type masked = .ok octets →
          (unpack endian octets).IsObject) ↔
        ((masked = true → ∃ key, random = .ok key) →
          (opcodeIsControl ((type.map MessageType.opcode).getD opcodeText) = true →
            payload.length ≤ 125) ∧
          ((type.map MessageType.opcode).getD opcodeText = opcodeClose → CloseContent payload)))) ∧
    (∀ (payload : Bytes) (opcode flags : Int), payload.length < 2 ^ 63 →
      ((∀ octets, pack endian random (.string payload) opcode flags = .ok octets →
          (unpack endian octets).IsObject) ↔
        (Delivered random (flagsOctet flags) → opcode = opcodeClose.toNat →
          flagSet (flagsOctet flags) flagFin = true → payload.length ≤ 125 →
          CloseContent payload))) ∧
    (∀ (frame : Frame) (opcode flags : Int), frame.payload.length < 2 ^ 63 →
      ((∀ octets, pack endian random (.frame frame) opcode flags = .ok octets →
          (unpack endian octets).IsObject) ↔
        (Delivered random (flagsOctet frame.flags) → frame.opcode = opcodeClose.toNat →
          flagSet (flagsOctet frame.flags) flagFin = true → frame.payload.length ≤ 125 →
          CloseContent frame.payload))) ∧
    ∀ (frame : CloseFrame) (opcode flags : Int) (octets : Bytes),
      pack endian random (.closeFrame frame) opcode flags = .ok octets →
        (unpack endian octets).IsObject := by
  refine ⟨fun payload type masked small => encode_decodable_iff endian random small type masked,
    fun payload opcode flags small => packChecked_decodable_iff endian random small opcode flags,
    fun frame _ _ small => packChecked_decodable_iff endian random small frame.opcode frame.flags,
    ?_⟩
  intro frame _ _ octets h
  simp only [pack] at h
  cases atPayload : closePayload frame.code frame.reason with
  | error e =>
      rw [atPayload] at h
      cases h
  | ok payload =>
      rw [atPayload] at h
      obtain ⟨content, short, -, reason⟩ := closePayload_ok atPayload
      have length := length_closePayload atPayload
      have small : payload.length < 2 ^ 63 := by omega
      refine (packChecked_decodable_iff endian random small _ _).mpr (fun _ _ _ _ => ⟨?_, ?_⟩) octets h
      · omega
      · rcases content with empty | ⟨-, -, utf8⟩
        · rw [empty]
          rfl
        · exact utf8

/-- A Pong with three octets is decodable, in either way of encoding it. -/
theorem encoders_decodable_iff_pong :
    (∀ octets, encode .big (.ok ⟨1, 2, 3, 4⟩) [1, 2, 3] (some .pong) true = .ok octets →
        (unpack .big octets).IsObject) ∧
      ∀ octets, pack .big (.ok ⟨1, 2, 3, 4⟩) (.string [1, 2, 3]) 10 1 = .ok octets →
        (unpack .big octets).IsObject := by
  obtain ⟨encodes, packs, -⟩ := encoders_decodable_iff .big (.ok ⟨1, 2, 3, 4⟩)
  exact ⟨(encodes [1, 2, 3] (some .pong) true (by decide)).mpr fun _ => ⟨by decide, by decide⟩,
    (packs [1, 2, 3] 10 1 (by decide)).mpr fun _ close => absurd close (by decide)⟩

/-- A Ping of 126 octets, and Close frames with one octet and with a broken reason. -/
theorem encoders_write_undecodable :
    (∃ octets, encode .little (.error .other) (List.replicate 126 0) (some .ping) false = .ok octets ∧
        unpack .little octets = .threw (.error "Invalid WebSocket control frame")) ∧
      (∃ octets, encode .little (.error .other) [0x03, 0xe8, 0xff] (some .close) false = .ok octets ∧
        unpack .little octets = .threw (.error "Invalid WebSocket close reason UTF-8")) ∧
      ∃ octets, pack .little (.error .other) (.string [0x00]) 8 1 = .ok octets ∧
        unpack .little octets = .threw (.error "Invalid WebSocket close frame") := by
  refine ⟨⟨0x89 :: 126 :: 0 :: 126 :: List.replicate 126 0, ?_, ?_⟩,
    ⟨[0x88, 0x03, 0x03, 0xe8, 0xff], ?_, ?_⟩, ⟨[0x88, 0x01, 0x00], ?_, ?_⟩⟩
  all_goals decide +kernel

/-! ## What the decoder does not check -/

/-- The object as an argument of `pack`. -/
def Unpacked.asData : Unpacked → Option PackData
  | .frame decoded => some (.frame decoded)
  | .closeFrame decoded => some (.closeFrame decoded)
  | .null | .threw _ => none

/-- The object without its `bytesConsumed`. -/
def Unpacked.fields : Unpacked → Unpacked
  | .frame decoded => .frame { decoded with bytesConsumed := 0 }
  | .closeFrame decoded => .closeFrame { decoded with bytesConsumed := 0 }
  | other => other

theorem unpackFlags_known (b0 b1 : UInt8) :
    unpackFlags b0 b1 &&& flagsAll = unpackFlags b0 b1 ∧
      wireFlags (unpackFlags b0 b1) = unpackFlags b0 b1 ∧
      flagSet (unpackFlags b0 b1) flagFin = decide (b0 &&& 0x80 ≠ 0) ∧
      flagsOctet (unpackFlags b0 b1).toNat = unpackFlags b0 b1 := by
  have cases : ∀ masked : Bool, ∀ b0 : UInt8,
      let flags := unpackFlags b0 (if masked then 0x80 else 0)
      flags &&& flagsAll = flags ∧ wireFlags flags = flags ∧
        flagSet flags flagFin = decide (b0 &&& 0x80 ≠ 0) ∧ flagsOctet flags.toNat = flags := by
    intro masked
    cases masked <;> exact forall_octet (by decide +kernel)
  have same : unpackFlags b0 b1 =
      unpackFlags b0 (if decide (b1 &&& 0x80 ≠ 0) = true then 0x80 else 0) := by
    by_cases masked : b1 &&& 0x80 = 0
    · simp [unpackFlags, masked]
    · simp [unpackFlags, masked]
  rw [same]
  exact cases _ b0

/-- What is known of a raw frame before its content is checked. -/
structure RawFrame.Plain (raw : RawFrame) : Prop where
  known : raw.flags &&& flagsAll = raw.flags
  wire : wireFlags raw.flags = raw.flags
  final : flagSet raw.flags flagFin = raw.final
  octet : flagsOctet raw.flags.toNat = raw.flags

theorem readFrame_plain {endian : Endian} {input : Bytes} {raw : RawFrame}
    (found : readFrame endian input = some raw) : raw.Plain := by
  obtain ⟨-, payloadLen, pos, -, -, -, rfl⟩ := readFrame_some found
  obtain ⟨known, wire, final, octet⟩ := unpackFlags_known (input.getD 0 0) (input.getD 1 0)
  exact ⟨known, wire, final, octet⟩

theorem length_payload_le {endian : Endian} {input : Bytes} {raw : RawFrame}
    (found : readFrame endian input = some raw) : raw.payload.length ≤ input.length := by
  obtain ⟨-, payloadLen, pos, -, -, -, rfl⟩ := readFrame_some found
  simp only [rawFrame, maskPayloadCopy_eq]
  split
  · rw [length_maskPayload, List.length_take, List.length_drop]
    omega
  · rw [List.length_take, List.length_drop]
    omega

theorem RawFrame.content_object {raw : RawFrame} (object : raw.content.IsObject) :
    opcodeIsValid raw.opcode = true ∧ ¬ Rejected raw.opcode raw.final raw.payload := by
  have valid : opcodeIsValid raw.opcode = true := by
    by_contra unknown
    rw [RawFrame.content, if_pos (by simpa using unknown)] at object
    exact object
  exact ⟨valid, (content_isObject_iff valid).mp object⟩

/-- The code of a Close frame, if it has one, is valid. -/
def RawFrame.CodeValid (raw : RawFrame) : Prop :=
  raw.opcode = opcodeClose → 2 ≤ raw.payload.length →
    closeCodeIsValid (closeCodeOf raw.payload) = true

theorem RawFrame.content_fields (raw : RawFrame) (n : Nat) :
    (RawFrame.content { raw with bytesConsumed := n }).fields = raw.content.fields := by
  simp only [content]
  repeat' split
  all_goals rfl

theorem longOpcode_valid (octet : UInt8) : opcodeIsValid octet = true →
    longOpcodeIsValid (octet.toNat : Int) = true ∧ UInt8.ofNat (octet.toNat : Int).toNat = octet := by
  revert octet
  exact forall_octet (by decide +kernel)

theorem packChecked_eq {endian : Endian} {random : Except PhpError MaskKey} {payload : Bytes}
    {opcode flags : UInt8} {long : Int} (octet : flagsOctet long = flags)
    (valid : opcodeIsValid opcode = true)
    (accepted : ¬ Rejected opcode (flagSet flags flagFin) payload) :
    packChecked endian random payload opcode.toNat long = packed endian random payload opcode flags := by
  obtain ⟨known, same⟩ := longOpcode_valid opcode valid
  simp only [Rejected, not_or, not_and, Bool.not_eq_false, Nat.not_lt] at accepted
  obtain ⟨control, -, text⟩ := accepted
  simp only [packChecked, octet, known, same, longOpcodeIsControl_octet, long_octet_inj, Bool.not_true,
    Bool.false_eq_true, if_false]
  rw [if_neg, if_neg, if_neg]
  · simp only [Bool.and_eq_true, decide_eq_true_eq, Bool.not_eq_true', not_and, Bool.not_eq_false]
    intro both
    exact text both.1 both.2
  · simp only [Bool.and_eq_true, decide_eq_true_eq, not_and, Nat.not_lt, gt_iff_lt]
    intro isControl
    exact (control isControl).2
  · simp only [Bool.and_eq_true, Bool.not_eq_true', not_and, Bool.not_eq_false]
    intro isControl
    exact (control isControl).1

theorem repack_frame {endian : Endian} {random : Except PhpError MaskKey} {raw : RawFrame}
    (plain : raw.Plain) (small : raw.payload.length < 2 ^ 63) (valid : opcodeIsValid raw.opcode = true)
    (accepted : ¬ Rejected raw.opcode raw.final raw.payload) :
    packChecked endian random raw.payload raw.opcode.toNat raw.flags.toNat =
        packed endian random raw.payload raw.opcode raw.flags ∧
      ∀ octets, packed endian random raw.payload raw.opcode raw.flags = .ok octets →
        (unpack endian octets).fields = raw.content.fields := by
  refine ⟨packChecked_eq plain.octet valid (by rw [plain.final]; exact accepted), ?_⟩
  intro octets h
  rw [unpack_packed_eq small valid plain.known h, plain.final, plain.wire]
  exact raw.content_fields octets.length

theorem repack_closeFrame {endian : Endian} {random : Except PhpError MaskKey} {raw : RawFrame}
    (plain : raw.Plain) (valid : raw.CodeValid)
    (accepted : ¬ Rejected raw.opcode raw.final raw.payload) (close : raw.opcode = opcodeClose) :
    ∃ payload, closePayload (if raw.payload = [] then closeNormal else closeCodeOf raw.payload)
        (raw.payload.drop 2) = .ok payload ∧
      packChecked endian random payload opcodeClose.toNat raw.flags.toNat =
        packed endian random payload opcodeClose raw.flags ∧
      ∀ octets, packed endian random payload opcodeClose raw.flags = .ok octets →
        (unpack endian octets).fields = raw.content.fields := by
  have object := RawFrame.content_closeFrame close accepted
  simp only [Rejected, not_or, not_and, Bool.not_eq_false, Nat.not_lt] at accepted
  obtain ⟨control, content, -⟩ := accepted
  obtain ⟨final, short⟩ := control (by rw [close]; rfl)
  obtain ⟨notOne, utf8⟩ := content close
  have code : closeCodeIsValid
      (if raw.payload = [] then closeNormal else closeCodeOf raw.payload) = true := by
    split
    · rfl
    · rename_i some
      have present := List.length_pos_iff.mpr some
      exact valid close (by omega)
  generalize (if raw.payload = [] then closeNormal else closeCodeOf raw.payload) = atCode at code object ⊢
  have reason : ¬ (raw.payload.drop 2).length > closeReasonMaxLen := by
    simp only [List.length_drop, closeReasonMaxLen]
    omega
  obtain ⟨payload, ok⟩ : ∃ payload, closePayload atCode (raw.payload.drop 2) = .ok payload := by
    simp only [closePayload, closeArgumentError, code, utf8, Bool.not_true, Bool.false_eq_true,
      if_false, if_neg reason]
    exact ⟨_, rfl⟩
  obtain ⟨-, within, read, rest⟩ := closePayload_ok ok
  have length := length_closePayload ok
  have taken : ¬ Rejected opcodeClose (flagSet raw.flags flagFin) payload := by
    rw [plain.final, final]
    rintro (⟨-, unfinished | long⟩ | ⟨-, one | broken⟩ | ⟨text, -⟩)
    · cases unfinished
    · omega
    · omega
    · rw [rest, utf8] at broken
      cases broken
    · exact absurd text (by decide)
  refine ⟨payload, ok, packChecked_eq plain.octet rfl taken, ?_⟩
  intro octets h
  have some : payload ≠ [] := List.ne_nil_of_length_pos (by omega)
  rw [unpack_packed_eq (by omega) rfl plain.known h, RawFrame.content_closeFrame rfl taken, object,
    plain.wire, if_neg some, read, rest]
  rfl

theorem RawFrame.codeValid_of_closePayload {raw : RawFrame} {payload : Bytes}
    (ok : closePayload (if raw.payload = [] then closeNormal else closeCodeOf raw.payload)
      (raw.payload.drop 2) = .ok payload) : raw.CodeValid := by
  intro _ long
  obtain ⟨content, -, read, -⟩ := closePayload_ok ok
  have length := length_closePayload ok
  have some : raw.payload ≠ [] := List.ne_nil_of_length_pos (by omega)
  rw [if_neg some] at read
  rcases content with empty | ⟨-, accepted, -⟩
  · rw [empty, List.length_nil] at length
    omega
  · rw [← read]
    exact accepted

/-- The object of a Close frame can be packed again exactly if its code is valid, and there
    is a mask key where one is asked for. -/
theorem RawFrame.closeFrame_repackable_iff {endian : Endian} {random : Except PhpError MaskKey}
    {raw : RawFrame} {data : PackData} {opcode flags : Int} (plain : raw.Plain)
    (accepted : ¬ Rejected raw.opcode raw.final raw.payload) (close : raw.opcode = opcodeClose)
    (object : raw.content.asData = some data) :
    (∃ octets, pack endian random data opcode flags = .ok octets ∧
        (unpack endian octets).fields = raw.content.fields) ↔
      Delivered random raw.flags ∧ raw.CodeValid := by
  rw [RawFrame.content_closeFrame close accepted] at object
  cases object
  constructor
  · rintro ⟨octets, h, -⟩
    simp only [pack] at h
    cases atPayload : closePayload (if raw.payload = [] then closeNormal else closeCodeOf raw.payload)
        (raw.payload.drop 2) with
    | error e =>
        rw [atPayload] at h
        cases h
    | ok payload =>
        have code := RawFrame.codeValid_of_closePayload atPayload
        obtain ⟨same, ok, packs, -⟩ := @repack_closeFrame endian random raw plain code accepted close
        rw [atPayload] at ok h
        cases ok
        dsimp only at h
        rw [packs] at h
        exact ⟨(packed_ok_iff endian random payload opcodeClose raw.flags).mp ⟨octets, h⟩, code⟩
  · rintro ⟨delivered, code⟩
    obtain ⟨payload, ok, same, equal⟩ :=
      @repack_closeFrame endian random raw plain code accepted close
    obtain ⟨octets, h⟩ := (packed_ok_iff endian random payload opcodeClose raw.flags).mpr delivered
    refine ⟨octets, ?_, equal octets h⟩
    simp only [pack, ok, same]
    exact h

/-- The object of any other frame can be packed again exactly if there is a mask key, where
    one is asked for. -/
theorem RawFrame.frame_repackable_iff {endian : Endian} {random : Except PhpError MaskKey}
    {raw : RawFrame} {data : PackData} {opcode flags : Int} (plain : raw.Plain)
    (small : raw.payload.length < 2 ^ 63) (valid : opcodeIsValid raw.opcode = true)
    (accepted : ¬ Rejected raw.opcode raw.final raw.payload) (close : raw.opcode ≠ opcodeClose)
    (object : raw.content.asData = some data) :
    (∃ octets, pack endian random data opcode flags = .ok octets ∧
        (unpack endian octets).fields = raw.content.fields) ↔
      Delivered random raw.flags ∧ raw.CodeValid := by
  obtain ⟨type, -, atContent⟩ := RawFrame.content_frame valid close accepted
  rw [atContent] at object
  cases object
  obtain ⟨same, equal⟩ := @repack_frame endian random raw plain small valid accepted
  simp only [pack, same]
  rw [← packed_ok_iff endian random raw.payload raw.opcode raw.flags]
  constructor
  · rintro ⟨octets, h, -⟩
    exact ⟨⟨octets, h⟩, fun isClose => absurd isClose close⟩
  · rintro ⟨⟨octets, h⟩, -⟩
    exact ⟨octets, h, equal octets h⟩

/-- An object of `unpack` can be packed again, and unpacked to an equal object, exactly if
    there is a mask key, where its flags ask for one, and it is not made of a Close frame
    whose code is invalid. -/
theorem unpacked_repackable_iff (endian : Endian) (random : Except PhpError MaskKey) (buffer : Bytes)
    (data : PackData) (opcode flags : Int) (small : buffer.length < 2 ^ 63)
    (object : (unpack endian buffer).asData = some data) :
    (∃ octets, pack endian random data opcode flags = .ok octets ∧
        (unpack endian octets).fields = (unpack endian buffer).fields) ↔
      ∀ raw, readFrame endian buffer = some raw → Delivered random raw.flags ∧ raw.CodeValid := by
  cases found : readFrame endian buffer with
  | none =>
      rw [unpack, found] at object
      cases object
  | some raw =>
      have plain := readFrame_plain found
      have short := length_payload_le found
      have atBuffer : unpack endian buffer = raw.content := by rw [unpack, found]
      rw [atBuffer] at object ⊢
      have made : raw.content.IsObject := by
        cases atContent : raw.content with
        | null | threw =>
            rw [atContent] at object
            cases object
        | frame | closeFrame => trivial
      obtain ⟨valid, accepted⟩ := RawFrame.content_object made
      simp only [Option.some.injEq, forall_eq']
      by_cases close : raw.opcode = opcodeClose
      · exact RawFrame.closeFrame_repackable_iff plain accepted close object
      · exact RawFrame.frame_repackable_iff plain (by omega) valid accepted close object

/-- A masked Text frame with a length in the eight-octet form. -/
theorem unpacked_repackable_iff_long :
    let buffer : Bytes := [0x81, 0xff, 0, 0, 0, 0, 0, 0, 0, 1, 1, 2, 3, 4, 0x60]
    ∃ octets, pack .little (.ok ⟨9, 9, 9, 9⟩) (.frame ⟨.text, 1, 0x21, [0x61], true, 15⟩) 1 1 =
        .ok octets ∧
      (unpack .little octets).fields = (unpack .little buffer).fields := by
  intro buffer
  apply (unpacked_repackable_iff .little (.ok ⟨9, 9, 9, 9⟩) buffer
    (.frame ⟨.text, 1, 0x21, [0x61], true, 15⟩) 1 1 (by decide) (by decide +kernel)).mpr
  intro raw found
  have same : readFrame .little buffer = some ⟨1, true, 0x21, [0x61], 15⟩ := by decide +kernel
  rw [same] at found
  cases found
  exact ⟨fun _ => ⟨_, rfl⟩, fun close => absurd close (by decide)⟩

/-- A Close frame with the code 1005 is unpacked, and cannot be packed again. -/
theorem unpacked_close_not_repackable :
    (unpack .little [0x88, 0x02, 0x03, 0xed]).asData = some (.closeFrame ⟨1005, [], 1, 4⟩) ∧
      pack .little (.ok ⟨9, 9, 9, 9⟩) (.closeFrame ⟨1005, [], 1, 4⟩) 1 1 =
        .error (.argumentValueError 1 "must be a valid WebSocket close code") := by
  exact ⟨by decide +kernel, by decide +kernel⟩

end PhpWebSocket
