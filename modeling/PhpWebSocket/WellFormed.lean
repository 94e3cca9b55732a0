import PhpWebSocket.Outbound

/-! # The frames of the server

What a peer may rely on in a frame of the server. The header is the encoder's and is
always right; what the payload must be is left to the callers of `send_frame`, and each
of them has checked it but one: `Connection::send` looks at no Close payload.
-/

namespace PhpWebSocket

open Lib

/-- A frame on the wire as the protocol wants it from a server. -/
structure WellFormed (frame payload : Bytes) (opcode : UInt8) : Prop where
  fin : frame.getD 0 0 &&& 0x80 ≠ 0
  noRsv : frame.getD 0 0 &&& 0x70 = 0
  lowBits : frame.getD 0 0 &&& 0x0f = opcode
  valid : opcodeIsValid opcode
  unmasked : frame.getD 1 0 &&& 0x80 = 0
  short : payload.length < 126 →
    (frame.getD 1 0 &&& 0x7f).toNat = payload.length ∧ frame.drop 2 = payload
  middle : 126 ≤ payload.length → payload.length ≤ 0xffff →
    (frame.getD 1 0 &&& 0x7f).toNat = 126 ∧
      bigEndian ((frame.drop 2).take 2) = payload.length ∧ frame.drop 4 = payload
  long : 0xffff < payload.length →
    (frame.getD 1 0 &&& 0x7f).toNat = 127 ∧
      bigEndian ((frame.drop 2).take 8) = payload.length ∧ frame.drop 10 = payload
  control : opcodeIsControl opcode → payload.length ≤ 125
  text : opcode = opcodeText → isValidUtf8 payload
  close : opcode = opcodeClose → ClosePayload payload

/-- What a caller of `send_frame` has to see to. -/
structure Proper (payload : Bytes) (opcode : UInt8) : Prop where
  valid : opcodeIsValid opcode
  control : opcodeIsControl opcode → payload.length ≤ 125
  text : opcode = opcodeText → isValidUtf8 payload
  close : opcode = opcodeClose → ClosePayload payload
  small : payload.length < 2 ^ 63

/-! ## The header -/

private theorem serverOctet (opcode : UInt8) : opcodeIsValid opcode →
    firstOctet opcode flagFin &&& 0x80 ≠ 0 ∧ firstOctet opcode flagFin &&& 0x70 = 0 ∧
      firstOctet opcode flagFin &&& 0x0f = opcode := by
  revert opcode
  exact forall_octet (by decide +kernel)

private theorem plain_length (b : UInt8) : b.toNat < 128 → (0 ||| b) &&& 0x80 = 0 ∧
    ((0 ||| b) &&& 0x7f).toNat = b.toNat := by
  revert b
  exact forall_octet (by decide +kernel)

/-- The encoder writes a well-formed frame around a proper payload. -/
theorem wellFormed_packed {endian : Endian} {random : Option MaskKey} {payload frame : Bytes}
    {opcode : UInt8} (proper : Proper payload opcode)
    (packed : packPayload endian random payload opcode flagFin = some frame) :
    WellFormed frame payload opcode := by
  have plain : frame = firstOctet opcode flagFin :: (lengthField false payload.length ++ payload) := by
    have noMask : flagSet flagFin flagMask = false := rfl
    simp only [packPayload, noMask, Bool.false_eq_true, if_false, Option.some.injEq] at packed
    rw [← packed]
    rfl
  obtain ⟨fin, noRsv, atOpcode⟩ := serverOctet opcode proper.valid
  subst plain
  rcases Nat.lt_or_ge payload.length 126 with short | large
  · have value : (UInt8.ofNat payload.length).toNat = payload.length := by simp; omega
    obtain ⟨unmasked, len7⟩ := plain_length (UInt8.ofNat payload.length) (by omega)
    have field : lengthField false payload.length = [0 ||| UInt8.ofNat payload.length] := by
      simp [lengthField, short]
    rw [field]
    refine ⟨fin, noRsv, atOpcode, proper.valid, unmasked, fun _ => ⟨len7.trans value, rfl⟩,
      fun _ _ => by omega, fun _ => by omega, proper.control, proper.text, proper.close⟩
  · rcases Nat.lt_or_ge 0xffff payload.length with wide | narrow
    · have field : lengthField false payload.length = (0 ||| 127) :: toOctets 8 payload.length := by
        simp [lengthField, Nat.not_le.mpr wide, show ¬ payload.length < 126 by omega]
      have small := proper.small
      have read : bigEndian (toOctets 8 payload.length) = payload.length :=
        bigEndian_toOctets_of_lt (by omega)
      rw [field]
      refine ⟨fin, noRsv, atOpcode, proper.valid, show ((0 : UInt8) ||| 127) &&& 0x80 = 0 by decide,
        fun _ => by omega, fun _ _ => by omega, fun _ => ⟨?_, ?_, rfl⟩, proper.control, proper.text,
        proper.close⟩
      · exact (show (((0 : UInt8) ||| 127) &&& 0x7f).toNat = 127 by decide)
      · exact read
    · have field : lengthField false payload.length = (0 ||| 126) :: toOctets 2 payload.length := by
        simp [lengthField, toOctets, narrow, Nat.not_lt.mpr large]
      have read : bigEndian (toOctets 2 payload.length) = payload.length :=
        bigEndian_toOctets_of_lt (by omega)
      rw [field]
      refine ⟨fin, noRsv, atOpcode, proper.valid, show ((0 : UInt8) ||| 126) &&& 0x80 = 0 by decide,
        fun _ => by omega, fun _ _ => ⟨?_, ?_, rfl⟩, fun _ => by omega, proper.control, proper.text,
        proper.close⟩
      · exact (show (((0 : UInt8) ||| 126) &&& 0x7f).toNat = 126 by decide)
      · exact read

/-! ## The payloads -/

/-- Every frame of a log was proper, and the queue never takes a frame of 2^63 octets. -/
structure Emits (life : Life) : Prop where
  limit : life.conn.maxQueuedBytes < 2 ^ 63
  proper : ∀ {i source opcode payload}, .frame i source opcode payload ∈ life.log →
    Proper payload opcode

/-- The Close payloads that `Connection::send` was given were Close payloads. -/
def ClosesChecked (i : ConnId) (log : Trace) : Prop :=
  ∀ payload, .submit i opcodeClose payload ∈ log → ClosePayload payload

/-- A connection that emits proper frames, as long as the user submits proper Close
    payloads. -/
def EmitsIfChecked (i : ConnId) (life : Life) : Prop := ClosesChecked i life.log → Emits life

theorem length_serverFrame_le {payload : Bytes} {opcode : UInt8} :
    payload.length ≤ (serverFrame payload opcode).length := by
  simp only [serverFrame, List.length_cons, List.length_append]
  omega

theorem Emits.start : Emits ⟨{}, []⟩ := ⟨by decide, by simp⟩

theorem Emits.silent {c c' : Connection} {log more : Trace} (emits : Emits ⟨c, log⟩)
    (limit : c'.maxQueuedBytes = c.maxQueuedBytes)
    (none : ∀ i source opcode payload, .frame i source opcode payload ∉ more) :
    Emits ⟨c', log ++ more⟩ := by
  refine ⟨?_, fun {i source opcode payload} mem => ?_⟩
  · change c'.maxQueuedBytes < 2 ^ 63
    rw [limit]
    exact emits.limit
  · exact emits.proper ((List.mem_append.mp mem).resolve_right (none i source opcode payload))

theorem Emits.snoc {c c' : Connection} {log : Trace} {i : ConnId} {source : FrameSource}
    {opcode : UInt8} {payload : Bytes} (emits : Emits ⟨c, log⟩)
    (limit : c'.maxQueuedBytes = c.maxQueuedBytes) (proper : Proper payload opcode) :
    Emits ⟨c', log ++ [.frame i source opcode payload]⟩ := by
  refine ⟨?_, fun mem => ?_⟩
  · change c'.maxQueuedBytes < 2 ^ 63
    rw [limit]
    exact emits.limit
  · rcases List.mem_append.mp mem with old | new
    · exact emits.proper old
    · cases List.mem_singleton.mp new
      exact proper

theorem Submission.proper {opcode : UInt8} {payload : Bytes} (submission : Submission opcode payload)
    (close : opcode = opcodeClose → ClosePayload payload) (small : payload.length < 2 ^ 63) :
    Proper payload opcode := by
  refine ⟨?_, submission.control, submission.text, close, small⟩
  rcases submission.type with rfl | rfl | rfl | rfl | rfl <;> decide

/-- Every source of frames sees to it that they are proper, `Connection::send` with a
    Close excepted. -/
theorem Life.Step.emits {server : Server} {i : ConnId} {quiet listed : Prop} {a b : Life}
    (step : Life.Step server i quiet listed a b) (before : EmitsIfChecked i a) :
    EmitsIfChecked i b := by
  intro checked
  have wasChecked : ClosesChecked i a.log := by
    obtain ⟨more, grown⟩ := step.prefix_of
    intro payload mem
    exact checked payload (by rw [← grown]; exact List.mem_append_left _ mem)
  have emits := before wasChecked
  cases step with
  | create => exact ⟨(Options.maxQueuedBytes_bounds server.options).2, by simp⟩
  | yield yields =>
      have same : Emits ⟨_, _ ++ []⟩ := emits.silent yields.maxQueuedBytes (by simp)
      rwa [List.append_nil] at same
  | accepted | submit | parsed | ask | approve | deliver | notify | reject =>
      exact emits.silent rfl (by simp)
  | @upgrade c log subprotocol left isOpen fresh parsed approved defer opened called =>
      rw [List.append_assoc]
      exact emits.silent rfl (by cases opened <;> simp)
  | @send c c' log source payload opcode offered reading fits yields =>
      have small : payload.length < 2 ^ 63 :=
        Nat.lt_of_le_of_lt (Nat.le_trans length_serverFrame_le fits) emits.limit
      apply emits.snoc yields.maxQueuedBytes
      cases source with
      | send => exact offered.1.proper (fun close => wasChecked payload (close ▸ offered.2)) small
      | pong =>
          obtain ⟨rfl, short⟩ := offered
          exact ⟨by decide, fun _ => short, fun h => absurd h (by decide),
            fun h => absurd h (by decide), small⟩
      | heartbeat =>
          obtain ⟨rfl, rfl⟩ := offered
          exact ⟨by decide, by decide, by decide, by decide, by decide⟩
      | close | echo | server => exact offered.elim
  | @bye c c' log source payload own valid short reading fits yields closing =>
      refine emits.snoc yields.maxQueuedBytes ⟨by decide, fun _ => short, fun h => absurd h (by decide),
        fun _ => valid, ?_⟩
      omega

/-- The octets of every frame that `send_frame` accepts are well formed, if every payload that
    `Connection::send` was given for a Close is one a Close may carry; and it is these octets
    that the socket takes and the queue holds. -/
theorem frames_well_formed (server : Server) (env : Env) (waits : List WaitResult) (i : ConnId) :
    let w := ((World.start env).runtimeRun server waits).world
    (∀ payload, .submit i opcodeClose payload ∈ w.trace.of i → ClosePayload payload) →
      (∀ frame ∈ w.trace.sent i, WellFormed frame.octets frame.payload frame.opcode) ∧
      (env.Sane →
        ((w.conn i).isOpen = true →
          (w.conn i).wire ++ unsent (w.conn i).writeQueue (w.conn i).writeQueueOffset =
            ((w.trace.sent i).map SentFrame.octets).flatten) ∧
        Front (w.conn i).maxQueuedBytes (w.trace.sent i) (w.conn i).wire) := by
  intro w checked
  have emits : EmitsIfChecked i (w.toHub.life i) :=
    run_invariant (fun _ => Emits.start) (fun step before => step.emits before) env waits
  refine ⟨?_, fun sane => ?_⟩
  · intro frame mem
    obtain ⟨source, logged⟩ := mem_sent mem
    exact wellFormed_packed ((emits checked).proper logged)
      (packPayload_server frame.payload frame.opcode)
  · have delivered := (Streaming.run server waits sane).delivered i
    exact ⟨fun isOpen => (delivered.live isOpen).carries.stream, delivered.front⟩

/-- `Connection::send` is called. -/
def Event.submits : Event → Bool
  | .submit _ _ _ => true
  | _ => false

/-- The Pong that answers a Ping of one octet. -/
theorem frames_well_formed_pong :
    let server : Server := { options := .array fun _ => none, lib := sampleLib }
    let ping : Chunk := ⟨[0x89, 0x81, 1, 2, 3, 4, 0x41], by decide, by decide⟩
    let env : Env :=
      { accepts := [.client 5 none], recvs := [.data sampleRequestChunk, .data ping] }
    let w := ((World.start env).runtimeRun server [.ready 3, .ready 5]).world
    (w.conn 0).wire = [0x8a, 0x01, 0x40] ∧
      (w.conn 0).wire = (⟨opcodePong, [0x40]⟩ : SentFrame).octets ∧
      WellFormed (w.conn 0).wire [0x40] opcodePong := by
  intro server ping env
  have sent : ((World.start env).runtimeRun server [.ready 3, .ready 5]).world.trace.sent 0 =
      [⟨opcodePong, [0x40]⟩] := by decide +kernel
  have nothing : (((World.start env).runtimeRun server [.ready 3, .ready 5]).world.trace.of 0).any
      Event.submits = false := by decide +kernel
  have idle : (((World.start env).runtimeRun server [.ready 3, .ready 5]).world.conn 0).writeQueue =
      [] := by decide +kernel
  obtain ⟨formed, streams⟩ := frames_well_formed server env [.ready 3, .ready 5] 0
    fun payload mem => absurd rfl (List.any_eq_false.mp nothing _ mem)
  rw [sent] at formed streams
  have stream := (streams ⟨by decide, by decide, by decide⟩).1 (by decide +kernel)
  rw [idle, unsent_nil, List.append_nil] at stream
  have pong := formed _ (List.mem_singleton_self _)
  have octets : (⟨opcodePong, [0x40]⟩ : SentFrame).octets = [0x8a, 0x01, 0x40] := by decide
  refine ⟨stream.trans octets, stream, ?_⟩
  rw [stream]
  exact pong

/-- A Close frame of one octet goes out, from `Connection::send`. -/
theorem malformed_close_submitted :
    let greet : ConnId → Script := fun i =>
      .call (.send i [1] (some .close)) fun _ => .finish (.returned .null)
    let server : Server :=
      { options := .array fun _ => none
        handlers := fun _ => { onOpen := some (.takesConnection greet) }
        lib := sampleLib }
    let env : Env := { accepts := [.client 5 none], recvs := [.data sampleRequestChunk] }
    let w := ((World.start env).runtimeRun server [.ready 3]).world
    w.trace.sent 0 = [⟨opcodeClose, [1]⟩] ∧
      (w.conn 0).wire = (⟨opcodeClose, [1]⟩ : SentFrame).octets ∧
      (w.conn 0).wire = [0x88, 0x01, 1] ∧ ¬ WellFormed (w.conn 0).wire [1] opcodeClose := by
  intro greet server env
  have wire : (((World.start env).runtimeRun server [.ready 3]).world.conn 0).wire =
      [0x88, 0x01, 1] := by decide +kernel
  refine ⟨by decide +kernel, wire.trans (by decide), wire, ?_⟩
  rw [wire]
  intro formed
  exact absurd (formed.close rfl) (by decide)

end PhpWebSocket
