import PhpWebSocket.RoundTrip
import PhpWebSocket.WellFormed

/-! # The two ends of a connection

A client that reads with `Protocol::unpack`. From what has reached it of the stream of
the server, in whatever pieces, it decodes the first of the frames that the server has
accepted for it, in their order and with their payloads, and it waits for the rest.
-/

namespace PhpWebSocket

open Lib

namespace SentFrame

variable {frame : SentFrame} {limit : Nat}

/-- The object that `Protocol::unpack` makes of the frame. -/
def decoded (frame : SentFrame) : Unpacked :=
  if frame.opcode = opcodeClose then
    .closeFrame
      ⟨if frame.payload = [] then closeNormal else closeCodeOf frame.payload,
        frame.payload.drop 2, flagFin.toNat, frame.octets.length⟩
  else
    .frame
      ⟨(MessageType.fromOpcode frame.opcode).getD .text, frame.opcode.toNat, flagFin.toNat,
        frame.payload, true, frame.octets.length⟩

theorem length_payload_lt (frame : SentFrame) : frame.payload.length < frame.octets.length := by
  simp only [octets, serverFrame, List.length_cons, List.length_append]
  omega

/-- A frame that fits is one that `pack_payload` makes. -/
def packing (endian : Endian) (fits : frame.Fits limit) (small : limit ≤ 2 ^ 61) : Packing endian where
  payload := frame.payload
  opcode := frame.opcode
  flags := flagFin
  random := none
  octets := frame.octets
  short := Nat.lt_of_lt_of_le frame.length_payload_lt (fits.length.trans small)
  valid := fits.valid
  known := rfl
  packs := by
    have unmasked : flagSet flagFin flagMask = false := rfl
    simp only [packPayload, unmasked, Bool.false_eq_true, if_false, octets, serverFrame,
      List.cons_append]

/-- The frame as `Protocol::unpack` reads it. -/
def raw (frame : SentFrame) : RawFrame :=
  ⟨frame.opcode, true, flagFin, frame.payload, frame.octets.length⟩

theorem packing_final (endian : Endian) (fits : frame.Fits limit) (small : limit ≤ 2 ^ 61) :
    (packing endian fits small).final = true := by
  have final : flagSet flagFin flagFin = true := by decide
  exact final

theorem packing_raw (endian : Endian) (fits : frame.Fits limit) (small : limit ≤ 2 ^ 61) :
    (packing endian fits small).raw = frame.raw := by
  have flags : wireFlags flagFin = flagFin := by decide
  rw [Packing.raw, packing_final]
  simp only [packing, flags, raw]

theorem fromOpcode_opcode (type : MessageType) : MessageType.fromOpcode type.opcode = some type := by
  cases type <;> rfl

theorem content_raw (valid : opcodeIsValid frame.opcode = true)
    (accepted : ¬ Rejected frame.opcode true frame.payload) : frame.raw.content = frame.decoded := by
  by_cases close : frame.opcode = opcodeClose
  · rw [decoded, if_pos close]
    exact RawFrame.content_closeFrame close accepted
  · have object : ∃ type, type.opcode = frame.raw.opcode ∧ frame.raw.content = .frame
        ⟨type, frame.raw.opcode.toNat, frame.raw.flags.toNat, frame.raw.payload, frame.raw.final,
          frame.raw.bytesConsumed⟩ := RawFrame.content_frame valid close accepted
    obtain ⟨type, same, content⟩ := object
    have known : MessageType.fromOpcode frame.opcode = some type := by
      rw [← fromOpcode_opcode type, same]
      rfl
    rw [decoded, if_neg close, content, known]
    rfl

theorem unpack_octets (endian : Endian) (fits : frame.Fits limit) (small : limit ≤ 2 ^ 61)
    (accepted : ¬ Rejected frame.opcode true frame.payload) :
    unpack endian frame.octets = frame.decoded := by
  have content := (packing endian fits small).unpack_eq []
  rw [List.append_nil, packing_raw, content_raw fits.valid accepted] at content
  exact content

end SentFrame

/-- What a peer must not be sent, `Protocol::unpack` does not reject. -/
theorem Proper.accepted {payload : Bytes} {opcode : UInt8} (proper : Proper payload opcode) :
    ¬ Rejected opcode true payload := by
  rintro (⟨control, fragment | long⟩ | ⟨close, single | invalid⟩ | ⟨text, -, invalid⟩)
  · cases fragment
  · exact absurd (proper.control control) (Nat.not_le.mpr long)
  · rcases proper.close close with empty | ⟨two, -⟩
    · rw [empty] at single
      cases single
    · omega
  · rcases proper.close close with empty | ⟨-, -, utf8⟩
    · rw [empty] at invalid
      cases invalid
    · exact Bool.false_ne_true (invalid.symm.trans utf8)
  · exact Bool.false_ne_true (invalid.symm.trans (proper.text text))

section

variable {limit : Nat} {frames : List SentFrame}

/-- The decoder takes whole frames and leaves the beginning of one alone. -/
theorem decode_front (endian : Endian) (small : limit ≤ 2 ^ 61) (fits : ∀ frame ∈ frames, frame.Fits limit)
    (accepted : ∀ frame ∈ frames, ¬ Rejected frame.opcode true frame.payload)
    {k : Nat} {tail : Bytes} (torn : Torn limit tail) (pieces : List Bytes)
    (received : pieces.flatten = ((frames.take k).map SentFrame.octets).flatten ++ tail) :
    pieces.foldl (decoder endian).feed (.waiting [] []) =
      .waiting ((frames.take k).map SentFrame.decoded) tail := by
  have empty : (decoder endian).drain [] [] = .waiting [] [] := Consumer.drain_wait rfl
  have whole (frames : List SentFrame) (fits : ∀ frame ∈ frames, frame.Fits limit)
      (accepted : ∀ frame ∈ frames, ¬ Rejected frame.opcode true frame.payload)
      (objects : List Unpacked) :
      (decoder endian).drain objects ((frames.map SentFrame.octets).flatten ++ tail) =
        .waiting (objects ++ frames.map SentFrame.decoded) tail := by
    induction frames generalizing objects with
    | nil =>
        rw [List.map_nil, List.flatten_nil, List.nil_append, List.map_nil, List.append_nil]
        apply Consumer.drain_wait
        have nothing : unpack endian tail = .null := by
          rcases torn with rfl | ⟨frame, fit, begins, strict⟩
          · rfl
          · exact (SentFrame.packing endian fit small).unpack_isPrefix begins strict
        change decoderBite endian objects tail = .wait
        rw [decoderBite, nothing]
    | cons frame rest ih =>
        have fit := fits frame (List.mem_cons_self ..)
        have clean := accepted frame (List.mem_cons_self ..)
        have later := ih (fun next mem => fits next (List.mem_cons_of_mem _ mem))
          (fun next mem => accepted next (List.mem_cons_of_mem _ mem)) (objects ++ [frame.decoded])
        have packed := SentFrame.packing_final endian fit small
        have bites := decoder_bite (SentFrame.packing endian fit small) (by rwa [packed]) objects
          ((rest.map SentFrame.octets).flatten ++ tail)
        change (decoder endian).bite objects (frame.octets ++ _) =
          .take frame.octets.length (objects ++ [unpack endian frame.octets]) at bites
        rw [SentFrame.unpack_octets endian fit small clean] at bites
        rw [List.map_cons, List.flatten_cons, List.append_assoc, Consumer.drain_take bites,
          List.drop_left, later, List.map_cons, List.append_assoc, List.singleton_append]
  rw [← empty, (decoder endian).foldl_feed, List.nil_append, received]
  exact whole _ (fun frame mem => fits frame (List.mem_of_mem_take mem))
    (fun frame mem => accepted frame (List.mem_of_mem_take mem)) []

end

/-- What a client has decoded of what has reached it, at any time of any run: the first of
    the frames that the server accepted for it, in order, with a beginning of one more left
    over; and all of them once the queue is empty and the network has delivered what was
    written. -/
theorem client_decodes (server : Server) (env : Env) (waits : List WaitResult) (i : ConnId)
    (sane : env.Sane) (small : server.options.maxQueuedBytes ≤ 2 ^ 61) :
    let w := ((World.start env).runtimeRun server waits).world
    (∀ payload, .submit i opcodeClose payload ∈ w.trace.of i → ClosePayload payload) →
      ∀ endian pieces, List.flatten pieces <+: (w.conn i).wire →
        ∃ k left, k ≤ (w.trace.sent i).length ∧
          List.flatten pieces = (((w.trace.sent i).take k).map SentFrame.octets).flatten ++ left ∧
          pieces.foldl (decoder endian).feed (.waiting [] []) =
            .waiting (((w.trace.sent i).take k).map SentFrame.decoded) left ∧
          Torn (w.conn i).maxQueuedBytes left ∧
          ((w.conn i).isOpen = true → Begun (w.trace.sent i) k left) ∧
          ((w.conn i).isOpen = true → (w.conn i).writeQueue = [] →
            List.flatten pieces = (w.conn i).wire → k = (w.trace.sent i).length ∧ left = []) := by
  intro w checked endian pieces arrived
  have streaming := Streaming.run server waits sane
  have streamed := streaming.delivered i
  have limited : (w.conn i).maxQueuedBytes ≤ 2 ^ 61 := by
    rcases Nat.lt_or_ge i w.nextConnectionId with born | beyond
    · rw [streaming.limit i born]
      exact small
    · have moved : Moves server (World.start env).toHub w.toHub :=
        World.runtimeRun_moves (World.start_settled env) waits
      have ground := moved.grounded (World.start_settled env).grounded
      have fresh : w.conn i = {} := congrArg Life.conn (ground.unborn i beyond)
      rw [fresh]
      decide
  have emits : EmitsIfChecked i (w.toHub.life i) :=
    run_invariant (fun _ => Emits.start) (fun step before => step.emits before) env waits
  have accepted : ∀ frame ∈ w.trace.sent i, ¬ Rejected frame.opcode true frame.payload := by
    intro frame mem
    obtain ⟨source, logged⟩ := mem_sent mem
    exact ((emits checked).proper logged).accepted
  have decoded {k : Nat} {left : Bytes} (torn : Torn (w.conn i).maxQueuedBytes left)
      (received : List.flatten pieces =
        (((w.trace.sent i).take k).map SentFrame.octets).flatten ++ left) :=
    decode_front endian limited streamed.fits accepted torn pieces received
  cases isOpen : (w.conn i).isOpen with
  | false =>
      obtain ⟨k, left, bound, received, torn⟩ := streamed.front.of_isPrefix streamed.fits arrived
      exact ⟨k, left, bound, received, decoded torn received, torn, nofun, nofun⟩
  | true =>
      have carries := (streamed.live isOpen).carries
      by_cases drained : (w.conn i).writeQueue = [] ∧ List.flatten pieces = (w.conn i).wire
      · have stream := carries.stream
        rw [drained.1, unsent_nil, List.append_nil, ← drained.2] at stream
        have all : List.flatten pieces = (((w.trace.sent i).take (w.trace.sent i).length).map
            SentFrame.octets).flatten ++ [] := by
          rw [List.take_length, List.append_nil]
          exact stream
        exact ⟨_, [], Nat.le_refl _, all, decoded (.inl rfl) all, .inl rfl, fun _ => .inl rfl,
          fun _ _ _ => ⟨rfl, rfl⟩⟩
      · obtain ⟨k, left, bound, received, begun⟩ := begun_of_isPrefix (arrived.trans carries.isPrefix)
        have torn := begun.torn streamed.fits
        exact ⟨k, left, bound, received, decoded torn received, torn, fun _ => begun,
          fun _ idle all => absurd ⟨idle, all⟩ drained⟩

/-- A Pong that reaches the client in two pieces. -/
theorem client_decodes_pong :
    let server : Server := { options := .array fun _ => none, lib := sampleLib }
    let ping : Chunk := ⟨[0x89, 0x81, 1, 2, 3, 4, 0x41], by decide, by decide⟩
    let env : Env := { accepts := [.client 5 none], recvs := [.data sampleRequestChunk, .data ping] }
    let w := ((World.start env).runtimeRun server [.ready 3, .ready 5]).world
    (w.conn 0).wire = [0x8a, 0x01, 0x40] ∧
      [[0x8a], [0x01, 0x40]].foldl (decoder .little).feed (.waiting [] []) =
        .waiting [.frame ⟨.pong, 10, 1, [0x40], true, 3⟩] [] := by
  intro server ping env
  have wire : (((World.start env).runtimeRun server [.ready 3, .ready 5]).world.conn 0).wire =
      [0x8a, 0x01, 0x40] := by decide +kernel
  have sent : ((World.start env).runtimeRun server [.ready 3, .ready 5]).world.trace.sent 0 =
      [⟨opcodePong, [0x40]⟩] := by decide +kernel
  have nothing : (((World.start env).runtimeRun server [.ready 3, .ready 5]).world.trace.of 0).any
      Event.submits = false := by decide +kernel
  obtain ⟨k, left, -, -, decoded, -, -, all⟩ := client_decodes server env [.ready 3, .ready 5] 0
    ⟨by decide, by decide, by decide⟩ (by decide)
    (fun payload mem => absurd rfl (List.any_eq_false.mp nothing _ mem)) .little
    [[0x8a], [0x01, 0x40]] (by rw [wire]; exact List.prefix_refl _)
  obtain ⟨count, none⟩ := all (by decide +kernel) (by decide +kernel) (by rw [wire]; rfl)
  rw [count, none, List.take_length, sent] at decoded
  exact ⟨wire, decoded⟩

end PhpWebSocket
