import PhpWebSocket.FrameCodec
import PhpWebSocket.Lib.Consumer
import PhpWebSocket.Runtime

/-! # The stream of frames

`processBufferedFrames` is an incremental consumer in the sense of `Lib.Consumer`:
its state is the hub, and what the parser has decided on a buffer it decides on
every longer one. That how TCP cuts a stream does not matter is then the library's
law about rounds and feeding.
-/

namespace PhpWebSocket

open Lib

/-! ## After an error close -/

theorem closeSocket_not_reading (h : Hub) (i : ConnId) : ¬ ((h.closeSocket i).conn i).Reading := by
  rw [Hub.closeSocket, Hub.conn_relink]
  exact (h.link i).closeSocket_not_reading

theorem closeAfterWrite_not_reading (h : Hub) (i : ConnId) :
    ¬ ((h.closeAfterWrite i).conn i).Reading := by
  rw [Hub.closeAfterWrite, Hub.conn_relink]
  exact (h.link i).closeAfterWrite_not_reading

theorem closeWithCode_not_reading (h : Hub) (i : ConnId) (code : Int) (reason : String) :
    ¬ ((h.closeWithCode i code reason).2.conn i).Reading := by
  simp only [Hub.closeWithCode]
  split
  · exact closeAfterWrite_not_reading _ i
  · exact closeSocket_not_reading _ i

/-! ## The loop as a consumer -/

theorem parseFrame_consumed {b : Bytes} {maxMessageSize : Nat} {frame : ServerFrame}
    (h : parseFrame b maxMessageSize = .ok frame) :
    0 < frame.bytesConsumed ∧ frame.bytesConsumed ≤ b.length := by
  obtain ⟨-, -, mask, rest, rfl, consumed⟩ := clientFrame_of_parseFrame h
  rw [consumed, List.length_append, length_clientFrame]
  omega

/-- A frame as it arrives, accepted by the parser. -/
structure AcceptedFrame (maxMessageSize : Nat) where
  octets : Bytes
  frame : ServerFrame
  parsed : parseFrame octets maxMessageSize = .ok frame
  whole : frame.bytesConsumed = octets.length

namespace AcceptedFrame

variable {maxMessageSize : Nat}

theorem parsed_append (accepted : AcceptedFrame maxMessageSize) (rest : Bytes) :
    parseFrame (accepted.octets ++ rest) maxMessageSize = .ok accepted.frame := by
  rw [parseFrame_append _ _ _ (by simp [accepted.parsed]), accepted.parsed]

theorem nonempty (accepted : AcceptedFrame maxMessageSize) : accepted.octets ≠ [] := by
  have positive := (parseFrame_consumed accepted.parsed).1
  rw [accepted.whole] at positive
  exact List.length_pos_iff.mp positive

theorem incomplete (accepted : AcceptedFrame maxMessageSize) {b c : Bytes}
    (cut : b ++ c = accepted.octets) (missing : c ≠ []) :
    parseFrame b maxMessageSize = .incomplete := by
  by_contra decided
  have same := parseFrame_append b c maxMessageSize decided
  rw [cut, accepted.parsed] at same
  have present := (parseFrame_consumed same.symm).2
  have positive := List.length_pos_iff.mpr missing
  rw [accepted.whole, ← cut, List.length_append] at present
  omega

/-- A data frame is as long as its header and the limit allow, a control frame has at most
    125 octets whatever the limit. -/
theorem length_le (accepted : AcceptedFrame maxMessageSize) :
    accepted.octets.length ≤ max 131 (maxMessageSize + 14) := by
  obtain ⟨acceptable, -, mask, rest, -, consumed⟩ := clientFrame_of_parseFrame accepted.parsed
  have field := length_lengthField_le true accepted.frame.payload.length
  rw [accepted.whole, length_clientFrame] at consumed
  by_cases control : opcodeIsControl accepted.frame.opcode
  · have short := (acceptable.control control).2
    have plain : (lengthField true accepted.frame.payload.length).length = 1 := by
      simp only [lengthField, show accepted.frame.payload.length < 126 by omega, if_true,
        List.length_singleton]
    omega
  · have within := acceptable.data control
    omega

theorem unique {first other : AcceptedFrame maxMessageSize} {b c : Bytes}
    (same : first.octets ++ b = other.octets ++ c) : first = other ∧ b = c := by
  have parsed := first.parsed_append b
  rw [same, other.parsed_append] at parsed
  have frames : other.frame = first.frame := FrameResult.ok.inj parsed
  have length : first.octets.length = other.octets.length := by
    rw [← first.whole, ← other.whole, frames]
  obtain ⟨octets, rest⟩ := List.append_inj same length
  refine ⟨?_, rest⟩
  cases first
  cases other
  cases octets
  cases frames
  rfl

/-- So are the frames in front of an unfinished one: others that the stream begins with are
    among them. -/
theorem prefix_of_flatMap {frames others : List (AcceptedFrame maxMessageSize)} {b c : Bytes}
    (same : others.flatMap octets ++ b = frames.flatMap octets ++ c)
    (part : parseFrame c maxMessageSize = .incomplete) : others <+: frames := by
  induction others generalizing frames with
  | nil => exact List.nil_prefix
  | cons other others ih =>
      rw [List.flatMap_cons, List.append_assoc] at same
      cases frames with
      | nil =>
          rw [List.flatMap_nil, List.nil_append] at same
          have parsed := other.parsed_append (others.flatMap octets ++ b)
          rw [same, part] at parsed
          cases parsed
      | cons frame frames =>
          rw [List.flatMap_cons, List.append_assoc] at same
          obtain ⟨rfl, behind⟩ := unique same
          exact List.cons_prefix_cons.mpr ⟨rfl, ih behind⟩

end AcceptedFrame

/-- What the parser finds at the start of a buffer is an accepted frame. -/
theorem exists_acceptedFrame {b : Bytes} {maxMessageSize : Nat} {frame : ServerFrame}
    (parsed : parseFrame b maxMessageSize = .ok frame) :
    ∃ accepted : AcceptedFrame maxMessageSize, accepted.frame = frame ∧
      b = accepted.octets ++ b.drop frame.bytesConsumed := by
  obtain ⟨acceptable, small, mask, rest, rfl, consumed⟩ := clientFrame_of_parseFrame parsed
  have alone := parseFrame_clientFrame mask frame [] maxMessageSize acceptable small consumed
  rw [List.append_nil] at alone
  exact ⟨⟨_, frame, alone, consumed⟩, rfl, by rw [consumed, List.drop_left]⟩

/-- One round of the loop on the hub and the buffer. -/
def frameBite (server : Server) (i : ConnId) (h : Hub) (b : Bytes) : Bite Hub (Bool × Hub) :=
  if ¬ (h.conn i).Reading then .stop 0 (true, h)
  else
    match parseFrame b server.options.maxMessageSize with
    | .incomplete => .wait
    | .messageTooBig => .stop 0 (h.refuseFrames i closeMessageTooBig "message too big")
    | .invalidPayload => .stop 0 (h.refuseFrames i closeInvalidPayload "invalid utf-8")
    | .protocolError => .stop 0 (h.refuseFrames i closeProtocolError "protocol error")
    | .ok frame =>
        let done := h.handleFrame server i frame
        if done.1 then .take frame.bytesConsumed done.2
        else .stop frame.bytesConsumed (false, done.2)

/-- The loop of `process_buffered_frames` as a consumer of octets. -/
def frameConsumer (server : Server) (i : ConnId) : Consumer UInt8 Hub (Bool × Hub) where
  bite := frameBite server i
  progress {h b n h'} taken := by
    simp only [frameBite] at taken
    split at taken
    · cases taken
    · split at taken <;> try cases taken
      rename_i frame parsed
      split at taken <;> cases taken
      exact parseFrame_consumed parsed
  bounded {h b n r} stopped := by
    simp only [frameBite] at stopped
    split at stopped
    · cases stopped
      omega
    · split at stopped <;> try (cases stopped; try omega)
      rename_i frame parsed
      split at stopped <;> cases stopped
      exact (parseFrame_consumed parsed).2
  stable {h b} decided c := by
    unfold frameBite at decided ⊢
    split
    · rfl
    · rename_i reading
      rw [if_neg reading] at decided
      have parsed : parseFrame b server.options.maxMessageSize ≠ .incomplete := by
        intro waits
        simp only [waits, ne_eq, not_true] at decided
      rw [parseFrame_append b c _ parsed]

theorem frameConsumer_delimits (server : Server) (i : ConnId)
    (frames : List (AcceptedFrame server.options.maxMessageSize)) :
    (frameConsumer server i).Delimits (frames.map AcceptedFrame.octets) where
  decides item mem h rest := by
    obtain ⟨accepted, -, rfl⟩ := List.mem_map.mp mem
    change frameBite server i h (accepted.octets ++ rest) ≠ _
    rw [frameBite, accepted.parsed_append]
    split
    · simp
    · dsimp only
      split <;> simp
  takes item mem h rest n h' taken := by
    obtain ⟨accepted, -, rfl⟩ := List.mem_map.mp mem
    change frameBite server i h (accepted.octets ++ rest) = _ at taken
    rw [frameBite, accepted.parsed_append] at taken
    split at taken
    · cases taken
    · dsimp only at taken
      split at taken
      · cases taken
        exact accepted.whole
      · cases taken

theorem ReadSide.ensureCapacity_isSome (side : ReadSide) (n limit : Nat) :
    (side.ensureCapacity n limit).isSome = true ↔ side.buffer.length + n ≤ limit := by
  simp only [ensureCapacity]
  split
  · rename_i full
    simp only [Bool.or_eq_true, decide_eq_true_eq] at full
    simp only [Option.isSome_none, Bool.false_eq_true, false_iff]
    omega
  · rename_i room
    simp only [Bool.or_eq_true, decide_eq_true_eq] at room
    split <;> simp only [Option.isSome_some, true_iff] <;> omega

theorem ReadSide.ensureCapacity_buffer {side side' : ReadSide} {n limit : Nat}
    (room : side.ensureCapacity n limit = some side') : side'.buffer = side.buffer := by
  simp only [ensureCapacity] at room
  split at room
  · cases room
  · split at room <;> cases room <;> rfl

namespace World

def setBuffer (w : World) (i : ConnId) (b : Bytes) : World :=
  w.setReads i { w.reads i with buffer := b }

@[simp] theorem buffer_setBuffer (w : World) (i : ConnId) (b : Bytes) :
    (w.setBuffer i b).buffer i = b := by
  simp [setBuffer, setReads, buffer]

@[simp] theorem toHub_setBuffer (w : World) (i : ConnId) (b : Bytes) :
    (w.setBuffer i b).toHub = w.toHub := rfl

@[simp] theorem setBuffer_setBuffer (w : World) (i : ConnId) (b c : Bytes) :
    (w.setBuffer i b).setBuffer i c = w.setBuffer i c := by
  simp [setBuffer, setReads]

@[simp] theorem setBuffer_buffer (w : World) (i : ConnId) : w.setBuffer i (w.buffer i) = w := by
  simp [setBuffer, setReads, buffer]

theorem discard_eq (w : World) (i : ConnId) (n : Nat) :
    w.discard i n = w.setBuffer i ((w.buffer i).drop n) := by
  simp only [discard, setBuffer, buffer]
  split
  · rename_i all
    rw [List.drop_of_length_le all]
  · rfl

theorem buffer_append {w : World} {i : ConnId} {octets : Bytes} {limit : Nat} {side : ReadSide}
    (room : (w.reads i).ensureCapacity octets.length limit = some side) :
    (w.setReads i (side.append octets)).buffer i = w.buffer i ++ octets := by
  have same : side.buffer = w.buffer i := ReadSide.ensureCapacity_buffer room
  simp [buffer, setReads, ReadSide.append, same]

/-- The world after a round of the consumer. -/
def land (w : World) (i : ConnId) : Drained UInt8 Hub (Bool × Hub) → Bool × World
  | .waiting h left => (true, { w with toHub := h }.setBuffer i left)
  | .stopped r left => (r.1, { w with toHub := r.2 }.setBuffer i left)

theorem land_moved (w : World) (i : ConnId) (h : Hub) (b : Bytes)
    (d : Drained UInt8 Hub (Bool × Hub)) :
    ({ w with toHub := h }.setBuffer i b).land i d = w.land i d := by
  cases d <;> simp [land, setBuffer, setReads]

end World

/-- `process_buffered_frames` drains the consumer. -/
theorem World.framesLoop_eq (server : Server) (i : ConnId) (fuel : Nat) (w : World)
    (enough : (w.buffer i).length ≤ fuel) :
    w.framesLoop server i fuel =
      w.land i ((frameConsumer server i).drain w.toHub (w.buffer i)) := by
  induction fuel generalizing w with
  | zero =>
      have empty : w.buffer i = [] := List.eq_nil_of_length_eq_zero (by omega)
      have rest : w.setBuffer i [] = w := by rw [← empty, setBuffer_buffer]
      simp only [framesLoop, empty]
      by_cases reading : (w.conn i).Reading
      · have waits : (frameConsumer server i).bite w.toHub [] = .wait := by
          simp [frameConsumer, frameBite, reading, parseFrame]
        rw [Consumer.drain_wait waits, land, rest]
      · have stops : (frameConsumer server i).bite w.toHub [] = .stop 0 (true, w.toHub) := by
          simp [frameConsumer, frameBite, reading]
        rw [Consumer.drain_stop stops, land, List.drop_zero, rest]
  | succ fuel ih =>
      by_cases reading : (w.conn i).Reading
      · by_cases empty : w.buffer i = []
        · have waits : (frameConsumer server i).bite w.toHub (w.buffer i) = .wait := by
            simp [frameConsumer, frameBite, reading, parseFrame, empty]
          rw [Consumer.drain_wait waits, land, setBuffer_buffer, framesLoop, if_pos (by simp [empty])]
        · have goes : ¬ (!((w.conn i).isOpen && !(w.conn i).closeAfterWrite && (w.conn i).upgraded &&
              decide (w.buffer i ≠ []))) = true := by
            simp [reading.1, reading.2.1, reading.2.2, empty]
          have bites : (frameConsumer server i).bite w.toHub (w.buffer i) =
              frameBite server i w.toHub (w.buffer i) := rfl
          rw [frameBite, if_neg (not_not.mpr reading)] at bites
          rw [framesLoop, if_neg goes]
          cases parsed : parseFrame (w.buffer i) server.options.maxMessageSize with
          | incomplete =>
              simp only [parsed] at bites
              rw [Consumer.drain_wait bites, land, setBuffer_buffer]
          | messageTooBig | invalidPayload | protocolError =>
              simp only [parsed] at bites
              rw [Consumer.drain_stop bites, land, List.drop_zero]
              exact congrArg (Prod.mk _) (setBuffer_buffer { w with toHub := _ } i).symm
          | ok frame =>
              obtain ⟨positive, present⟩ := parseFrame_consumed parsed
              simp only [parsed, discard_eq, toHub_setBuffer] at bites ⊢
              cases ok : (w.handleFrame server i frame).1 with
              | false =>
                  simp only [ok, Bool.false_eq_true, if_false] at bites
                  simp only [onHub, ok, Bool.false_eq_true, if_false]
                  rw [Consumer.drain_stop bites]
                  rfl
              | true =>
                  simp only [ok, if_true] at bites
                  simp only [onHub, ok, if_true]
                  rw [Consumer.drain_take bites]
                  change framesLoop server i fuel ({ w with toHub := _ }.setBuffer i _) = _
                  have shorter : ((w.buffer i).drop frame.bytesConsumed).length ≤ fuel := by
                    rw [List.length_drop]
                    omega
                  rw [ih _ (by rw [buffer_setBuffer]; exact shorter), buffer_setBuffer,
                    toHub_setBuffer, land_moved]
      · have stops : (frameConsumer server i).bite w.toHub (w.buffer i) =
            .stop 0 (true, w.toHub) := by
          simp [frameConsumer, frameBite, reading]
        rw [Consumer.drain_stop stops, land, List.drop_zero, setBuffer_buffer, framesLoop, if_pos]
        unfold Connection.Reading at reading
        grind

theorem World.processBufferedFrames_eq (server : Server) (i : ConnId) (w : World) :
    w.processBufferedFrames server i =
      w.land i ((frameConsumer server i).drain w.toHub (w.buffer i)) :=
  w.framesLoop_eq server i _ (Nat.le_refl _)

/-! ## Pieces of a stream -/

namespace World

/-- A piece of the stream behind the buffer, whatever the capacity. -/
def receive (w : World) (i : ConnId) (piece : Bytes) : World :=
  w.setReads i ((w.reads i).append piece)

/-- The pieces one by one, with a round of `process_buffered_frames` after each, until
    one returns false. -/
def feed (server : Server) (i : ConnId) : List Bytes → World → Bool × World
  | [], w => (true, w)
  | piece :: rest, w =>
      let done := (w.receive i piece).processBufferedFrames server i
      if done.1 then feed server i rest done.2 else (false, done.2)

theorem receive_eq (w : World) (i : ConnId) (piece : Bytes) :
    w.receive i piece = w.setBuffer i (w.buffer i ++ piece) := rfl

theorem processBufferedFrames_receive (server : Server) (i : ConnId) (w : World) (piece : Bytes) :
    (w.receive i piece).processBufferedFrames server i =
      w.land i ((frameConsumer server i).drain w.toHub (w.buffer i ++ piece)) := by
  rw [processBufferedFrames_eq, receive_eq, buffer_setBuffer, toHub_setBuffer]
  exact land_moved w i w.toHub _ _

end World

theorem frameConsumer_stopped {server : Server} {i : ConnId} {h h' : Hub} {b left : Bytes}
    (stopped : (frameConsumer server i).drain h b = .stopped (true, h') left) :
    ¬ (h'.conn i).Reading := by
  induction h, b using Consumer.drain.induct (frameConsumer server i) with
  | case1 h b atBite =>
      rw [Consumer.drain_wait atBite] at stopped
      cases stopped
  | case2 h b n r atBite =>
      rw [Consumer.drain_stop atBite] at stopped
      cases stopped
      change frameBite server i h b = _ at atBite
      unfold frameBite at atBite
      split at atBite
      · rename_i closed
        cases atBite
        exact closed
      · split at atBite <;> try (cases atBite; exact closeWithCode_not_reading _ i _ _)
        · cases atBite
        · dsimp only at atBite
          split at atBite <;> cases atBite
  | case3 h b n h'' atBite ih =>
      rw [Consumer.drain_take atBite] at stopped
      exact ih stopped

theorem feed_not_reading (server : Server) {i : ConnId} {w : World}
    (closed : ¬ (w.conn i).Reading) (pieces : List Bytes) :
    w.feed server i pieces = (true, w.setBuffer i (w.buffer i ++ pieces.flatten)) := by
  induction pieces generalizing w with
  | nil => simp [World.feed]
  | cons piece rest ih =>
      have stops : (frameConsumer server i).bite w.toHub (w.buffer i ++ piece) =
          .stop 0 (true, w.toHub) := by
        simp [frameConsumer, frameBite, closed]
      rw [World.feed, World.processBufferedFrames_receive, Consumer.drain_stop stops]
      simp only [World.land, if_true, List.drop_zero]
      change World.feed server i rest (w.setBuffer i (w.buffer i ++ piece)) = _
      rw [ih (w := w.setBuffer i (w.buffer i ++ piece)) closed]
      simp [List.append_assoc]

/-- However a stream is cut, feeding it comes to one round on the whole of it. After a
    false the rest of the stream is not read, so only the hub is compared. -/
theorem feed_eq (server : Server) (i : ConnId) (w : World) (piece : Bytes) (rest : List Bytes) :
    let whole := w.land i
      ((frameConsumer server i).drain w.toHub (w.buffer i ++ (piece :: rest).flatten))
    (w.feed server i (piece :: rest)).1 = whole.1 ∧
      (w.feed server i (piece :: rest)).2.toHub = whole.2.toHub ∧
      (whole.1 = true → w.feed server i (piece :: rest) = whole) := by
  induction rest generalizing w piece with
  | nil =>
      rw [World.feed, World.processBufferedFrames_receive, List.flatten_singleton]
      cases atLand : w.land i ((frameConsumer server i).drain w.toHub (w.buffer i ++ piece)) with
      | mk ok after => cases ok <;> simp [World.feed]
  | cons next rest ih =>
      rw [World.feed, World.processBufferedFrames_receive, List.flatten_cons, ← List.append_assoc,
        Consumer.drain_append]
      cases atDrain : (frameConsumer server i).drain w.toHub (w.buffer i ++ piece) with
      | waiting h left =>
          have later := ih ({ w with toHub := h }.setBuffer i left) next
          rw [World.buffer_setBuffer, World.toHub_setBuffer, World.land_moved] at later
          simpa only [World.land, Consumer.feed, if_true] using later
      | stopped r left =>
          obtain ⟨ok, h⟩ := r
          cases ok with
          | false => simp [World.land, Consumer.feed]
          | true =>
              have closed := frameConsumer_stopped atDrain
              have later : ({ w with toHub := h }.setBuffer i left).feed server i (next :: rest) = _ :=
                feed_not_reading server closed (next :: rest)
              rw [World.buffer_setBuffer, World.setBuffer_setBuffer] at later
              simp only [World.land, Consumer.feed, if_true, later, true_and, forall_const]

/-- Two ways of cutting one stream into pieces give the same callbacks, the same
    frames and the same connection, and while no callback throws the same octets are
    left in the buffer. What the parser has decided does not change with what follows. -/
theorem frames_independent_of_cuts (server : Server) (i : ConnId) (w : World)
    (pieces cut : List Bytes) (nonempty : ∀ p ∈ pieces, p ≠ []) (cutNonempty : ∀ p ∈ cut, p ≠ [])
    (same : pieces.flatten = cut.flatten) :
    ((w.feed server i pieces).1 = (w.feed server i cut).1 ∧
      (w.feed server i pieces).2.toHub = (w.feed server i cut).2.toHub ∧
      ((w.feed server i pieces).1 = true →
        (w.feed server i pieces).2.buffer i = (w.feed server i cut).2.buffer i)) ∧
      ∀ b c maxMessageSize, parseFrame b maxMessageSize ≠ .incomplete →
        parseFrame (b ++ c) maxMessageSize = parseFrame b maxMessageSize := by
  refine ⟨?_, parseFrame_append⟩
  cases pieces with
  | nil =>
      cases cut with
      | nil => exact ⟨rfl, rfl, fun _ => rfl⟩
      | cons p rest =>
          have absent := cutNonempty p (List.mem_cons_self ..)
          simp [absent] at same
  | cons p rest =>
      cases cut with
      | nil =>
          have absent := nonempty p (List.mem_cons_self ..)
          simp [absent] at same
      | cons q others =>
          obtain ⟨ok, hub, whole⟩ := feed_eq server i w p rest
          obtain ⟨ok', hub', whole'⟩ := feed_eq server i w q others
          rw [← same] at ok' hub' whole'
          refine ⟨ok.trans ok'.symm, hub.trans hub'.symm, ?_⟩
          intro succeeded
          rw [whole (ok ▸ succeeded), whole' (ok ▸ succeeded)]

/-- A Ping that arrives whole or cut behind its first octet. -/
theorem frames_independent_of_cuts_ping :
    let server : Server := { options := .array fun _ => none, lib := sampleLib }
    let w : World := { conn := fun _ => { Connection.opened 7 with upgraded := true } }
    let ping : List Bytes := [[0x89, 0x80, 1, 2, 3, 4]]
    let cut : List Bytes := [[0x89], [0x80, 1, 2, 3, 4]]
    ((∀ p ∈ ping, p ≠ []) ∧ (∀ p ∈ cut, p ≠ []) ∧ ping.flatten = cut.flatten) ∧
      (w.feed server 0 ping).2.trace = [.frame 0 .pong opcodePong []] ∧
      (w.feed server 0 cut).2.trace = [.frame 0 .pong opcodePong []] ∧
      (w.feed server 0 cut).2.buffer 0 = [] := by
  intro server w ping cut
  have premises : (∀ p ∈ ping, p ≠ []) ∧ (∀ p ∈ cut, p ≠ []) ∧ ping.flatten = cut.flatten := by
    decide
  obtain ⟨⟨-, hub, left⟩, -⟩ :=
    frames_independent_of_cuts server 0 w ping cut premises.1 premises.2.1 premises.2.2
  have seen : (w.feed server 0 ping).2.trace = [.frame 0 .pong opcodePong []] := by
    decide +kernel
  have ok : (w.feed server 0 ping).1 = true := by decide +kernel
  have empty : (w.feed server 0 ping).2.buffer 0 = [] := by decide +kernel
  exact ⟨premises, seen, (congrArg Hub.trace hub).symm.trans seen, (left ok).symm.trans empty⟩

end PhpWebSocket
