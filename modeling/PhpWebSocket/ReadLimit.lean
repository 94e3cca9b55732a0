import Mathlib.Logic.Relation
import PhpWebSocket.TooBig

/-! # The room in the read buffer

Before it keeps a chunk, the reading loop asks for room for it behind what is left of the
last one, up to the largest message, a header and one chunk. What is left is less than one
frame, and a data frame is within the limit; but a control frame has up to 125 octets of
payload however small a message must be.
-/

namespace PhpWebSocket

open Lib Relation

/-- One answer of `recv` in the loop of `process_frame_reads`. Where a call of it ends with
    an empty socket, the next call goes on with the answers that are left. -/
inductive ReadStep (server : Server) (i : ConnId) :
    List RecvResult × World → List RecvResult × World → Prop
  | data {chunk : Chunk} {rest : List RecvResult} {w w' : World} {side : ReadSide}
      (reading : (w.conn i).Reading)
      (room : (w.reads i).ensureCapacity chunk.octets.length
        (World.readLimit server.options.maxMessageSize) = some side)
      (processed : (((w.setRecvs rest).touch i).setReads i
        (side.append chunk.octets)).processBufferedFrames server i = (true, w')) :
      ReadStep server i (.data chunk :: rest, w) (rest, w')
  | interrupted {rest : List RecvResult} {w : World} (reading : (w.conn i).Reading) :
      ReadStep server i (.failed .eintr :: rest, w) (rest, (w.setRecvs rest).setErrno .eintr)
  | again {e : Errno} {rest : List RecvResult} {w w' : World} (reading : (w.conn i).Reading)
      (empty : e = .eagain ∨ e = .ewouldblock)
      (processed : ((w.setRecvs rest).setErrno e).processBufferedFrames server i = (true, w')) :
      ReadStep server i (.failed e :: rest, w) (rest, w')

theorem ReadStep.reading {server : Server} {i : ConnId} {a b : List RecvResult × World}
    (step : ReadStep server i a b) : (a.2.conn i).Reading := by
  cases step with
  | data isReading | interrupted isReading | again isReading => exact isReading

theorem ReadStep.loop {server : Server} {i : ConnId} {a b : List RecvResult × World}
    (step : ReadStep server i a b) :
    a.2.frameReadsLoop server i a.1 = b.2.frameReadsLoop server i b.1 ∨
      a.2.frameReadsLoop server i a.1 = (true, b.2) := by
  cases step with
  | @data chunk rest w w' side reading room processed =>
      have heard : (((w.setRecvs rest).touch i).reads i).ensureCapacity chunk.octets.length
          (World.readLimit server.options.maxMessageSize) = some side := room
      apply Or.inl
      conv => lhs; rw [World.frameReadsLoop.eq_def]
      dsimp only
      rw [if_neg (by simp [reading.1, reading.2.1, reading.2.2]), heard]
      dsimp only
      rw [processed, if_pos rfl]
  | interrupted reading =>
      apply Or.inl
      conv => lhs; rw [World.frameReadsLoop.eq_def]
      dsimp only
      rw [if_neg (by simp [reading.1, reading.2.1, reading.2.2])]
  | again reading empty processed =>
      apply Or.inr
      rw [World.frameReadsLoop.eq_def]
      dsimp only
      rw [if_neg (by simp [reading.1, reading.2.1, reading.2.2])]
      rcases empty with rfl | rfl
      · exact processed
      · exact processed

/-- Whether the chunk that comes next finds room. -/
def World.Room (server : Server) (i : ConnId) (w : World) (chunk : Chunk) : Prop :=
  ((w.reads i).ensureCapacity chunk.octets.length
    (World.readLimit server.options.maxMessageSize)).isSome

/-- A chunk without room ends the call and the connection with 1009. -/
theorem World.frameReadsLoop_refused {server : Server} {i : ConnId} {w : World} {chunk : Chunk}
    {rest : List RecvResult} (reading : (w.conn i).Reading) (full : ¬ w.Room server i chunk) :
    let heard := (w.setRecvs rest).touch i
    w.frameReadsLoop server i (.data chunk :: rest) =
      heard.onHub (heard.closeWithCode i closeMessageTooBig "message too big") := by
  have none : (((w.setRecvs rest).touch i).reads i).ensureCapacity chunk.octets.length
      (World.readLimit server.options.maxMessageSize) = none := Option.not_isSome_iff_eq_none.mp full
  rw [World.frameReadsLoop.eq_def]
  dsimp only
  rw [if_neg (by simp [reading.1, reading.2.1, reading.2.2]), none]

/-! ## What is left in the buffer -/

theorem readLimit_eq (options : Options) :
    World.readLimit options.maxMessageSize = options.maxMessageSize + 4110 := by
  have small := options.maxMessageSize_bounds.2
  rw [World.readLimit, if_neg (by simp only [sizeMax, readChunkSize]; omega), readChunkSize]

theorem World.room_iff (server : Server) (i : ConnId) (w : World) (chunk : Chunk) :
    w.Room server i chunk ↔
      (w.buffer i).length + chunk.octets.length ≤ server.options.maxMessageSize + 4110 := by
  rw [Room, readLimit_eq, ReadSide.ensureCapacity_isSome, buffer]

/-- Behind the first `n` octets of a stream of `items`, of which `recvs` and `tail` are still
    to come, the buffer holds the octets of the item that is not complete. -/
structure Aligned (i : ConnId) (items : List Bytes) (tail : Bytes) (n : Nat)
    (recvs : List RecvResult) (w : World) : Prop where
  stream : w.buffer i ++ (octetsOf recvs ++ tail) = (cut items n).1.flatten
  left : (w.buffer i).length = (cut items n).2

section

variable {server : Server} {i : ConnId} {items : List Bytes} {tail : Bytes} {n : Nat} {w w' : World}
  {recvs recvs' : List RecvResult}

theorem Aligned.process (delimits : (frameConsumer server i).Delimits items) {more : Bytes}
    (left : (w.buffer i).length = (cut items n).2 + more.length)
    (stream : w.buffer i ++ (octetsOf recvs ++ tail) = (cut items n).1.flatten)
    (processed : w.processBufferedFrames server i = (true, w')) (reading : (w'.conn i).Reading) :
    Aligned i items tail (n + more.length) recvs w' := by
  rw [World.processBufferedFrames_eq] at processed
  cases drained : (frameConsumer server i).drain w.toHub (w.buffer i) with
  | stopped r rest =>
      rw [drained] at processed
      obtain ⟨ok, h⟩ := r
      cases processed
      exact absurd reading (frameConsumer_stopped drained)
  | waiting h rest =>
      rw [drained] at processed
      cases processed
      obtain ⟨after, length⟩ := (delimits.cut n).drain_left stream drained
      rw [left, ← cut_add] at after length
      refine ⟨?_, ?_⟩
      · rw [World.buffer_setBuffer]
        exact after
      · rw [World.buffer_setBuffer]
        exact length

theorem ReadStep.aligned (delimits : (frameConsumer server i).Delimits items)
    (step : ReadStep server i (recvs, w) (recvs', w')) (aligned : Aligned i items tail n recvs w)
    (reading : (w'.conn i).Reading) :
    ∃ received, octetsOf recvs = received ++ octetsOf recvs' ∧
      Aligned i items tail (n + received.length) recvs' w' := by
  cases step with
  | @data chunk _ _ _ side _ room processed =>
      have buffer := World.buffer_append (w := (w.setRecvs recvs').touch i) room
      refine ⟨chunk.octets, rfl, Aligned.process delimits ?_ ?_ processed reading⟩
      · rw [buffer, List.length_append]
        exact congrArg (· + _) aligned.left
      · rw [buffer, List.append_assoc, ← List.append_assoc chunk.octets]
        exact aligned.stream
  | interrupted => exact ⟨[], rfl, aligned.stream, aligned.left⟩
  | @again e _ _ _ _ _ processed =>
      have empty : Aligned i items tail (n + ([] : Bytes).length) recvs' w' :=
        Aligned.process (w := (w.setRecvs recvs').setErrno e) delimits aligned.left aligned.stream
          processed reading
      exact ⟨[], rfl, empty⟩

/-- Whatever has been received, the buffer holds the unfinished frame when the loop reads. -/
theorem ReadSteps.aligned (delimits : (frameConsumer server i).Delimits items)
    (steps : ReflTransGen (ReadStep server i) (recvs, w) (recvs', w'))
    (aligned : Aligned i items tail 0 recvs w) (reading : (w'.conn i).Reading) :
    ∃ received, octetsOf recvs = received ++ octetsOf recvs' ∧
      Aligned i items tail received.length recvs' w' := by
  suffices run : ∀ b, ReflTransGen (ReadStep server i) (recvs, w) b → (b.2.conn i).Reading →
      ∃ received, octetsOf recvs = received ++ octetsOf b.1 ∧
        Aligned i items tail received.length b.1 b.2 from run (recvs', w') steps reading
  intro b steps
  induction steps with
  | refl => exact fun _ => ⟨[], rfl, aligned⟩
  | @tail b c _ step ih =>
      intro reading
      obtain ⟨received, octets, aligned⟩ := ih step.reading
      obtain ⟨more, later, aligned⟩ := step.aligned delimits aligned reading
      refine ⟨received ++ more, ?_, ?_⟩
      · rw [octets, later, List.append_assoc]
      · rw [List.length_append]
        exact aligned

end

section

variable {server : Server} {i : ConnId} {frames : List (AcceptedFrame server.options.maxMessageSize)}
  {tail : Bytes} {n : Nat} {w w' : World} {recvs recvs' : List RecvResult}

theorem Aligned.left_lt {chunk : Chunk} {rest : List RecvResult}
    (aligned : Aligned i (frames.map AcceptedFrame.octets) tail n (.data chunk :: rest) w) :
    (w.buffer i).length < max 131 (server.options.maxMessageSize + 14) := by
  cases next : (cut (frames.map AcceptedFrame.octets) n).1 with
  | nil =>
      have none := aligned.stream
      rw [next] at none
      simp [octetsOf, chunk.nonempty] at none
  | cons item others =>
      have mem : item ∈ frames.map AcceptedFrame.octets := by
        apply cut_subset _ n
        rw [next]
        exact List.mem_cons_self ..
      obtain ⟨accepted, -, rfl⟩ := List.mem_map.mp mem
      rw [aligned.left]
      exact Nat.lt_of_lt_of_le (cut_lt next) accepted.length_le

theorem Aligned.room (large : 116 ≤ server.options.maxMessageSize) {chunk : Chunk}
    {rest : List RecvResult}
    (aligned : Aligned i (frames.map AcceptedFrame.octets) tail n (.data chunk :: rest) w) :
    w.Room server i chunk := by
  have left := aligned.left_lt
  have fits := chunk.fits
  rw [World.room_iff]
  unfold readChunkSize at fits
  omega

theorem World.processBufferedFrames_warranted {c : Bytes}
    (stream : w.buffer i ++ c = (cut (frames.map AcceptedFrame.octets) n).1.flatten) :
    Warranted server.options.maxMessageSize i w.toHub (w.processBufferedFrames server i).2.toHub :=
  World.framesLoop_warranted (fun item mem => by
    obtain ⟨accepted, -, same⟩ := List.mem_map.mp (cut_subset _ n mem)
    exact ⟨accepted, same⟩) _ stream

/-- While there is room, a call closes with 1009 only behind a fragment that is too long. -/
theorem World.frameReadsLoop_warranted (large : 116 ≤ server.options.maxMessageSize)
    (aligned : (w.conn i).Reading → Aligned i (frames.map AcceptedFrame.octets) tail n recvs w) :
    Warranted server.options.maxMessageSize i w.toHub
      (w.frameReadsLoop server i recvs).2.toHub := by
  have delimits := frameConsumer_delimits server i frames
  have reads : ∀ {w : World}, ¬ (!((w.conn i).isOpen && !(w.conn i).closeAfterWrite &&
      (w.conn i).upgraded)) = true → (w.conn i).Reading := by
    intro w goes
    simp only [Bool.not_eq_true', Bool.and_eq_false_iff, not_or, Bool.not_eq_false] at goes
    exact ⟨goes.1.1, by simpa using goes.1.2, goes.2⟩
  induction recvs generalizing w n with
  | nil =>
      unfold frameReadsLoop
      split
      · exact Warranted.refl _
      · rename_i goes
        have quiet : Warranted server.options.maxMessageSize i w.toHub (w.setErrno .eagain).toHub :=
          Warranted.of_grows (Grows.still rfl rfl)
        exact quiet.trans (World.processBufferedFrames_warranted (w := w.setErrno .eagain)
          (aligned (reads goes)).stream)
  | cons answer rest ih =>
      have quiet : ∀ e, Warranted server.options.maxMessageSize i w.toHub
          ((w.setRecvs rest).setErrno e).toHub :=
        fun e => Warranted.of_grows (Grows.still rfl rfl)
      rw [frameReadsLoop.eq_def]
      dsimp only
      split
      · exact Warranted.refl _
      · rename_i goes
        have aligned := aligned (reads goes)
        cases answer with
        | eof => exact Warranted.of_grows (Grows.still rfl rfl)
        | failed e =>
            cases e with
            | eintr => exact (quiet .eintr).trans (ih fun _ => ⟨aligned.stream, aligned.left⟩)
            | eagain =>
                exact (quiet .eagain).trans (World.processBufferedFrames_warranted
                  (w := (w.setRecvs rest).setErrno .eagain) aligned.stream)
            | ewouldblock =>
                exact (quiet .ewouldblock).trans (World.processBufferedFrames_warranted
                  (w := (w.setRecvs rest).setErrno .ewouldblock) aligned.stream)
            | enobufs | epipe | econnreset | ebadf | other =>
                exact Warranted.of_grows (Grows.still rfl rfl)
        | data chunk =>
            obtain ⟨side, room⟩ := Option.isSome_iff_exists.mp (aligned.room large)
            have heard : (((w.setRecvs rest).touch i).reads i).ensureCapacity chunk.octets.length
                (readLimit server.options.maxMessageSize) = some side := room
            have touched : Warranted server.options.maxMessageSize i w.toHub
                (((w.setRecvs rest).touch i).setReads i (side.append chunk.octets)).toHub :=
              Warranted.of_grows (Grows.still rfl rfl)
            have stream : (((w.setRecvs rest).touch i).setReads i (side.append chunk.octets)).buffer i ++
                (octetsOf rest ++ tail) = (cut (frames.map AcceptedFrame.octets) n).1.flatten := by
              rw [buffer_append heard, List.append_assoc, ← List.append_assoc chunk.octets]
              exact aligned.stream
            have processed := touched.trans (World.processBufferedFrames_warranted stream)
            dsimp only
            rw [heard]
            dsimp only
            split
            · rename_i ok
              have step : ReadStep server i (.data chunk :: rest, w) (rest, _) :=
                .data (reads goes) room (Prod.ext ok rfl)
              refine processed.trans (ih (n := n + chunk.octets.length) ?_)
              intro still
              obtain ⟨received, octets, after⟩ := step.aligned delimits aligned still
              rw [← List.append_cancel_right octets] at after
              exact after
            · exact processed

end

/-! ## When there is room -/

/-- Every chunk that the loop receives from `w` on finds room, and no call of it closes with
    1009 but behind a fragment that is too long. -/
def ReadsFit (server : Server) (i : ConnId) (w : World) (recvs : List RecvResult) : Prop :=
  (∀ w' chunk rest, ReflTransGen (ReadStep server i) (recvs, w) (.data chunk :: rest, w') →
    (w'.conn i).Reading → w'.Room server i chunk) ∧
  ∀ w' recvs', ReflTransGen (ReadStep server i) (recvs, w) (recvs', w') →
    Warranted server.options.maxMessageSize i w'.toHub (w'.frameReadsLoop server i recvs').2.toHub

/-- A Ping under a mask key of zeros. -/
def acceptedPing (maxMessageSize : Nat) (payload : Bytes) (short : payload.length ≤ 125) :
    AcceptedFrame maxMessageSize where
  octets := clientFrame ⟨0, 0, 0, 0⟩ payload opcodePing true
  frame :=
    { opcode := opcodePing
      final := true
      bytesConsumed := (clientFrame ⟨0, 0, 0, 0⟩ payload opcodePing true).length
      payload }
  parsed := by
    have control : opcodeIsControl opcodePing := by decide
    have notClose : opcodePing ≠ opcodeClose := by decide
    have ok := parseFrame_clientFrame ⟨0, 0, 0, 0⟩ ⟨opcodePing, true,
      (clientFrame ⟨0, 0, 0, 0⟩ payload opcodePing true).length, payload⟩ [] maxMessageSize
      ⟨show opcodeIsValid opcodePing by decide, fun _ => ⟨rfl, short⟩,
        fun data => absurd control data, fun close => absurd close notClose⟩
      (show payload.length < 2 ^ 63 by omega) rfl
    rwa [List.append_nil] at ok
  whole := rfl

/-- Pings of the largest size, and one with which they fill a chunk behind the first 130
    octets. -/
def longPings (maxMessageSize : Nat) : List (AcceptedFrame maxMessageSize) :=
  List.replicate 32 (acceptedPing maxMessageSize (List.replicate 125 0) (by simp)) ++
    [acceptedPing maxMessageSize (List.replicate 28 0) (by simp)]

/-- The octets of `longPings`, which do not depend on the limit. -/
def longPingOctets : Bytes :=
  (List.replicate 32 (clientFrame ⟨0, 0, 0, 0⟩ (List.replicate 125 0) opcodePing true)).flatten ++
    clientFrame ⟨0, 0, 0, 0⟩ (List.replicate 28 0) opcodePing true

theorem longPings_octets (maxMessageSize : Nat) :
    (longPings maxMessageSize).flatMap AcceptedFrame.octets = longPingOctets := by
  simp only [longPings, List.flatMap_def, List.map_append, List.map_replicate, List.map_cons,
    List.map_nil, List.flatten_append, List.flatten_cons, List.flatten_nil, List.append_nil]
  rfl

/-- All but the last octet of the first Ping. -/
def longPingStart : Chunk := ⟨longPingOctets.take 130, by decide +kernel, by decide +kernel⟩

/-- The rest, a full chunk. -/
def longPingRest : Chunk := ⟨longPingOctets.drop 130, by decide +kernel, by decide +kernel⟩

theorem World.touch_reading {w : World} {i : ConnId} (reading : (w.conn i).Reading) :
    ((w.touch i).conn i).Reading := by
  have same : (w.touch i).conn i = { w.conn i with lastActivityUsec := w.now.1 } := by
    simp [touch, Hub.now]
  rw [same]
  exact reading

theorem World.processBufferedFrames_incomplete {server : Server} {i : ConnId} {w : World}
    (reading : (w.conn i).Reading)
    (waits : parseFrame (w.buffer i) server.options.maxMessageSize = .incomplete) :
    w.processBufferedFrames server i = (true, w) := by
  have bite : (frameConsumer server i).bite w.toHub (w.buffer i) = .wait := by
    change frameBite server i w.toHub (w.buffer i) = _
    rw [frameBite, if_neg (not_not.mpr reading), waits]
  rw [processBufferedFrames_eq, Consumer.drain_wait bite, land, setBuffer_buffer]

theorem ReadStep.first {server : Server} {i : ConnId} {w : World} {chunk : Chunk}
    (rest : List RecvResult) (reading : (w.conn i).Reading) (empty : w.buffer i = [])
    (waits : parseFrame chunk.octets server.options.maxMessageSize = .incomplete) :
    ∃ w', ReadStep server i (.data chunk :: rest, w) (rest, w') ∧ (w'.conn i).Reading ∧
      w'.buffer i = chunk.octets := by
  have fits : w.Room server i chunk := by
    have small := chunk.fits
    rw [World.room_iff, empty, List.length_nil]
    unfold readChunkSize at small
    omega
  obtain ⟨side, room⟩ := Option.isSome_iff_exists.mp fits
  have buffer := World.buffer_append (w := (w.setRecvs rest).touch i) room
  have before : ((w.setRecvs rest).touch i).buffer i = [] := empty
  rw [before, List.nil_append] at buffer
  have still : (((w.setRecvs rest).touch i).conn i).Reading := World.touch_reading reading
  have processed := World.processBufferedFrames_incomplete
    (w := ((w.setRecvs rest).touch i).setReads i (side.append chunk.octets)) still
    (by rw [buffer]; exact waits)
  exact ⟨_, .data reading room processed, still, buffer⟩

theorem longPing_delivered :
    octetsOf [.data longPingStart, .data longPingRest] = longPingOctets := by
  simp only [octetsOf, longPingStart, longPingRest, List.append_nil, List.take_append_drop]

theorem longPingStart_incomplete (maxMessageSize : Nat) :
    parseFrame longPingStart.octets maxMessageSize = .incomplete := by
  have cut : longPingStart.octets ++
      (clientFrame ⟨0, 0, 0, 0⟩ (List.replicate 125 0) opcodePing true).drop 130 =
        (acceptedPing maxMessageSize (List.replicate 125 0) (by simp)).octets := by
    change _ = clientFrame ⟨0, 0, 0, 0⟩ (List.replicate 125 0) opcodePing true
    decide +kernel
  exact (acceptedPing maxMessageSize (List.replicate 125 0) (by simp)).incomplete cut
    (by decide +kernel)

/-- With a smaller limit than 116 there is no room behind an unfinished Ping. -/
theorem longPings_full {server : Server} {i : ConnId} {w : World}
    (small : server.options.maxMessageSize < 116) (reading : (w.conn i).Reading)
    (empty : w.buffer i = []) :
    ¬ ReadsFit server i w [.data longPingStart, .data longPingRest] := by
  intro fit
  obtain ⟨w', step, still, buffer⟩ := ReadStep.first [.data longPingRest] reading
    empty (longPingStart_incomplete _)
  have room := fit.1 w' longPingRest [] (ReflTransGen.single step) still
  have first : longPingStart.octets.length = 130 := by decide +kernel
  have second : longPingRest.octets.length = 4096 := by decide +kernel
  rw [World.room_iff, buffer, first, second] at room
  omega

/-- A chunk finds room exactly if the octets of the unfinished frame and its own are at
    most the limit and 4110. On every stream and for every cut there is room exactly if
    the limit is 116 or more, and then no call closes with 1009 but behind a fragment that
    is too long. -/
theorem reads_fit_iff (server : Server) (i : ConnId) :
    (∀ (w : World) (recvs : List RecvResult)
      (frames : List (AcceptedFrame server.options.maxMessageSize)), w.buffer i = [] →
      octetsOf recvs <+: frames.flatMap AcceptedFrame.octets →
      ∀ w' chunk rest, ReflTransGen (ReadStep server i) (recvs, w) (.data chunk :: rest, w') →
        (w'.conn i).Reading →
          ∃ received, octetsOf recvs = received ++ (chunk.octets ++ octetsOf rest) ∧
            (w'.Room server i chunk ↔
              (cut (frames.map AcceptedFrame.octets) received.length).2 + chunk.octets.length ≤
                server.options.maxMessageSize + 4110)) ∧
      ((∀ (w : World) (recvs : List RecvResult)
        (frames : List (AcceptedFrame server.options.maxMessageSize)), w.buffer i = [] →
        octetsOf recvs <+: frames.flatMap AcceptedFrame.octets → ReadsFit server i w recvs) ↔
          116 ≤ server.options.maxMessageSize) := by
  have start : ∀ {w : World} {recvs : List RecvResult} {tail : Bytes}
      {frames : List (AcceptedFrame server.options.maxMessageSize)}, w.buffer i = [] →
      octetsOf recvs ++ tail = frames.flatMap AcceptedFrame.octets →
      Aligned i (frames.map AcceptedFrame.octets) tail 0 recvs w := by
    intro w recvs tail frames empty stream
    have whole : cut (frames.map AcceptedFrame.octets) 0 = (frames.map AcceptedFrame.octets, 0) := by
      apply cut_zero
      intro item mem
      obtain ⟨accepted, -, rfl⟩ := List.mem_map.mp mem
      exact accepted.nonempty
    refine ⟨?_, ?_⟩
    · rw [empty, List.nil_append, stream, List.flatMap_def, whole]
    · rw [empty, whole, List.length_nil]
  refine ⟨?_, ?_,
    fun large w recvs frames empty delivered => ⟨?_,
      ?_⟩⟩
  · intro w recvs frames empty delivered w' chunk rest steps reading
    obtain ⟨tail, stream⟩ := delivered
    obtain ⟨received, octets, aligned⟩ := ReadSteps.aligned (frameConsumer_delimits server i frames)
      steps (start empty stream) reading
    refine ⟨received, octets, ?_⟩
    rw [World.room_iff, aligned.left]
  · intro all
    by_contra small
    have reading : (({ conn := fun _ => { Connection.opened 7 with upgraded := true } } :
        World).conn i).Reading := ⟨rfl, rfl, rfl⟩
    refine longPings_full (Nat.lt_of_not_le small) reading rfl (all _ _ (longPings _) rfl ?_)
    rw [longPings_octets, longPing_delivered]
  · intro w' chunk rest steps reading
    obtain ⟨tail, stream⟩ := delivered
    obtain ⟨received, -, aligned⟩ := ReadSteps.aligned (frameConsumer_delimits server i frames)
      steps (start empty stream) reading
    exact aligned.room large
  · intro w' recvs' steps
    obtain ⟨tail, stream⟩ := delivered
    by_cases reading : (w'.conn i).Reading
    · obtain ⟨received, -, aligned⟩ := ReadSteps.aligned (frameConsumer_delimits server i frames)
        steps (start empty stream) reading
      exact World.frameReadsLoop_warranted large fun _ => aligned
    · have aligned : (w'.conn i).Reading →
          Aligned i (frames.map AcceptedFrame.octets) tail 0 recvs' w' := fun still => absurd still reading
      exact World.frameReadsLoop_warranted large aligned

/-- Long Pings under the default limit. -/
theorem reads_fit_iff_default :
    let server : Server := { options := .array fun _ => none, lib := sampleLib }
    let w : World := { conn := fun _ => { Connection.opened 7 with upgraded := true } }
    let frames := longPings server.options.maxMessageSize
    116 ≤ server.options.maxMessageSize ∧ w.buffer 0 = [] ∧
      octetsOf [.data longPingStart, .data longPingRest] <+: frames.flatMap AcceptedFrame.octets ∧
      (w.conn 0).Reading ∧ (w.Room server 0 longPingStart ↔
        (cut (frames.map AcceptedFrame.octets) 0).2 + longPingStart.octets.length ≤
          server.options.maxMessageSize + 4110) ∧
      ReadsFit server 0 w [.data longPingStart, .data longPingRest] := by
  intro server w frames
  have large : 116 ≤ server.options.maxMessageSize := by decide
  have delivered : octetsOf [.data longPingStart, .data longPingRest] <+:
      frames.flatMap AcceptedFrame.octets := by
    rw [longPings_octets, longPing_delivered]
  have reading : (w.conn 0).Reading := ⟨rfl, rfl, rfl⟩
  obtain ⟨received, octets, room⟩ := (reads_fit_iff server 0).1 w _ frames rfl delivered w
    longPingStart [.data longPingRest] ReflTransGen.refl reading
  have none : received = [] := by
    have length := congrArg List.length octets
    simp only [octetsOf, List.length_append] at length
    exact List.eq_nil_of_length_eq_zero (by omega)
  rw [none] at room
  exact ⟨large, rfl, delivered, reading, room,
    (reads_fit_iff server 0).2.mpr large w _ frames rfl delivered⟩

/-- A client that only sends Pings is told that its message is too big, before any frame
    is handled. -/
theorem pings_closed_as_too_big :
    let options : ServerOptions :=
      { maxMessageSize := 1, maxQueuedBytes := 1024, maxConnections := 1, handshakeTimeoutMs := 1
        idleTimeoutMs := 1, pingIntervalMs := 0, pongTimeoutMs := 1
        maxMessageSize_pos := by decide, maxQueuedBytes_pos := by decide
        maxConnections_pos := by decide, handshakeTimeoutMs_pos := by decide
        idleTimeoutMs_pos := by decide, pingIntervalMs_nonneg := by decide
        pongTimeoutMs_pos := by decide }
    let server : Server := { options := .object options, lib := sampleLib }
    let w : World :=
      { conn := fun _ => { Connection.opened 7 with upgraded := true }
        env := { recvs := [.data longPingStart, .data longPingRest] } }
    octetsOf w.env.recvs = (longPings server.options.maxMessageSize).flatMap AcceptedFrame.octets ∧
      ¬ ReadsFit server 0 w w.env.recvs ∧
      (w.processFrameReads server 0).2.trace.any (Event.isTooBig 0) = true ∧
      (w.processFrameReads server 0).2.handled.length = 0 := by
  intro options server w
  refine ⟨?_, longPings_full (by decide) ⟨rfl, rfl, rfl⟩ rfl, by decide +kernel, by decide +kernel⟩
  rw [longPings_octets]
  exact longPing_delivered

end PhpWebSocket
