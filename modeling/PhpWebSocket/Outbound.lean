import PhpWebSocket.Effects

/-! # The stream of a client

What has gone out to each client in a run of the server, whatever frames, timeouts,
callbacks and closes there have been on all the connections: while a connection is open,
the frames that `send_frame` has accepted for it, but for what its queue holds; once it
is closed, the first of these and at most a part of one more. So the client decodes the
accepted frames in their order, however the network cuts them, and nothing else.
-/

namespace PhpWebSocket

open Lib Relation

/-- A frame that `send_frame` has accepted. -/
structure SentFrame where
  opcode : UInt8
  payload : Bytes
  deriving Repr, DecidableEq

namespace SentFrame

def octets (frame : SentFrame) : Bytes := serverFrame frame.payload frame.opcode

/-- `send_frame` lets it through. -/
structure Fits (frame : SentFrame) (limit : Nat) : Prop where
  valid : opcodeIsValid frame.opcode = true
  length : frame.octets.length ≤ limit

end SentFrame

/-- The frame for the connection `i` of which an event tells. -/
def Event.sentTo (i : ConnId) : Event → Option SentFrame
  | .frame j _ opcode payload => if j = i then some ⟨opcode, payload⟩ else none
  | _ => none

/-- The frames accepted for the connection `i`, in order. -/
def Trace.sent (trace : Trace) (i : ConnId) : List SentFrame := trace.filterMap (Event.sentTo i)

@[simp] theorem Trace.sent_append (first next : Trace) (i : ConnId) :
    Trace.sent (first ++ next) i = Trace.sent first i ++ Trace.sent next i := List.filterMap_append ..

theorem Event.sentTo_of_not_frame {e : Event} (other : e.isFrame = false) (i : ConnId) :
    e.sentTo i = none := by
  cases e <;> first | rfl | cases other

theorem Hub.emit_sent (h : Hub) {e : Event} (other : e.isFrame = false) (i : ConnId) :
    (h.emit e).trace.sent i = h.trace.sent i := by
  have none : Trace.sent [e] i = [] := by
    simp only [Trace.sent, List.filterMap_cons, Event.sentTo_of_not_frame other, List.filterMap_nil]
  rw [emit, Trace.sent_append, none, List.append_nil]

theorem mem_sent {trace : Trace} {i : ConnId} {frame : SentFrame} (mem : frame ∈ trace.sent i) :
    ∃ source, .frame i source frame.opcode frame.payload ∈ trace.of i := by
  obtain ⟨e, logged, told⟩ := List.mem_filterMap.mp mem
  cases e with
  | frame j source opcode payload =>
      simp only [Event.sentTo] at told
      split at told
      · rename_i same
        subst same
        cases told
        exact ⟨source, List.mem_filter.mpr ⟨logged, by simp [Event.about]⟩⟩
      · cases told
  | _ => cases told

/-- A beginning of the frame behind the first `k`, not in full. -/
def Begun (frames : List SentFrame) (k : Nat) (tail : Bytes) : Prop :=
  tail = [] ∨ ∃ next, frames[k]? = some next ∧ tail <+: next.octets ∧ tail ≠ next.octets

/-- The beginning of a frame that the socket did not take in full. -/
def Torn (limit : Nat) (tail : Bytes) : Prop :=
  tail = [] ∨ ∃ frame : SentFrame, frame.Fits limit ∧ tail <+: frame.octets ∧ tail ≠ frame.octets

theorem Begun.torn {limit k : Nat} {frames : List SentFrame} {tail : Bytes}
    (fits : ∀ frame ∈ frames, frame.Fits limit) (begun : Begun frames k tail) : Torn limit tail := by
  apply begun.imp_right
  rintro ⟨next, here, inside⟩
  exact ⟨next, fits next (List.mem_of_getElem? here), inside⟩

/-- The first of the frames, and at most a beginning of one more. -/
def Front (limit : Nat) (frames : List SentFrame) (octets : Bytes) : Prop :=
  ∃ k tail, k ≤ frames.length ∧ octets = ((frames.take k).map SentFrame.octets).flatten ++ tail ∧
    Torn limit tail

theorem begun_of_isPrefix {frames : List SentFrame} {octets : Bytes}
    (front : octets <+: (frames.map SentFrame.octets).flatten) :
    ∃ k tail, k ≤ frames.length ∧ octets = ((frames.take k).map SentFrame.octets).flatten ++ tail ∧
      Begun frames k tail := by
  obtain ⟨k, tail, bound, split, torn⟩ := exists_whole_of_isPrefix front
  rw [List.length_map] at bound
  rw [← List.map_take] at split
  refine ⟨k, tail, bound, split, torn.imp_right ?_⟩
  rintro ⟨item, here, inside⟩
  rw [List.getElem?_map] at here
  obtain ⟨frame, there, rfl⟩ := Option.map_eq_some_iff.mp here
  exact ⟨frame, there, inside⟩

theorem front_of_isPrefix {limit : Nat} {frames : List SentFrame} {octets : Bytes}
    (fits : ∀ frame ∈ frames, frame.Fits limit)
    (front : octets <+: (frames.map SentFrame.octets).flatten) : Front limit frames octets := by
  obtain ⟨k, tail, bound, split, begun⟩ := begun_of_isPrefix front
  exact ⟨k, tail, bound, split, begun.torn fits⟩

theorem Front.of_isPrefix {limit : Nat} {frames : List SentFrame} {octets received : Bytes}
    (front : Front limit frames octets) (fits : ∀ frame ∈ frames, frame.Fits limit)
    (arrived : received <+: octets) : Front limit frames received := by
  obtain ⟨k, tail, bound, rfl, torn⟩ := front
  by_cases inside : received.length ≤ ((frames.take k).map SentFrame.octets).flatten.length
  · apply front_of_isPrefix fits
    have short := List.prefix_of_prefix_length_le arrived (List.prefix_append _ tail) inside
    apply short.trans
    rw [List.map_take]
    exact ⟨((frames.map SentFrame.octets).drop k).flatten, by
      rw [← List.flatten_append, List.take_append_drop]⟩
  · obtain ⟨part, rfl⟩ := List.prefix_of_prefix_length_le (List.prefix_append _ tail) arrived
      (Nat.le_of_not_le inside)
    have shorter := (List.prefix_append_right_inj _).mp arrived
    refine ⟨k, part, bound, rfl, ?_⟩
    rcases torn with rfl | ⟨frame, fit, begins, strict⟩
    · exact Or.inl (List.prefix_nil.mp shorter)
    · refine Or.inr ⟨frame, fit, shorter.trans begins, ?_⟩
      rintro rfl
      exact strict (begins.eq_of_length_le shorter.length_le)

/-- What a connection for which `frames` were accepted has put on the wire. -/
structure Streamed (frames : List SentFrame) (conn : Connection) : Prop where
  fits : ∀ frame ∈ frames, frame.Fits conn.maxQueuedBytes
  live : conn.isOpen = true → Intact (frames.map SentFrame.octets) conn
  ended : conn.isOpen = false → Front conn.maxQueuedBytes frames conn.wire

namespace Streamed

variable {frames : List SentFrame} {conn conn' : Connection}

/-- Whether it is open or not, all that is out began with frames that were accepted. -/
theorem front (delivered : Streamed frames conn) : Front conn.maxQueuedBytes frames conn.wire := by
  cases isOpen : conn.isOpen with
  | false => exact delivered.ended isOpen
  | true => exact front_of_isPrefix delivered.fits (delivered.live isOpen).carries.isPrefix

theorem of_outcome (fits : ∀ frame ∈ frames, frame.Fits conn.maxQueuedBytes)
    (out : Outcome (frames.map SentFrame.octets) [] conn) : Streamed frames conn where
  fits := fits
  live := out.live
  ended shut := front_of_isPrefix fits (by simpa only [List.append_nil] using out.closed shut)

theorem shut (delivered : Streamed frames conn) (limit : conn'.maxQueuedBytes = conn.maxQueuedBytes)
    (wire : conn'.wire = conn.wire) (closed : conn'.isOpen = false) : Streamed frames conn' where
  fits := by simpa only [limit] using delivered.fits
  live isOpen := absurd (closed.symm.trans isOpen) Bool.false_ne_true
  ended _ := by simpa only [limit, wire] using delivered.front

theorem alike (delivered : Streamed frames conn) (limit : conn'.maxQueuedBytes = conn.maxQueuedBytes)
    (wire : conn'.wire = conn.wire) (queue : conn'.writeQueue = conn.writeQueue)
    (offset : conn'.writeQueueOffset = conn.writeQueueOffset)
    (bytes : conn'.queuedBytes = conn.queuedBytes)
    (opens : conn'.isOpen = true → conn.isOpen = true) : Streamed frames conn' := by
  cases isOpen : conn'.isOpen with
  | false => exact delivered.shut limit wire isOpen
  | true =>
      have intact := delivered.live (opens isOpen)
      refine ⟨by simpa only [limit] using delivered.fits, fun _ => ⟨?_, ?_⟩,
        fun closed => absurd (closed.symm.trans isOpen) Bool.false_ne_true⟩
      · simpa only [wire, queue, offset] using intact.carries
      · simpa only [bytes, queue, offset] using intact.bytes

theorem mark (delivered : Streamed frames conn) (mark : Mark conn conn') : Streamed frames conn' := by
  cases mark with
  | shut => exact delivered.shut rfl rfl rfl
  | fragment | pong | notified | defer => exact delivered.alike rfl rfl rfl rfl rfl id

theorem opened (fd acceptedAtUsec lastActivityUsec maxQueuedBytes : Nat) :
    Streamed [] { Connection.opened fd with acceptedAtUsec, lastActivityUsec, maxQueuedBytes } where
  fits := by simp
  live _ := ⟨⟨rfl⟩, rfl⟩
  ended closed := absurd closed.symm Bool.false_ne_true

end Streamed

/-! ## One operation -/

/-- The answers of `send` and of `watch_write` that are left. -/
structure Env.Later (env env' : Env) : Prop where
  sends : env'.sends <:+ env.sends
  watchWrites : env'.watchWrites <:+ env.watchWrites

namespace Env.Later

variable {env env' env'' : Env}

theorem of_same (sends : env'.sends = env.sends) (watchWrites : env'.watchWrites = env.watchWrites) :
    env.Later env' :=
  ⟨sends ▸ List.suffix_refl _, watchWrites ▸ List.suffix_refl _⟩

theorem refl (env : Env) : env.Later env := of_same rfl rfl

theorem trans (first : env.Later env') (next : env'.Later env'') : env.Later env'' :=
  ⟨next.sends.trans first.sends, next.watchWrites.trans first.watchWrites⟩

theorem sane (later : env.Later env') (sane : env.Sane) : env'.Sane where
  noZero mem := sane.noZero (later.sends.subset mem)
  sendNoBufs mem := sane.sendNoBufs (later.sends.subset mem)
  watchNoBufs mem := sane.watchNoBufs (later.watchWrites.subset mem)

end Env.Later

theorem writeSome_suffix (sends : List SendResult) (errno : Option Errno) (len : Nat) :
    (writeSome sends errno len).sends <:+ sends := by
  fun_induction writeSome with
  | case1 | case2 => exact List.suffix_refl _
  | case3 more rest errno len written ih => exact ih.trans (List.suffix_cons _ _)
  | case5 rest errno len ih => exact ih.trans (List.suffix_cons _ _)
  | case4 | case6 | case7 | case8 => exact List.suffix_cons _ _

theorem sendAll_suffix (sends : List SendResult) (errno : Option Errno) (len : Nat) :
    (sendAll sends errno len).sends <:+ sends := by
  fun_induction sendAll with
  | case1 | case2 => exact List.suffix_refl _
  | case3 more rest errno len written ih => exact ih.trans (List.suffix_cons _ _)
  | case5 rest errno len ih => exact ih.trans (List.suffix_cons _ _)
  | case4 | case6 => exact List.suffix_cons _ _

theorem writeSome_short (sends : List SendResult) (errno : Option Errno) (len : Nat) :
    (writeSome sends errno len).ok = false → (writeSome sends errno len).count < len := by
  fun_induction writeSome with
  | case1 | case2 | case6 | case7 => simp
  | case3 more rest errno len written ih =>
      intro failed
      have fewer := ih failed
      simp only [Written.after]
      omega
  | case5 rest errno len ih => exact ih
  | case4 | case8 => simp

namespace Link

variable {frames : List SentFrame}

theorem watchWrite_later (env : Env) (fd : Option Nat) : env.Later (env.watchWrite fd).2 := by
  simp only [Env.watchWrite]
  split
  · exact .of_same rfl rfl
  · rename_i rest answers
    exact ⟨List.suffix_refl _, answers ▸ List.suffix_cons none rest⟩
  · rename_i e rest answers
    exact ⟨List.suffix_refl _, answers ▸ List.suffix_cons (some e) rest⟩

theorem queueFrame_later (link : Link) (frame : Bytes) (offset : Nat) :
    link.env.Later (link.queueFrame frame offset).2.env := by
  simp only [queueFrame]
  split
  · exact .of_same rfl rfl
  · split
    · split <;> exact watchWrite_later _ _
    · exact .refl _

theorem settle_env (result : Bool × Link) : (settle result).2.env = result.2.env := by
  unfold settle
  split <;> rfl

theorem sendFrame_later (link : Link) (payload : Bytes) (opcode : UInt8) :
    link.env.Later (link.sendFrame payload opcode).2.env := by
  have written (frame : Bytes) : link.env.Later
      (link.wrote frame 0 (writeSome link.env.sends link.env.errno frame.length)).env :=
    ⟨writeSome_suffix _ _ _, List.suffix_refl _⟩
  simp only [sendFrame]
  split
  · exact .refl _
  · split
    · exact .refl _
    · rename_i frame _
      split
      · exact .of_same rfl rfl
      · split
        · rw [settle_env]
          exact link.queueFrame_later frame 0
        · split
          · rw [settle_env]
            exact (written frame).trans (queueFrame_later _ _ _)
          · rw [settle_env]
            exact written frame

theorem closeSocket_later (link : Link) : link.env.Later link.closeSocket.env := by
  simp only [closeSocket]
  split <;> exact .of_same rfl rfl

theorem closeAfterWrite_later (link : Link) : link.env.Later link.closeAfterWrite.env := by
  unfold closeAfterWrite
  split
  · exact .refl _
  · split
    · exact link.closeSocket_later
    · exact .refl _

theorem flushLoop_later (queue : List Bytes) (link : Link) :
    link.env.Later (flushLoop queue link).2.env := by
  induction queue generalizing link with
  | nil => exact .refl _
  | cons frame rest ih =>
      simp only [flushLoop]
      generalize written : link.wrote frame link.conn.writeQueueOffset (writeSome link.env.sends
        link.env.errno (frame.length - link.conn.writeQueueOffset)) = sent
      have out : link.env.Later sent.env := by
        rw [← written]
        exact ⟨writeSome_suffix _ _ _, List.suffix_refl _⟩
      have further (next : Link) (same : next.env = sent.env) :
          link.env.Later (flushLoop rest next).2.env := out.trans (same ▸ ih next)
      split
      · exact out
      · split
        · exact out
        · exact further _ rfl

theorem flush_later (link : Link) : link.env.Later link.flush.2.env := by
  have looped := flushLoop_later link.conn.writeQueue link
  have closed {next : Link} (later : link.env.Later next.env) :
      link.env.Later (if next.conn.closeAfterWrite then next.closeSocket else next).env := by
    split
    · exact later.trans next.closeSocket_later
    · exact later
  simp only [flush]
  split
  · exact .refl _
  · split
    · exact looped
    · exact looped
    · apply closed
      split
      · exact looped.trans (.of_same rfl rfl)
      · exact looped

theorem sendBytes_later (env : Env) (fd : Option Nat) (text : Bytes) :
    env.Later (env.sendBytes fd text).2 := by
  unfold Env.sendBytes
  split
  · split <;> exact .of_same rfl rfl
  · exact ⟨sendAll_suffix _ _ _, List.suffix_refl _⟩

/-- `send_frame` writes a beginning of its frame, which it cuts off only where it fails. -/
theorem sendFrame_wire (link : Link) (payload : Bytes) (opcode : UInt8) :
    ∃ n, (link.sendFrame payload opcode).2.conn.wire =
        link.conn.wire ++ (serverFrame payload opcode).take n ∧
      (n = 0 ∨ link.conn.writeQueue = [] ∧
        (serverFrame payload opcode).length ≤ link.conn.maxQueuedBytes) ∧
      ((link.sendFrame payload opcode).1 = false → n < (serverFrame payload opcode).length) := by
  have settled (result : Bool × Link) :
      (settle result).1 = result.1 ∧ (settle result).2.conn.wire = result.2.conn.wire := by
    unfold settle
    split
    · rename_i failed
      simp only [Bool.and_eq_true, Bool.not_eq_true'] at failed
      exact ⟨failed.1.symm, rfl⟩
    · exact ⟨rfl, rfl⟩
  have queued (link : Link) (frame : Bytes) (offset : Nat) :
      (link.queueFrame frame offset).2.conn.wire = link.conn.wire := by
    simp only [queueFrame]
    split
    · rfl
    · split
      · split <;> rfl
      · rfl
  have positive : 0 < (serverFrame payload opcode).length := Nat.succ_pos _
  simp only [sendFrame, packPayload_server]
  generalize serverFrame payload opcode = frame at positive
  have nothing : link.conn.wire = link.conn.wire ++ frame.take 0 := by simp
  split
  · exact ⟨0, nothing, Or.inl rfl, fun _ => positive⟩
  · split
    · exact ⟨0, nothing, Or.inl rfl, fun _ => positive⟩
    · rename_i fits
      split
      · refine ⟨0, ?_, Or.inl rfl, fun _ => positive⟩
        rw [(settled _).2, queued]
        exact nothing
      · rename_i idle
        have free : link.conn.writeQueue = [] ∧ frame.length ≤ link.conn.maxQueuedBytes :=
          ⟨not_not.mp idle, Nat.le_of_not_lt fits⟩
        split
        · rename_i partly
          simp only [Bool.and_eq_true, decide_eq_true_eq] at partly
          refine ⟨_, ?_, Or.inr free, fun _ => partly.2⟩
          rw [(settled _).2, queued]
          rfl
        · refine ⟨_, (settled _).2, Or.inr free, fun failed => ?_⟩
          rw [(settled _).1] at failed
          exact writeSome_short _ _ _ failed

/-- A call of `send_frame`: on success the frame is among those delivered, on failure no
    octet, or not all of its octets, went out. -/
theorem sendFrame_delivered (link : Link) (delivered : Streamed frames link.conn)
    (sane : link.env.Sane) (payload : Bytes) {opcode : UInt8} (valid : opcodeIsValid opcode = true) :
    Streamed (if (link.sendFrame payload opcode).1 then frames ++ [⟨opcode, payload⟩] else frames)
      (link.sendFrame payload opcode).2.conn := by
  by_cases reading : link.conn.Reading
  · have intact := delivered.live reading.1
    have post := sendFrame_post intact sane payload opcode
    have limit := (sendFrame_yields 0 link payload opcode).maxQueuedBytes
    have kept : ∀ frame ∈ frames, frame.Fits (link.sendFrame payload opcode).2.conn.maxQueuedBytes := by
      simpa only [limit] using delivered.fits
    cases sent : (link.sendFrame payload opcode).1 with
    | true =>
        have fits := (sendFrame_accepts sent).2
        rw [SendPost, sent, if_pos rfl] at post
        rw [if_pos rfl]
        apply Streamed.of_outcome
        · intro frame mem
          rcases List.mem_append.mp mem with old | new
          · exact kept frame old
          · cases List.mem_singleton.mp new
            exact ⟨valid, limit ▸ fits⟩
        · rw [List.map_append]
          exact Outcome.of_intact post.1 []
    | false =>
        rw [SendPost, sent, if_neg Bool.false_ne_true] at post
        rw [if_neg Bool.false_ne_true]
        obtain ⟨n, wire, free, short⟩ := link.sendFrame_wire payload opcode
        refine ⟨kept, post.live, fun _ => ?_⟩
        rcases free with rfl | ⟨idle, fits⟩
        · rw [List.take_zero, List.append_nil] at wire
          rw [wire, limit]
          exact delivered.front
        · have before : link.conn.wire = (frames.map SentFrame.octets).flatten := by
            simpa only [idle, unsent_nil, List.append_nil] using intact.carries.stream
          refine ⟨frames.length, (serverFrame payload opcode).take n, Nat.le_refl _, ?_, Or.inr
            ⟨⟨opcode, payload⟩, ⟨valid, limit ▸ fits⟩, List.take_prefix _ _, ?_⟩⟩
          · rw [wire, before, List.take_length]
          · intro same
            have length := congrArg List.length same
            have less := short sent
            simp only [List.length_take, SentFrame.octets] at length
            omega
  · rw [sendFrame_refused reading]
    exact delivered

theorem closeSocket_delivered (link : Link) (delivered : Streamed frames link.conn) :
    Streamed frames link.closeSocket.conn := delivered.shut rfl rfl rfl

theorem closeAfterWrite_delivered (link : Link) (delivered : Streamed frames link.conn) :
    Streamed frames link.closeAfterWrite.conn := by
  unfold closeAfterWrite
  split
  · exact delivered
  · split
    · exact link.closeSocket_delivered delivered
    · exact delivered.alike rfl rfl rfl rfl rfl id

theorem flush_delivered (link : Link) (delivered : Streamed frames link.conn) :
    Streamed frames link.flush.2.conn := by
  cases isOpen : link.conn.isOpen with
  | true =>
      apply Streamed.of_outcome _ (flush_outcome (delivered.live isOpen))
      simpa only [(flush_yields 0 link).maxQueuedBytes] using delivered.fits
  | false =>
      have refused : link.flush = (false, link) := by
        simp only [flush, isOpen, Bool.not_false, Bool.true_or, if_true]
      rw [refused]
      exact delivered

end Link

/-! ## The whole server -/

/-- Every connection has put on the wire what was accepted for it. -/
structure Streaming (server : Server) (h : Hub) : Prop where
  sane : h.env.Sane
  unborn : ∀ i, h.nextConnectionId ≤ i → (h.conn i).isOpen = false ∧ h.trace.sent i = []
  limit : ∀ i, i < h.nextConnectionId → (h.conn i).maxQueuedBytes = server.options.maxQueuedBytes
  delivered : ∀ i, Streamed (h.trace.sent i) (h.conn i)

namespace Streaming

variable {server : Server} {most : Nat} {served : ConnId → Prop} {h h' : Hub} {i : ConnId}

theorem of_same (streaming : Streaming server h) (later : h.env.Later h'.env)
    (next : h'.nextConnectionId = h.nextConnectionId) (conn : h'.conn = h.conn)
    (sent : ∀ i, h'.trace.sent i = h.trace.sent i) : Streaming server h' where
  sane := later.sane streaming.sane
  unborn i beyond := by
    rw [conn, sent]
    exact streaming.unborn i (next ▸ beyond)
  limit i born := by
    rw [conn]
    exact streaming.limit i (next ▸ born)
  delivered i := by
    rw [conn, sent]
    exact streaming.delivered i

/-- A step on one connection, which leaves the closed ones closed and silent. -/
theorem evolve (streaming : Streaming server h) {conn : Connection} {env : Env} {events : Trace}
    (later : h.env.Later env) (limit : conn.maxQueuedBytes = (h.conn i).maxQueuedBytes)
    (closed : (h.conn i).isOpen = false → conn.isOpen = false ∧ Trace.sent events i = [])
    (own : ∀ j, j ≠ i → Trace.sent events j = [])
    (delivered : Streamed (h.trace.sent i ++ Trace.sent events i) conn) :
    Streaming server (h.evolve i conn env events) := by
  have self : (h.evolve i conn env events).conn i = conn := Function.update_self ..
  have elsewhere (j : ConnId) (other : j ≠ i) : (h.evolve i conn env events).conn j = h.conn j :=
    Function.update_of_ne other ..
  have trace (j : ConnId) : (h.evolve i conn env events).trace.sent j =
      h.trace.sent j ++ Trace.sent events j := Trace.sent_append ..
  refine ⟨later.sane streaming.sane, fun j beyond => ?_, fun j born => ?_, fun j => ?_⟩
  · by_cases same : j = i
    · obtain ⟨shut, unsent⟩ := streaming.unborn i (same ▸ beyond)
      rw [same, self, trace, unsent, (closed shut).2]
      exact ⟨(closed shut).1, rfl⟩
    · rw [elsewhere j same, trace, own j same, List.append_nil]
      exact streaming.unborn j beyond
  · by_cases same : j = i
    · rw [same, self, limit]
      exact streaming.limit i (same ▸ born)
    · rw [elsewhere j same]
      exact streaming.limit j born
  · by_cases same : j = i
    · rw [same, self, trace]
      exact delivered
    · rw [elsewhere j same, trace, own j same, List.append_nil]
      exact streaming.delivered j

theorem relink (streaming : Streaming server h) {link : Link} (later : h.env.Later link.env)
    (limit : link.conn.maxQueuedBytes = (h.conn i).maxQueuedBytes)
    (closed : (h.conn i).isOpen = false → link.conn.isOpen = false)
    (delivered : ∀ frames, Streamed frames (h.conn i) → Streamed frames link.conn) :
    Streaming server (h.relink i link) := by
  rw [Hub.relink_eq]
  apply streaming.evolve later limit (fun shut => ⟨closed shut, rfl⟩) (fun _ _ => rfl)
  rw [show Trace.sent [] i = [] from rfl, List.append_nil]
  exact delivered _ (streaming.delivered i)

theorem setConn (streaming : Streaming server h) {conn : Connection}
    (limit : conn.maxQueuedBytes = (h.conn i).maxQueuedBytes)
    (closed : (h.conn i).isOpen = false → conn.isOpen = false)
    (delivered : ∀ frames, Streamed frames (h.conn i) → Streamed frames conn) :
    Streaming server (h.setConn i conn) := by
  have linked : Streaming server (h.relink i ⟨conn, h.env⟩) :=
    streaming.relink (.refl _) limit closed delivered
  exact linked

theorem emit (streaming : Streaming server h) {e : Event} (other : e.isFrame = false) :
    Streaming server (h.emit e) :=
  streaming.of_same (.refl _) rfl rfl (h.emit_sent other)

theorem sendFrame (streaming : Streaming server h) (i : ConnId) (source : FrameSource)
    (payload : Bytes) {opcode : UInt8} (valid : opcodeIsValid opcode = true) :
    Streaming server (h.sendFrame i source payload opcode).2 := by
  have delivered := (h.link i).sendFrame_delivered (streaming.delivered i) streaming.sane payload valid
  have later := (h.link i).sendFrame_later payload opcode
  have yields := Link.sendFrame_yields 0 (h.link i) payload opcode
  have shape : (h.sendFrame i source payload opcode).2 =
      h.evolve i ((h.link i).sendFrame payload opcode).2.conn
        ((h.link i).sendFrame payload opcode).2.env
        (if ((h.link i).sendFrame payload opcode).1 then [.frame i source opcode payload] else []) := by
    simp only [Hub.sendFrame]
    split
    · rfl
    · rw [Hub.relink_eq]
  rw [shape]
  apply streaming.evolve later yields.maxQueuedBytes
  · intro shut
    have refused : (h.link i).sendFrame payload opcode = (false, h.link i) := by
      apply Link.sendFrame_refused
      exact fun reading => Bool.false_ne_true (shut.symm.trans reading.1)
    rw [refused]
    exact ⟨shut, rfl⟩
  · intro j other
    split
    · simp [Trace.sent, Event.sentTo, other.symm]
    · rfl
  · cases sent : ((h.link i).sendFrame payload opcode).1 with
    | true =>
        rw [sent, if_pos rfl] at delivered
        simpa only [if_true, Trace.sent, List.filterMap_cons, List.filterMap_nil, Event.sentTo]
          using delivered
    | false =>
        rw [sent, if_neg Bool.false_ne_true] at delivered
        simpa only [Bool.false_eq_true, if_false, Trace.sent, List.filterMap_nil, List.append_nil]
          using delivered

theorem deed (streaming : Streaming server h) (deed : Deed most served h h') : Streaming server h' := by
  cases deed with
  | @mark i conn mark _ =>
      apply streaming.setConn _ _ fun _ delivered => delivered.mark mark
      · cases mark <;> rfl
      · intro shut
        cases mark with
        | shut => rfl
        | fragment | pong | notified | defer => exact shut
  | closeSocket i =>
      exact streaming.relink (h.link i).closeSocket_later rfl (fun _ => rfl)
        fun _ => (h.link i).closeSocket_delivered
  | closeAfterWrite i =>
      have yields := Link.closeAfterWrite_yields 0 (h.link i)
      apply streaming.relink (h.link i).closeAfterWrite_later yields.maxQueuedBytes _
        fun _ => (h.link i).closeAfterWrite_delivered
      exact fun shut => Bool.eq_false_of_not_eq_true fun opens =>
        Bool.false_ne_true (shut.symm.trans (yields.isOpen opens))
  | flush i =>
      have yields := Link.flush_yields 0 (h.link i)
      apply streaming.relink (h.link i).flush_later yields.maxQueuedBytes _
        fun _ => (h.link i).flush_delivered
      exact fun shut => Bool.eq_false_of_not_eq_true fun opens =>
        Bool.false_ne_true (shut.symm.trans (yields.isOpen opens))
  | frame i source payload valid => exact streaming.sendFrame i source payload valid
  | respond fd text => exact streaming.of_same (Link.sendBytes_later _ _ _) rfl rfl fun _ => rfl
  | emit other _ _ => exact streaming.emit other
  | raise e => exact streaming.of_same (.of_same rfl rfl) rfl rfl fun _ => rfl
  | seen x => exact streaming.of_same (.refl _) rfl rfl fun _ => rfl
  | stop => exact streaming.of_same (.refl _) rfl rfl fun _ => rfl

theorem deeds (streaming : Streaming server h) (deeds : Deeds most served h h') : Streaming server h' := by
  induction deeds with
  | refl => exact streaming
  | tail _ deed ih => exact ih.deed deed

theorem watchRead_later (env : Env) (fd : Nat) : env.Later (env.watchRead fd).2 := by
  unfold Env.watchRead
  split <;> exact .of_same rfl rfl

theorem now_later (env : Env) : env.Later env.now.2 := by
  unfold Env.now
  split <;> exact .of_same rfl rfl

theorem enlisted (streaming : Streaming server h) (fd time : Nat) {env : Env}
    (later : h.env.Later env) : Streaming server (h.enlisted server fd time env) := by
  have self : (h.enlisted server fd time env).conn h.nextConnectionId =
      { Connection.opened fd with
        acceptedAtUsec := time
        lastActivityUsec := time
        maxQueuedBytes := server.options.maxQueuedBytes } := Function.update_self ..
  have elsewhere (j : ConnId) (other : j ≠ h.nextConnectionId) :
      (h.enlisted server fd time env).conn j = h.conn j := Function.update_of_ne other ..
  refine ⟨later.sane streaming.sane, fun j beyond => ?_, fun j born => ?_, fun j => ?_⟩
  · rw [elsewhere j (Nat.ne_of_gt beyond)]
    exact streaming.unborn j (Nat.le_of_succ_le beyond)
  · by_cases same : j = h.nextConnectionId
    · rw [same, self]
    · rw [elsewhere j same]
      exact streaming.limit j (Nat.lt_of_le_of_ne (Nat.le_of_lt_succ born) same)
  · by_cases same : j = h.nextConnectionId
    · have nothing : (h.enlisted server fd time env).trace.sent j = [] :=
        (streaming.unborn j (Nat.le_of_eq same.symm)).2
      rw [nothing, same, self]
      exact Streamed.opened fd time time _
    · rw [elsewhere j same]
      exact streaming.delivered j

theorem openConnection {w : World} (streaming : Streaming server w.toHub) (fd : Nat) :
    Streaming server (w.openConnection server fd).2.toHub := by
  have fresh : Streaming server (w.newcomer server fd) :=
    streaming.enlisted fd _ ((now_later w.env).trans (watchRead_later _ fd))
  cases watched : (w.env.now.2.watchRead fd).1 with
  | true =>
      rw [World.openConnection_watched watched]
      exact fresh.emit rfl
  | false =>
      rw [World.openConnection_unwatched watched]
      have closing : Deed 0 (fun _ => False) (w.newcomer server fd)
          ((w.newcomer server fd).closeSocket w.nextConnectionId) := .closeSocket _ _
      have closed := fresh.deed closing
      exact closed.of_same (.of_same rfl rfl) rfl rfl fun _ => rfl

theorem effect {w w' : World} (effect : Effect server served w w')
    (streaming : Streaming server w.toHub) :
    Streaming server w'.toHub := by
  cases effect with
  | deed deed => exact streaming.deed deed
  | answered | fill | discard => exact streaming.of_same (.of_same rfl rfl) rfl rfl fun _ => rfl
  | stamp | beat | upgrade =>
      exact streaming.setConn rfl id fun _ delivered => delivered.alike rfl rfl rfl rfl rfl id
  | approve _ _ told => exact (streaming.deeds told).emit rfl
  | admission fd => exact streaming.openConnection fd
  | @remove index i h here told =>
      have shut : Deed 0 served w.toHub (w.shut i) := w.shut_deed i
      have down : Streaming server (w.shut i) := streaming.deed shut
      have later : (w.shut i).env.Later (w.shutDown i).env := by
        simp only [Hub.shutDown]
        split <;> exact .of_same rfl rfl
      have gone : Streaming server
          { w.shutDown i with connections := w.connections.eraseIdx index } :=
        down.of_same later rfl rfl fun _ => rfl
      have closed : Deed 0 served h (h.closeSocket i) := .closeSocket h i
      exact (gone.deeds told).deed closed
  | listen fd => exact streaming.of_same (watchRead_later _ fd) rfl rfl fun _ => rfl
  | unlisten =>
      simp only [Hub.unlistened]
      split
      · exact streaming
      · exact streaming.of_same (.of_same rfl rfl) rfl rfl fun _ => rfl

theorem start {env : Env} (sane : env.Sane) : Streaming server (World.start env).toHub where
  sane := ⟨sane.noZero, sane.sendNoBufs, sane.watchNoBufs⟩
  unborn _ _ := ⟨rfl, rfl⟩
  limit _ born := absurd born (Nat.not_lt_zero _)
  delivered _ := ⟨by simp [World.start, Trace.sent],
    fun isOpen => absurd isOpen Bool.false_ne_true,
    fun _ => ⟨0, [], Nat.le_refl 0, rfl, Or.inl rfl⟩⟩

theorem run (server : Server) {env : Env} (waits : List WaitResult) (sane : env.Sane) :
    Streaming server ((World.start env).runtimeRun server waits).world.toHub := by
  have effects : Effects server (fun _ => True) (World.start env)
      ((World.start env).runtimeRun server waits).world :=
    World.runtimeRun_effects server _ (fun _ => trivial) waits
  exact effects.invariant (fun effect => Streaming.effect effect) (Streaming.start sane)

end Streaming

/-- In every run, whatever else happens: what an open connection has put on the wire and
    what waits in its queue are the frames accepted for it, in order; and what a closed
    one has put there are the first of these, and at most a beginning of one more. -/
theorem run_streams (server : Server) (env : Env) (waits : List WaitResult) (i : ConnId)
    (sane : env.Sane) :
    let w := ((World.start env).runtimeRun server waits).world
    ((w.conn i).isOpen = true →
      (w.conn i).wire ++ unsent (w.conn i).writeQueue (w.conn i).writeQueueOffset =
        ((w.trace.sent i).map SentFrame.octets).flatten) ∧
    Front (w.conn i).maxQueuedBytes (w.trace.sent i) (w.conn i).wire := by
  intro w
  have delivered := (Streaming.run server waits sane).delivered i
  exact ⟨fun isOpen => (delivered.live isOpen).carries.stream, delivered.front⟩

/-- A Pong of which the socket has taken one octet so far. -/
theorem run_streams_blocked :
    let server : Server := { options := .array fun _ => none, lib := sampleLib }
    let ping : Chunk := ⟨[0x89, 0x81, 1, 2, 3, 4, 0x41], by decide, by decide⟩
    let env : Env :=
      { accepts := [.client 5 none]
        recvs := [.data sampleRequestChunk, .data ping]
        sends := [.wrote 4095, .wrote 0, .failed .eagain, .failed .eagain] }
    let w := ((World.start env).runtimeRun server [.ready 3, .ready 5]).world
    (w.conn 0).isOpen = true ∧ w.trace.sent 0 = [⟨opcodePong, [0x40]⟩] ∧ (w.conn 0).wire = [0x8a] ∧
      (w.conn 0).wire ++ unsent (w.conn 0).writeQueue (w.conn 0).writeQueueOffset =
        [0x8a, 0x01, 0x40] := by
  intro server ping env
  have isOpen : (((World.start env).runtimeRun server [.ready 3, .ready 5]).world.conn 0).isOpen =
      true := by decide +kernel
  have sent : ((World.start env).runtimeRun server [.ready 3, .ready 5]).world.trace.sent 0 =
      [⟨opcodePong, [0x40]⟩] := by decide +kernel
  have stream := (run_streams server env [.ready 3, .ready 5] 0
    ⟨by decide, by decide, by decide⟩).1 isOpen
  rw [sent] at stream
  exact ⟨isOpen, sent, by decide +kernel, stream⟩

end PhpWebSocket
