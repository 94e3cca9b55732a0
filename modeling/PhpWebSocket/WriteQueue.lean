import PhpWebSocket.Connection
import PhpWebSocket.Lib.Backlog

/-! # The outgoing stream

A frame goes out directly, partly directly and partly from the queue, or from the
queue alone. On every path, and for every sequence of partial writes and errors,
the octets the socket has taken and those in the queue are the accepted frames, in
order: the connection carries them in the sense of `Lib.Carries`. The invariant
also keeps `queued_bytes` exact, as it is what rules out a queue that refuses a
half-written frame.
-/

namespace PhpWebSocket

open Lib

/-! ## The writing loop -/

theorem writeSome_count_le (sends : List SendResult) (errno : Option Errno) (len : Nat) :
    (writeSome sends errno len).count ≤ len := by
  fun_induction writeSome with
  | case1 | case2 | case4 | case6 | case7 | case8 => simp
  | case3 more rest errno len written ih =>
      simp only [Written.after]
      omega
  | case5 rest errno len ih => exact ih

/-- An environment in which no write fails with `ENOBUFS`, and `send` returns 0 for
    no range but the empty one. -/
structure Env.Sane (env : Env) : Prop where
  noZero : .zero ∉ env.sends
  sendNoBufs : .failed .enobufs ∉ env.sends
  watchNoBufs : some .enobufs ∉ env.watchWrites

theorem writeSome_errno (sends : List SendResult) (errno : Option Errno) (len : Nat)
    (noZero : .zero ∉ sends) (noBufs : .failed .enobufs ∉ sends) :
    (writeSome sends errno len).ok = false →
      (writeSome sends errno len).errno ≠ some .enobufs := by
  fun_induction writeSome with
  | case1 | case2 | case6 | case7 => simp
  | case3 more rest errno len written ih =>
      exact ih (List.not_mem_of_not_mem_cons noZero) (List.not_mem_of_not_mem_cons noBufs)
  | case4 => simp at noZero
  | case5 rest errno len ih =>
      exact ih (List.not_mem_of_not_mem_cons noZero) (List.not_mem_of_not_mem_cons noBufs)
  | case8 rest errno len e =>
      intro _ same
      simp only [Option.some.injEq] at same
      subst same
      simp at noBufs

/-! ## The invariant of an open connection -/

/-- The connection carries the accepted frames, and `queued_bytes` is exact. -/
structure Intact (accepted : List Bytes) (conn : Connection) : Prop where
  carries : Carries conn.wire conn.writeQueue conn.writeQueueOffset accepted
  bytes : conn.queuedBytes = (unsent conn.writeQueue conn.writeQueueOffset).length

theorem Intact.advance {accepted : List Bytes} {conn : Connection} {frame : Bytes}
    {rest : List Bytes} (intact : Intact accepted conn) (atQueue : conn.writeQueue = frame :: rest)
    {taken : Nat} (present : taken ≤ frame.length - conn.writeQueueOffset) :
    Carries (conn.wire ++ (frame.drop conn.writeQueueOffset).take taken) (frame :: rest)
        (conn.writeQueueOffset + taken) accepted ∧
      (if taken > conn.queuedBytes then 0 else conn.queuedBytes - taken) =
        (unsent (frame :: rest) (conn.writeQueueOffset + taken)).length := by
  have carries := intact.carries
  have bytes := intact.bytes
  rw [atQueue] at carries bytes
  refine ⟨carries.advance taken, ?_⟩
  simp only [unsent_cons, List.length_append, List.length_drop] at bytes ⊢
  rw [if_neg (by omega)]
  omega

/-- What the loop of `flush` leaves: an intact connection, emptied or waiting, or one
    that is closed with an initial part of the stream out. -/
def FlushPost (accepted : List Bytes) (before : Connection) (result : Link.Flushed × Link) : Prop :=
  match result.1 with
  | .drained => Intact accepted result.2.conn ∧ result.2.conn.writeQueue = [] ∧
      result.2.conn.isOpen = before.isOpen
  | .blocked => Intact accepted result.2.conn ∧ result.2.conn.isOpen = before.isOpen
  | .broken => result.2.conn.isOpen = false ∧ result.2.conn.wire <+: accepted.flatten

theorem flushLoop_post (accepted : List Bytes) (queue : List Bytes) (link : Link)
    (atQueue : link.conn.writeQueue = queue) (intact : Intact accepted link.conn) :
    FlushPost accepted link.conn (Link.flushLoop queue link) := by
  induction queue generalizing link with
  | nil => exact ⟨intact, atQueue, rfl⟩
  | cons frame rest ih =>
      have present := writeSome_count_le link.env.sends link.env.errno
        (frame.length - link.conn.writeQueueOffset)
      obtain ⟨carries, bytes⟩ := intact.advance atQueue present
      simp only [Link.flushLoop, Link.wrote]
      split
      · exact ⟨rfl, carries.isPrefix⟩
      · split
        · refine ⟨⟨?_, ?_⟩, rfl⟩
          · rw [← atQueue] at carries
            exact carries
          · rw [← atQueue] at bytes
            exact bytes
        · rename_i whole
          have done : frame.length ≤ link.conn.writeQueueOffset +
              (writeSome link.env.sends link.env.errno
                (frame.length - link.conn.writeQueueOffset)).count := Nat.le_of_not_lt whole
          have popped := carries.pop done
          apply ih
          · rfl
          · refine ⟨popped, ?_⟩
            rw [unsent_cons, List.drop_of_length_le done, List.nil_append] at bytes
            rw [unsent_zero]
            exact bytes

theorem Intact.unwatch {accepted : List Bytes} {conn : Connection} (intact : Intact accepted conn)
    (watched : Bool) : Intact accepted { conn with writeWatched := watched } :=
  ⟨intact.carries, intact.bytes⟩

/-! ## One operation -/

/-- What every operation does to a connection that is open and intact for `accepted`:
    it stays so, or it is closed, and then the socket has an initial part of the
    accepted frames and at most one more. -/
structure Outcome (accepted : List Bytes) (broken : Bytes) (conn : Connection) : Prop where
  live : conn.isOpen → Intact accepted conn
  closed : conn.isOpen = false → conn.wire <+: accepted.flatten ++ broken

theorem Outcome.of_intact {accepted : List Bytes} {conn : Connection}
    (intact : Intact accepted conn) (broken : Bytes) : Outcome accepted broken conn :=
  ⟨fun _ => intact, fun _ => intact.carries.isPrefix.trans (List.prefix_append _ _)⟩

theorem Outcome.closeSocket {accepted : List Bytes} {conn : Connection} {broken : Bytes}
    (out : conn.wire <+: accepted.flatten ++ broken) :
    Outcome accepted broken conn.closeSocket := by
  refine ⟨?_, fun _ => out⟩
  intro h
  exact absurd h (by simp [Connection.closeSocket, Connection.clearWriteQueue,
    Connection.clearFragment])

theorem flush_outcome {accepted : List Bytes} {link : Link} (intact : Intact accepted link.conn) :
    Outcome accepted [] link.flush.2.conn := by
  have post := flushLoop_post accepted _ link rfl intact
  simp only [Link.flush]
  split
  · exact Outcome.of_intact intact []
  · revert post
    cases flushed : (Link.flushLoop link.conn.writeQueue link).1 with
    | broken =>
        intro post
        simp only [FlushPost, flushed] at post
        refine ⟨?_, fun _ => by simpa using post.2⟩
        intro h
        rw [post.1] at h
        exact absurd h (by decide)
    | blocked =>
        intro post
        simp only [FlushPost, flushed] at post
        exact Outcome.of_intact post.1 []
    | drained =>
        intro post
        simp only [FlushPost, flushed] at post
        have out := post.1.carries.isPrefix
        dsimp only
        split <;> split
        · exact Outcome.closeSocket (by simpa using out)
        · exact Outcome.of_intact (post.1.unwatch false) []
        · exact Outcome.closeSocket (by simpa using out)
        · exact Outcome.of_intact post.1 []

theorem closeAfterWrite_outcome {accepted : List Bytes} {link : Link}
    (intact : Intact accepted link.conn) : Outcome accepted [] link.closeAfterWrite.conn := by
  unfold Link.closeAfterWrite
  split
  · exact Outcome.of_intact intact []
  · split
    · exact Outcome.closeSocket (by simpa using intact.carries.isPrefix)
    · have closing : Intact accepted { link.conn with closeAfterWrite := true } :=
        ⟨intact.carries, intact.bytes⟩
      exact Outcome.of_intact closing []

/-- The frame `send_frame` builds. -/
def serverFrame (payload : Bytes) (opcode : UInt8) : Bytes :=
  firstOctet opcode flagFin :: (lengthField false payload.length ++ payload)

theorem packPayload_server (payload : Bytes) (opcode : UInt8) :
    packPayload .little none payload opcode flagFin = some (serverFrame payload opcode) := by
  have unmasked : flagSet flagFin flagMask = false := by decide
  simp only [packPayload, unmasked, Bool.false_eq_true, if_false, serverFrame, List.cons_append]

theorem watchWrite_errno {env : Env} {fd : Option Nat} (noBufs : some .enobufs ∉ env.watchWrites)
    (failed : (env.watchWrite fd).1 = false) : (env.watchWrite fd).2.errno ≠ some .enobufs := by
  revert failed
  unfold Env.watchWrite
  split
  · simp
  · simp
  · rename_i e rest atWatch
    intro _ same
    simp only [Option.some.injEq] at same
    rw [atWatch, same] at noBufs
    simp at noBufs

/-- `queue_frame` refuses a frame that does not fit and leaves the queue alone, or it
    queues the frame and may fail to watch the socket. -/
theorem queueFrame_cases (link : Link) (noBufs : some .enobufs ∉ link.env.watchWrites)
    (frame : Bytes) (offset : Nat) :
    ((link.queueFrame frame offset).1 = false ∧ (link.queueFrame frame offset).2.conn = link.conn ∧
        (link.queueFrame frame offset).2.env.errno = some .enobufs ∧
        (frame.length - offset > link.conn.maxQueuedBytes ∨
          link.conn.queuedBytes > link.conn.maxQueuedBytes - (frame.length - offset))) ∨
      ((∃ watched, (link.queueFrame frame offset).2.conn =
          { link.conn.enqueue frame offset with writeWatched := watched }) ∧
        ((link.queueFrame frame offset).1 = false →
          (link.queueFrame frame offset).2.env.errno ≠ some .enobufs)) := by
  simp only [Link.queueFrame]
  split
  · rename_i full
    simp only [Bool.or_eq_true, decide_eq_true_eq] at full
    exact Or.inl ⟨rfl, rfl, rfl, full⟩
  · right
    split
    · split
      · exact ⟨⟨true, rfl⟩, by simp⟩
      · rename_i refused
        exact ⟨⟨link.conn.writeWatched, rfl⟩,
          fun _ => watchWrite_errno noBufs (Bool.eq_false_of_not_eq_true refused)⟩
    · exact ⟨⟨link.conn.writeWatched, rfl⟩, by simp⟩

theorem Intact.enqueue {accepted : List Bytes} {conn : Connection} (intact : Intact accepted conn)
    (waiting : conn.writeQueue ≠ []) (frame : Bytes) :
    Intact (accepted ++ [frame]) (conn.enqueue frame 0) := by
  constructor
  · simp only [Connection.enqueue, if_neg waiting]
    exact intact.carries.push waiting frame
  · simp only [Connection.enqueue, if_neg waiting, unsent_push waiting, List.length_append,
      intact.bytes, Nat.sub_zero]

/-- With an empty queue the rest of a frame waits behind what the socket took. -/
theorem Intact.enqueueRest {accepted : List Bytes} {conn : Connection}
    (intact : Intact accepted conn) (idle : conn.writeQueue = []) (frame : Bytes) (taken : Nat) :
    Intact (accepted ++ [frame])
      ({ conn with wire := conn.wire ++ frame.take taken }.enqueue frame taken) := by
  have carries := intact.carries
  have bytes := intact.bytes
  rw [idle] at carries bytes
  constructor
  · simp only [Connection.enqueue, idle, if_true, List.nil_append]
    exact carries.start frame taken
  · simp only [Connection.enqueue, idle, if_true, List.nil_append, bytes, unsent_nil, unsent_cons,
      List.length_nil, List.flatten_nil, List.append_nil, List.length_drop, Nat.zero_add]

/-- A call of `send_frame` on a connection that is intact: on success the connection
    is intact for the frame as well, on failure it is as `Outcome` says. -/
def SendPost (accepted : List Bytes) (frame : Bytes) (before : Connection)
    (result : Bool × Link) : Prop :=
  if result.1 then
    Intact (accepted ++ [frame]) result.2.conn ∧ result.2.conn.isOpen = before.isOpen
  else Outcome accepted frame result.2.conn

theorem settle_broken {accepted : List Bytes} {frame : Bytes} {before : Connection}
    {result : Bool × Link} (failed : result.1 = false)
    (errno : result.2.env.errno ≠ some .enobufs)
    (out : result.2.conn.wire <+: accepted.flatten ++ frame) :
    SendPost accepted frame before (Link.settle result) := by
  simp only [Link.settle, failed, SendPost, ne_eq, errno, not_false_eq_true, decide_true,
    Bool.not_false, Bool.and_self, if_true, Bool.false_eq_true, if_false]
  exact ⟨fun h => absurd h Bool.false_ne_true, fun _ => out⟩

theorem settle_ok {accepted : List Bytes} {frame : Bytes} {before : Connection} {link : Link}
    (intact : Intact (accepted ++ [frame]) link.conn) (same : link.conn.isOpen = before.isOpen) :
    SendPost accepted frame before (Link.settle (true, link)) := ⟨intact, same⟩

theorem settle_queued {accepted : List Bytes} {frame : Bytes} {before : Connection}
    {result : Bool × Link} (intact : Intact (accepted ++ [frame]) result.2.conn)
    (same : result.2.conn.isOpen = before.isOpen)
    (errno : result.1 = false → result.2.env.errno ≠ some .enobufs)
    (out : result.2.conn.wire <+: accepted.flatten ++ frame) :
    SendPost accepted frame before (Link.settle result) := by
  obtain ⟨ok, link⟩ := result
  cases ok with
  | true => exact settle_ok intact same
  | false => exact settle_broken rfl (errno rfl) out

private theorem take_isPrefix {accepted : List Bytes} {conn : Connection}
    (carries : Carries conn.wire [] conn.writeQueueOffset accepted) (frame : Bytes) (n : Nat) :
    conn.wire ++ frame.take n <+: accepted.flatten ++ frame := by
  have before : conn.wire = accepted.flatten := by simpa using carries.stream
  rw [before]
  exact List.prefix_append_right_inj _ |>.mpr (List.take_prefix _ _)

theorem sendFrame_post {accepted : List Bytes} {link : Link} (intact : Intact accepted link.conn)
    (sane : link.env.Sane) (payload : Bytes) (opcode : UInt8) :
    SendPost accepted (serverFrame payload opcode) link.conn (link.sendFrame payload opcode) := by
  simp only [Link.sendFrame, packPayload_server]
  generalize serverFrame payload opcode = frame
  split
  · exact Outcome.of_intact intact frame
  · split
    · exact Outcome.of_intact intact frame
    rename_i fits
    split
    · rename_i waiting
      rcases queueFrame_cases link sane.watchNoBufs frame 0 with
        ⟨failed, same, errno, -⟩ | ⟨⟨watched, queued⟩, errno⟩
      · simp only [Link.settle, SendPost, failed, errno, ne_eq, not_true, decide_false,
          Bool.and_false, Bool.false_eq_true, if_false, same]
        exact Outcome.of_intact intact frame
      · have grown : Intact (accepted ++ [frame]) (link.queueFrame frame 0).2.conn := by
          rw [queued]
          exact (intact.enqueue waiting frame).unwatch watched
        apply settle_queued grown _ errno
        · rw [queued]
          exact intact.carries.isPrefix.trans (List.prefix_append _ _)
        · rw [queued]
          rfl
    · rename_i idle
      have idle : link.conn.writeQueue = [] := not_not.mp idle
      have carries := intact.carries
      have bytes := intact.bytes
      rw [idle] at carries bytes
      have taken := writeSome_count_le link.env.sends link.env.errno frame.length
      have failure := writeSome_errno link.env.sends link.env.errno frame.length sane.noZero
        sane.sendNoBufs
      generalize writeSome link.env.sends link.env.errno frame.length = w at taken failure ⊢
      have out := take_isPrefix carries frame w.count
      split
      · rename_i partly
        rcases queueFrame_cases (link.wrote frame 0 w) sane.watchNoBufs frame w.count with
          ⟨-, -, -, full⟩ | ⟨⟨watched, queued⟩, errno⟩
        · simp only [Link.wrote, bytes, unsent_nil, List.length_nil] at full
          omega
        · have grown : Intact (accepted ++ [frame])
              ((link.wrote frame 0 w).queueFrame frame w.count).2.conn := by
            rw [queued]
            exact (intact.enqueueRest idle frame w.count).unwatch watched
          apply settle_queued grown _ errno
          · rw [queued]
            exact out
          · rw [queued]
            rfl
      · rename_i settled
        cases ok : w.ok with
        | true =>
            have whole : w.count = frame.length := by
              simp only [ok, Bool.true_and, decide_eq_true_eq] at settled
              omega
            refine settle_ok ⟨?_, ?_⟩ rfl
            · simp only [Link.wrote, idle, whole, List.drop_zero, List.take_length]
              exact carries.direct frame
            · simp only [Link.wrote, idle, bytes, unsent_nil]
        | false => exact settle_broken rfl (failure ok) out

theorem sendCloseFrame_post {accepted : List Bytes} {link : Link}
    (intact : Intact accepted link.conn) (sane : link.env.Sane) (code : Int) (reason : Bytes) :
    (∃ payload, closePayload code reason = .ok payload ∧
        SendPost accepted (serverFrame payload opcodeClose) link.conn
          (link.sendCloseFrame code reason)) ∨
      ((link.sendCloseFrame code reason).1 = false ∧
        (link.sendCloseFrame code reason).2.conn = link.conn) := by
  unfold Link.sendCloseFrame
  split
  · exact Or.inr ⟨rfl, rfl⟩
  · cases atPayload : closePayload code reason with
    | error e => exact Or.inr ⟨rfl, rfl⟩
    | ok payload => exact Or.inl ⟨payload, rfl, sendFrame_post intact sane payload opcodeClose⟩

/-! ## Whole runs -/

/-- The functions that write to a connection or close it. -/
inductive Operation where
  | sendFrame (payload : Bytes) (opcode : UInt8)
  | sendCloseFrame (code : Int) (reason : Bytes)
  | flush
  | closeAfterWrite
  | closeSocket

namespace Operation

def perform : Operation → Link → Bool × Link
  | .sendFrame payload opcode, link => link.sendFrame payload opcode
  | .sendCloseFrame code reason, link => link.sendCloseFrame code reason
  | .flush, link => link.flush
  | .closeAfterWrite, link => (true, link.closeAfterWrite)
  | .closeSocket, link => (true, link.closeSocket)

/-- The frame that an operation asks `send_frame` to send. -/
def frame : Operation → Option Bytes
  | .sendFrame payload opcode => packPayload .little none payload opcode flagFin
  | .sendCloseFrame code reason =>
      match closePayload code reason with
      | .ok payload => packPayload .little none payload opcodeClose flagFin
      | .error _ => none
  | .flush | .closeAfterWrite | .closeSocket => none

end Operation

/-- A connection with the account of a run: the frames for which `send_frame` has
    returned true, and the one whose failure took the connection down, if one did. -/
structure Output where
  conn : Connection
  accepted : List Bytes := []
  broken : Bytes := []

namespace Output

/-- One operation, in the environment it finds. -/
def step (out : Output) (operation : Env × Operation) : Output :=
  let result := operation.2.perform ⟨out.conn, operation.1⟩
  { conn := result.2.conn
    accepted := if result.1 then out.accepted ++ operation.2.frame.toList else out.accepted
    broken :=
      if out.conn.isOpen && !result.2.conn.isOpen && !result.1 then operation.2.frame.getD []
      else out.broken }

def run (out : Output) (operations : List (Env × Operation)) : Output := operations.foldl step out

/-- The account is right. -/
structure Balanced (out : Output) : Prop where
  live : out.conn.isOpen → Intact out.accepted out.conn
  closed : out.conn.isOpen = false → out.conn.wire <+: out.accepted.flatten ++ out.broken

end Output

/-- A closed connection stays closed, and nothing more goes out or is accepted. -/
theorem Output.step_closed {out : Output} (closed : out.conn.isOpen = false)
    (operation : Env × Operation) :
    (out.step operation).conn.isOpen = false ∧ (out.step operation).conn.wire = out.conn.wire ∧
      (out.step operation).accepted = out.accepted ∧ (out.step operation).broken = out.broken := by
  obtain ⟨env, op⟩ := operation
  cases op <;>
    simp [Output.step, Operation.perform, Operation.frame, Link.sendFrame, Link.sendCloseFrame,
      Link.flush, Link.closeAfterWrite, Link.closeSocket, Connection.closeSocket,
      Connection.clearWriteQueue, Connection.clearFragment, closed]

theorem Output.run_closed {out : Output} (closed : out.conn.isOpen = false)
    (operations : List (Env × Operation)) :
    (out.run operations).conn.isOpen = false ∧ (out.run operations).conn.wire = out.conn.wire := by
  induction operations generalizing out with
  | nil => exact ⟨closed, rfl⟩
  | cons operation rest ih =>
      obtain ⟨still, wire, -, -⟩ := out.step_closed closed operation
      obtain ⟨closed, same⟩ := ih still
      exact ⟨closed, same.trans wire⟩

theorem SendPost.outcome {accepted : List Bytes} {frame : Bytes} {before : Connection}
    {result : Bool × Link} (post : SendPost accepted frame before result) :
    Outcome (if result.1 then accepted ++ [frame] else accepted) (if result.1 then [] else frame)
      result.2.conn := by
  obtain ⟨ok, link⟩ := result
  cases ok with
  | true => exact Outcome.of_intact post.1 []
  | false => exact post

theorem Outcome.frameless {accepted : List Bytes} {conn : Connection}
    (out : Outcome accepted [] conn) (ok : Bool) :
    Outcome (if ok then accepted ++ (none : Option Bytes).toList else accepted)
      (if ok then [] else (none : Option Bytes).getD []) conn := by
  cases ok <;> simpa using out

theorem Operation.perform_outcome {accepted : List Bytes} {link : Link}
    (intact : Intact accepted link.conn) (sane : link.env.Sane) (op : Operation) :
    Outcome (if (op.perform link).1 then accepted ++ op.frame.toList else accepted)
      (if (op.perform link).1 then [] else op.frame.getD []) (op.perform link).2.conn := by
  cases op with
  | sendFrame payload opcode =>
      simpa only [perform, frame, packPayload_server, Option.toList_some, Option.getD_some] using
        (sendFrame_post intact sane payload opcode).outcome
  | sendCloseFrame code reason =>
      rcases sendCloseFrame_post intact sane code reason with ⟨payload, atPayload, post⟩ | ⟨failed, same⟩
      · simpa only [perform, frame, atPayload, packPayload_server, Option.toList_some,
          Option.getD_some] using post.outcome
      · simp only [perform, failed, same, Bool.false_eq_true, if_false]
        exact Outcome.of_intact intact _
  | flush => exact (flush_outcome intact).frameless _
  | closeAfterWrite => exact (closeAfterWrite_outcome intact).frameless _
  | closeSocket =>
      have out := intact.carries.isPrefix.trans (List.prefix_append _ [])
      exact (Outcome.closeSocket out).frameless _

theorem Output.Balanced.step {out : Output} (balanced : out.Balanced) (operation : Env × Operation)
    (sane : operation.1.Sane) : (out.step operation).Balanced := by
  cases wasOpen : out.conn.isOpen with
  | false =>
      obtain ⟨still, wire, accepted, broken⟩ := out.step_closed wasOpen operation
      refine ⟨fun h => absurd h (by rw [still]; decide), ?_⟩
      intro _
      rw [wire, accepted, broken]
      exact balanced.closed wasOpen
  | true =>
      have intact : Intact out.accepted (⟨out.conn, operation.1⟩ : Link).conn := balanced.live wasOpen
      obtain ⟨live, closed⟩ := Operation.perform_outcome intact sane operation.2
      refine ⟨live, ?_⟩
      intro isClosed
      have out := closed isClosed
      simp only [Output.step] at isClosed ⊢
      cases ok : (operation.2.perform ⟨_, operation.1⟩).1 with
      | true =>
          simp only [ok, if_true, List.append_nil] at out
          simp only [if_true]
          exact out.trans (List.prefix_append _ _)
      | false =>
          simp only [ok, Bool.false_eq_true, if_false] at out
          simpa only [wasOpen, isClosed, Bool.not_false, Bool.and_self, Bool.false_eq_true,
            if_true, if_false] using out

theorem Output.Balanced.run {out : Output} (balanced : out.Balanced)
    (operations : List (Env × Operation)) (sane : ∀ operation ∈ operations, operation.1.Sane) :
    (out.run operations).Balanced := by
  induction operations generalizing out with
  | nil => exact balanced
  | cons operation rest ih =>
      exact ih (balanced.step operation (sane _ (List.mem_cons_self ..)))
        fun later mem => sane later (List.mem_cons_of_mem _ mem)

/-- No frame is lost, duplicated, reordered or cut in a live stream. While the
    connection is open, the octets on the wire and those that wait are the frames for
    which `send_frame` returned true, in call order. Once it is closed nothing goes
    out any more, and the wire holds an initial part of those frames and of the one
    whose failure closed it. -/
theorem outgoing_stream_intact (conn : Connection)
    (fresh : conn.upgraded ∧ conn.writeQueue = [] ∧ conn.queuedBytes = 0 ∧ conn.wire = [])
    (operations : List (Env × Operation))
    (sane : ∀ operation ∈ operations, operation.1.Sane) :
    let out := Output.run { conn } operations
    (out.conn.isOpen →
        out.conn.wire ++ unsent out.conn.writeQueue out.conn.writeQueueOffset =
          out.accepted.flatten) ∧
      (out.conn.isOpen = false → out.conn.wire <+: out.accepted.flatten ++ out.broken ∧
        ∀ later, (out.run later).conn.wire = out.conn.wire) := by
  obtain ⟨-, idle, bytes, wire⟩ := fresh
  have start : Output.Balanced { conn } := by
    refine ⟨fun _ => ⟨⟨?_⟩, ?_⟩, ?_⟩
    · simp only [wire, idle, unsent_nil, List.append_nil, List.flatten_nil]
    · simp only [bytes, idle, unsent_nil, List.length_nil]
    · intro _
      simp only [wire, List.nil_prefix]
  have balanced := start.run operations sane
  exact ⟨fun isOpen => (balanced.live isOpen).carries.stream,
    fun closed => ⟨balanced.closed closed, fun later => (Output.run_closed closed later).2⟩⟩

/-- Three frames over a socket that takes one octet, then nothing, then all. -/
theorem outgoing_stream_intact_partial :
    let conn : Connection := { Connection.opened 7 with upgraded := true }
    let operations : List (Env × Operation) :=
      [({ sends := [.wrote 0, .failed .eagain] }, .sendFrame [0x61] opcodeText),
        ({}, .sendFrame [] opcodePing), ({ sends := [.failed .epipe] }, .flush)]
    (conn.upgraded ∧ conn.writeQueue = [] ∧ conn.queuedBytes = 0 ∧ conn.wire = []) ∧
      (∀ operation ∈ operations, operation.1.Sane) ∧
      (Output.run { conn } (operations.take 2)).conn.wire ++ [0x01, 0x61, 0x89, 0x00] =
        [0x81, 0x01, 0x61, 0x89, 0x00] ∧
      (Output.run { conn } operations).conn.wire <+: [0x81, 0x01, 0x61, 0x89, 0x00] := by
  intro conn operations
  have fresh : conn.upgraded ∧ conn.writeQueue = [] ∧ conn.queuedBytes = 0 ∧ conn.wire = [] := by
    decide
  have sane : ∀ operation ∈ operations, operation.1.Sane := by
    simp only [operations, List.mem_cons, List.not_mem_nil, or_false, forall_eq_or_imp, forall_eq]
    exact ⟨⟨by decide, by decide, by decide⟩, ⟨by decide, by decide, by decide⟩,
      ⟨by decide, by decide, by decide⟩⟩
  have isLive : (Output.run { conn } (operations.take 2)).conn.isOpen = true := by decide +kernel
  have waiting : unsent (Output.run { conn } (operations.take 2)).conn.writeQueue
      (Output.run { conn } (operations.take 2)).conn.writeQueueOffset = [0x01, 0x61, 0x89, 0x00] := by
    decide +kernel
  have accepted : (Output.run { conn } (operations.take 2)).accepted.flatten =
      [0x81, 0x01, 0x61, 0x89, 0x00] := by
    decide +kernel
  have live := (outgoing_stream_intact conn fresh (operations.take 2)
    fun operation mem => sane operation (List.mem_of_mem_take mem)).1 isLive
  rw [waiting, accepted] at live
  have shut : (Output.run { conn } operations).conn.isOpen = false := by decide +kernel
  have all : (Output.run { conn } operations).accepted.flatten ++
      (Output.run { conn } operations).broken = [0x81, 0x01, 0x61, 0x89, 0x00] := by
    decide +kernel
  have closed := ((outgoing_stream_intact conn fresh operations sane).2 shut).1
  rw [all] at closed
  exact ⟨fresh, sane, live, closed⟩

end PhpWebSocket
