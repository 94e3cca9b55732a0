import PhpWebSocket.Acceptance

/-! # The account of the write queue

Four fields describe what waits for the socket: the queue, the offset into its head,
`queued_bytes` and `write_watched`. The first three agree on every path, whatever the
socket and the driver answer; that the driver is asked to watch the socket while
something waits needs a driver that does not refuse with the very `errno` by which
`send_frame` recognises a full queue.
-/

namespace PhpWebSocket

open Lib

/-- `websocket_connection_open`, on an object that may have been in use. -/
def Link.open (link : Link) (fd : Nat) : Link where
  conn :=
    { link.conn.clearWriteQueue.clearFragment with
      fd := some fd
      isOpen := true
      upgraded := false
      closeNotified := false
      deferClose := false
      maxQueuedBytes := defaultMaxQueuedBytes
      lastPingUsec := 0
      awaitingPong := false
      selectedSubprotocol := none
      wire := [] }
  env :=
    if link.conn.writeWatched && link.env.driver.isSome then link.env.unwatchWrite (some fd)
    else link.env

/-! ## The octets -/

/-- Queue, offset and `queued_bytes` agree, within the limit. -/
structure Counted (conn : Connection) : Prop where
  frames : ∀ frame ∈ conn.writeQueue, frame ≠ []
  idle : conn.writeQueue = [] → conn.writeQueueOffset = 0
  head : ∀ frame rest, conn.writeQueue = frame :: rest → conn.writeQueueOffset < frame.length
  bytes : conn.queuedBytes = (unsent conn.writeQueue conn.writeQueueOffset).length
  bound : conn.queuedBytes ≤ conn.maxQueuedBytes

namespace Counted

variable {conn : Connection}

theorem cleared (queue : conn.writeQueue = []) (offset : conn.writeQueueOffset = 0)
    (bytes : conn.queuedBytes = 0) : Counted conn := by
  refine ⟨by simp [queue], fun _ => offset, by simp [queue], ?_, by simp [bytes]⟩
  rw [queue, bytes, unsent_nil, List.length_nil]

theorem congr {other : Connection} (counted : Counted conn) (queue : other.writeQueue = conn.writeQueue)
    (offset : other.writeQueueOffset = conn.writeQueueOffset)
    (bytes : other.queuedBytes = conn.queuedBytes)
    (limit : other.maxQueuedBytes = conn.maxQueuedBytes) : Counted other := by
  obtain ⟨frames, idle, head, counts, bound⟩ := counted
  constructor
  · rw [queue]
    exact frames
  · rw [queue, offset]
    exact idle
  · rw [queue, offset]
    exact head
  · rw [queue, offset, bytes]
    exact counts
  · rw [bytes, limit]
    exact bound

theorem enqueue (counted : Counted conn) {frame : Bytes} {offset : Nat} (inside : offset < frame.length)
    (start : conn.writeQueue ≠ [] → offset = 0)
    (room : conn.queuedBytes + (frame.length - offset) ≤ conn.maxQueuedBytes) :
    Counted (conn.enqueue frame offset) := by
  obtain ⟨frames, idle, head, bytes, -⟩ := counted
  have nonempty : frame ≠ [] := List.ne_nil_of_length_pos (by omega)
  refine ⟨?_, ?_, ?_, ?_, room⟩
  · intro other mem
    rcases List.mem_append.mp mem with old | new
    · exact frames other old
    · rw [List.mem_singleton.mp new]
      exact nonempty
  · simp [Connection.enqueue]
  · cases queue : conn.writeQueue with
    | nil =>
        intro first rest same
        simp only [Connection.enqueue, queue, List.nil_append, List.cons.injEq] at same ⊢
        rw [← same.1, if_true]
        exact inside
    | cons first others =>
        intro first' rest same
        simp only [Connection.enqueue, queue, List.cons_append, List.cons.injEq] at same ⊢
        rw [← same.1, if_neg (by simp)]
        exact head first others queue
  · cases queue : conn.writeQueue with
    | nil =>
        rw [queue, unsent_nil, List.length_nil] at bytes
        simp [Connection.enqueue, queue, bytes]
    | cons first others =>
        have waiting : conn.writeQueue ≠ [] := by simp [queue]
        simp only [Connection.enqueue, if_neg waiting, unsent_push waiting, List.length_append,
          ← bytes, start waiting, Nat.sub_zero]

theorem advance (counted : Counted conn) {frame : Bytes} {rest : List Bytes}
    (queue : conn.writeQueue = frame :: rest) {taken : Nat}
    (present : taken ≤ frame.length - conn.writeQueueOffset) :
    taken ≤ conn.queuedBytes ∧
      conn.queuedBytes - taken = (unsent (frame :: rest) (conn.writeQueueOffset + taken)).length := by
  have bytes := counted.bytes
  rw [queue] at bytes
  simp only [unsent_cons, List.length_append, List.length_drop] at bytes ⊢
  omega

theorem taken (counted : Counted conn) {frame : Bytes} {rest : List Bytes}
    (queue : conn.writeQueue = frame :: rest) {taken : Nat}
    (present : taken ≤ frame.length - conn.writeQueueOffset)
    (short : conn.writeQueueOffset + taken < frame.length) :
    Counted { conn with
      queuedBytes := conn.queuedBytes - taken
      writeQueueOffset := conn.writeQueueOffset + taken } := by
  obtain ⟨-, bytes⟩ := counted.advance queue present
  refine ⟨counted.frames, ?_, ?_, ?_, (Nat.sub_le _ _).trans counted.bound⟩
  · simp [queue]
  · intro first others same
    simp only [queue, List.cons.injEq] at same ⊢
    rw [← same.1]
    exact short
  · rw [← queue] at bytes
    exact bytes

theorem popped (counted : Counted conn) {frame : Bytes} {rest : List Bytes}
    (queue : conn.writeQueue = frame :: rest) {taken : Nat}
    (present : taken ≤ frame.length - conn.writeQueueOffset)
    (whole : ¬ conn.writeQueueOffset + taken < frame.length) :
    Counted { conn with
      queuedBytes := conn.queuedBytes - taken
      writeQueue := rest
      writeQueueOffset := 0 } := by
  obtain ⟨-, bytes⟩ := counted.advance queue present
  rw [unsent_cons, List.drop_of_length_le (Nat.le_of_not_lt whole), List.nil_append,
    ← unsent_zero] at bytes
  have nonempty (other : Bytes) (mem : other ∈ rest) : other ≠ [] :=
    counted.frames other (by rw [queue]; exact List.mem_cons_of_mem _ mem)
  refine ⟨nonempty, fun _ => rfl, ?_, bytes, (Nat.sub_le _ _).trans counted.bound⟩
  intro first others same
  dsimp only at same
  exact List.length_pos_iff.mpr (nonempty first (by rw [same]; exact List.mem_cons_self))

end Counted

/-- The loop of `websocket_connection_flush`, and whether it takes the branch that repairs
    `queued_bytes`. -/
def Link.flushMarked : List Bytes → Link → (Flushed × Link) × Bool
  | [], link => ((.drained, link), false)
  | frame :: rest, link =>
      let offset := link.conn.writeQueueOffset
      let w := writeSome link.env.sends link.env.errno (frame.length - offset)
      let sent := link.wrote frame offset w
      if !w.ok then ((.broken, { sent with conn := { sent.conn with isOpen := false } }), false)
      else
        let repairs := w.count > sent.conn.queuedBytes
        let queuedBytes := if repairs then 0 else sent.conn.queuedBytes - w.count
        if offset + w.count < frame.length then
          ((.blocked, { sent with
            conn := { sent.conn with queuedBytes, writeQueueOffset := offset + w.count } }), repairs)
        else
          let later := flushMarked rest { sent with
            conn := { sent.conn with queuedBytes, writeQueue := rest, writeQueueOffset := 0 } }
          (later.1, repairs || later.2)

theorem Link.flushMarked_fst (queue : List Bytes) (link : Link) :
    (Link.flushMarked queue link).1 = Link.flushLoop queue link := by
  induction queue generalizing link with
  | nil => rfl
  | cons frame rest ih =>
      simp only [flushMarked, flushLoop]
      split
      · rfl
      · split
        · rfl
        · exact ih _

/-- What the loop of `flush` leaves of the account. -/
def FlushCounted (before : Link) (result : Link.Flushed × Link) : Prop :=
  result.2.conn.writeWatched = before.conn.writeWatched ∧
    result.2.conn.closeAfterWrite = before.conn.closeAfterWrite ∧
    result.2.env.driver = before.env.driver ∧
    match result.1 with
    | .drained => result.2.conn.writeQueue = [] ∧ Counted result.2.conn
    | .blocked => result.2.conn.writeQueue ≠ [] ∧ Counted result.2.conn
    | .broken => result.2.conn.isOpen = false

/-- The loop keeps the account, and has nothing to repair. -/
theorem flushLoop_counted (queue : List Bytes) (link : Link) (atQueue : link.conn.writeQueue = queue)
    (counted : Counted link.conn) :
    (Link.flushMarked queue link).2 = false ∧ FlushCounted link (Link.flushLoop queue link) := by
  induction queue generalizing link with
  | nil => exact ⟨rfl, rfl, rfl, rfl, atQueue, counted⟩
  | cons frame rest ih =>
      have present := writeSome_count_le link.env.sends link.env.errno
        (frame.length - link.conn.writeQueueOffset)
      obtain ⟨within, -⟩ := counted.advance atQueue present
      simp only [Link.flushMarked, Link.flushLoop, Link.wrote]
      generalize writeSome link.env.sends link.env.errno (frame.length - link.conn.writeQueueOffset) =
        w at present within ⊢
      cases w.ok with
      | false => exact ⟨rfl, rfl, rfl, rfl, rfl⟩
      | true =>
          simp only [Bool.not_true, Bool.false_eq_true, if_false, Nat.not_lt.mpr within]
          split
          · rename_i short
            refine ⟨rfl, rfl, rfl, rfl, by simp [atQueue], ?_⟩
            exact (counted.taken atQueue present short).congr rfl rfl rfl rfl
          · rename_i whole
            exact ih _ rfl ((counted.popped atQueue present whole).congr rfl rfl rfl rfl)

/-! ## The watch and the close behind the queue -/

/-- The account of an open connection; `watching` says that there is a driver. -/
structure Accounted (watching : Bool) (conn : Connection) : Prop extends Counted conn where
  unwatched : conn.writeQueue = [] → conn.writeWatched = false
  watched : conn.writeQueue ≠ [] → watching = true → conn.writeWatched = true
  closing : conn.closeAfterWrite = true → conn.writeQueue ≠ []
  driven : conn.writeWatched = true → watching = true

/-- Room for `len` more octets. -/
def Room (conn : Connection) (len : Nat) : Prop := conn.queuedBytes + len ≤ conn.maxQueuedBytes

instance (conn : Connection) (len : Nat) : Decidable (Room conn len) :=
  inferInstanceAs (Decidable (_ ≤ _))

/-- The driver would refuse to watch the socket, with `e`. -/
def WatchRefused (conn : Connection) (env : Env) (e : Errno) : Prop :=
  conn.writeWatched = false ∧ env.driver.isSome = true ∧ env.watchWrites.head? = some (some e)

theorem watchWrite_isSome (env : Env) (fd : Option Nat) :
    (env.watchWrite fd).2.driver.isSome = env.driver.isSome := by
  rw [env.watchWrite_driver]
  split
  · exact env.rewatch_isSome _
  · rfl

/-- What `queue_frame` comes to: it has no room, it queues the frame, or it queues the
    frame and the driver refuses to watch the socket. -/
theorem queueFrame_effect (link : Link) (frame : Bytes) (offset : Nat) :
    (¬ Room link.conn (frame.length - offset) ∧
        link.queueFrame frame offset =
          (false, { link with env := { link.env with errno := some .enobufs } })) ∨
      (Room link.conn (frame.length - offset) ∧ (link.queueFrame frame offset).1 = true ∧
        (∀ e, ¬ WatchRefused link.conn link.env e) ∧
        (link.queueFrame frame offset).2.conn =
          { link.conn.enqueue frame offset with
            writeWatched := link.conn.writeWatched || link.env.driver.isSome }) ∨
      (Room link.conn (frame.length - offset) ∧ (link.queueFrame frame offset).1 = false ∧
        (link.queueFrame frame offset).2.conn = link.conn.enqueue frame offset ∧
        ∃ e, WatchRefused link.conn link.env e ∧
          (link.queueFrame frame offset).2.env.errno = some e) := by
  have full : (frame.length - offset > link.conn.maxQueuedBytes ||
      link.conn.queuedBytes > link.conn.maxQueuedBytes - (frame.length - offset)) = true ↔
        ¬ Room link.conn (frame.length - offset) := by
    simp only [Bool.or_eq_true, decide_eq_true_eq, Room]
    omega
  unfold Link.queueFrame
  by_cases room : Room link.conn (frame.length - offset)
  · apply Or.inr
    simp only [if_neg (mt full.mp (not_not.mpr room))]
    split
    · rename_i unwatched
      simp only [Bool.and_eq_true, Bool.not_eq_true'] at unwatched
      obtain ⟨unwatched, driver⟩ := unwatched
      cases answers : link.env.watchWrites with
      | nil =>
          simp only [Env.watchWrite, answers]
          exact Or.inl ⟨room, rfl, fun e refused => by simp [WatchRefused, answers] at refused,
            by rw [driver, Bool.or_true]; rfl⟩
      | cons answer rest =>
          cases answer with
          | none =>
              simp only [Env.watchWrite, answers]
              exact Or.inl ⟨room, rfl, fun e refused => by simp [WatchRefused, answers] at refused,
                by rw [driver, Bool.or_true]; rfl⟩
          | some e =>
              simp only [Env.watchWrite, answers]
              exact Or.inr ⟨room, rfl, rfl, e, ⟨unwatched, driver, by rw [answers]; rfl⟩, rfl⟩
    · rename_i watched
      simp only [Bool.and_eq_true, Bool.not_eq_true', not_and, Bool.not_eq_true] at watched
      refine Or.inl ⟨room, rfl, ?_, ?_⟩
      · intro e refused
        have driver := watched refused.1
        rw [refused.2.1] at driver
        cases driver
      · cases atWatched : link.conn.writeWatched with
        | true => simp [Connection.enqueue, atWatched]
        | false => simp [Connection.enqueue, atWatched, watched atWatched]
  · exact Or.inl ⟨room, if_pos (full.mpr room)⟩

theorem settle_open {result : Bool × Link} (isOpen : (Link.settle result).2.conn.isOpen = true) :
    Link.settle result = result ∧
      (result.1 = false → result.2.env.errno = some .enobufs) := by
  unfold Link.settle at isOpen ⊢
  split at isOpen
  · cases isOpen
  · rename_i kept
    rw [if_neg kept]
    refine ⟨rfl, ?_⟩
    intro failed
    simpa [failed] using kept

/-- What `send_frame` has made of a connection that it leaves open: it has written a part of
    the frame at most, or it has the frame in its queue. -/
inductive SendEffect (link : Link) (frame : Bytes) : Connection → Prop
  | wrote (wire : Bytes) : SendEffect link frame { link.conn with wire }
  | queued (wire : Bytes) {offset : Nat} {watched : Bool} (inside : offset < frame.length)
      (start : link.conn.writeQueue ≠ [] → offset = 0)
      (room : Room link.conn (frame.length - offset))
      (sure : link.env.driver.isSome = true → some .enobufs ∉ link.env.watchWrites → watched = true)
      (driven : watched = true → link.conn.writeWatched = true ∨ link.env.driver.isSome = true) :
      SendEffect link frame
        { { link.conn with wire }.enqueue frame offset with writeWatched := watched }

/-- The frame is queued behind `offset` octets, from a state that differs in `wire` alone. -/
theorem settle_queueFrame_effect {link : Link} {frame wire : Bytes} {env : Env} {offset : Nat}
    (driver : env.driver = link.env.driver) (answers : env.watchWrites = link.env.watchWrites)
    (inside : offset < frame.length) (start : link.conn.writeQueue ≠ [] → offset = 0)
    (isOpen : (Link.settle (Link.queueFrame ⟨{ link.conn with wire }, env⟩ frame
      offset)).2.conn.isOpen = true) :
    SendEffect link frame
      (Link.settle (Link.queueFrame ⟨{ link.conn with wire }, env⟩ frame offset)).2.conn := by
  obtain ⟨same, errno⟩ := settle_open isOpen
  rw [same]
  rcases queueFrame_effect ⟨{ link.conn with wire }, env⟩ frame offset with
    ⟨-, full⟩ | ⟨room, -, -, queued⟩ | ⟨room, failed, queued, e, refused, atErrno⟩
  · rw [full]
    exact .wrote wire
  · rw [queued]
    apply SendEffect.queued wire inside start room
    · intro present _
      simp [driver, present]
    · intro on
      simpa [driver] using on
  · rw [queued]
    apply SendEffect.queued wire inside start room _ Or.inl
    intro _ calm
    rw [errno failed] at atErrno
    cases atErrno
    have head := refused.2.2
    rw [answers] at head
    exact absurd (List.mem_of_mem_head? head) calm

theorem sendFrame_effect {link : Link} (payload : Bytes) (opcode : UInt8)
    (isOpen : (link.sendFrame payload opcode).2.conn.isOpen = true) :
    SendEffect link (serverFrame payload opcode) (link.sendFrame payload opcode).2.conn := by
  have present : 0 < (serverFrame payload opcode).length := by simp [serverFrame]
  simp only [Link.sendFrame, packPayload_server] at isOpen ⊢
  split at isOpen
  · rename_i unable
    rw [if_pos unable]
    exact .wrote link.conn.wire
  · rename_i able
    rw [if_neg able]
    split at isOpen
    · rename_i long
      rw [if_pos long]
      exact .wrote link.conn.wire
    · rename_i fits
      rw [if_neg fits]
      split at isOpen
      · rename_i busy
        rw [if_pos busy]
        exact settle_queueFrame_effect rfl rfl present (fun _ => rfl) isOpen
      · rename_i idle
        rw [if_neg idle]
        generalize writeSome link.env.sends link.env.errno (serverFrame payload opcode).length = w
          at isOpen ⊢
        split at isOpen
        · rename_i short
          rw [if_pos short]
          simp only [Bool.and_eq_true, decide_eq_true_eq] at short
          exact settle_queueFrame_effect rfl rfl short.2 (fun busy => absurd busy idle) isOpen
        · rename_i settled
          rw [if_neg settled]
          rw [(settle_open isOpen).1]
          exact .wrote _

theorem sendFrame_counted {link : Link} (counted : Counted link.conn) (payload : Bytes)
    (opcode : UInt8) (isOpen : (link.sendFrame payload opcode).2.conn.isOpen = true) :
    Counted (link.sendFrame payload opcode).2.conn := by
  have effect := sendFrame_effect payload opcode isOpen
  generalize (link.sendFrame payload opcode).2.conn = after at effect ⊢
  cases effect with
  | wrote wire => exact counted.congr rfl rfl rfl rfl
  | queued wire inside start room =>
      have before : Counted { link.conn with wire } := counted.congr rfl rfl rfl rfl
      exact (before.enqueue inside start room).congr rfl rfl rfl rfl

theorem sendFrame_accounted {watching : Bool} {link : Link} (accounted : Accounted watching link.conn)
    (driver : link.env.driver.isSome = watching) (calm : some .enobufs ∉ link.env.watchWrites)
    (payload : Bytes) (opcode : UInt8) (isOpen : (link.sendFrame payload opcode).2.conn.isOpen = true) :
    Accounted watching (link.sendFrame payload opcode).2.conn := by
  have counted := sendFrame_counted accounted.toCounted payload opcode isOpen
  have effect := sendFrame_effect payload opcode isOpen
  generalize (link.sendFrame payload opcode).2.conn = after at counted effect ⊢
  cases effect with
  | wrote wire =>
      exact ⟨counted, accounted.unwatched, accounted.watched, accounted.closing, accounted.driven⟩
  | queued wire _ _ _ on driven =>
      refine ⟨counted, ?_, fun _ watching => on (driver.trans watching) calm, ?_, ?_⟩
      · intro empty
        simp [Connection.enqueue] at empty
      · intro _ empty
        simp [Connection.enqueue] at empty
      · intro watched
        exact (driven watched).elim accounted.driven driver.symm.trans

theorem flush_counted {link : Link} (counted : Counted link.conn)
    (isOpen : link.flush.2.conn.isOpen = true) :
    Counted link.flush.2.conn ∧
      ∀ watching, link.env.driver.isSome = watching → Accounted watching link.conn →
        Accounted watching link.flush.2.conn := by
  obtain ⟨-, post⟩ := flushLoop_counted _ link rfl counted
  have busy : (Link.flushLoop link.conn.writeQueue link).1 = .blocked → link.conn.writeQueue ≠ [] := by
    intro blocked empty
    rw [empty] at blocked
    cases blocked
  unfold Link.flush at isOpen ⊢
  split at isOpen
  · rename_i idle
    rw [if_pos idle]
    exact ⟨counted, fun _ _ => id⟩
  · rename_i able
    rw [if_neg able]
    generalize Link.flushLoop link.conn.writeQueue link = flushed at isOpen post busy ⊢
    obtain ⟨ending, after⟩ := flushed
    obtain ⟨watched, closing, driver, post⟩ := post
    dsimp only at watched closing driver post busy isOpen ⊢
    cases ending with
    | broken =>
        rw [post] at isOpen
        cases isOpen
    | blocked =>
        obtain ⟨waiting, counted⟩ := post
        refine ⟨counted, fun watching present accounted =>
          ⟨counted, fun empty => absurd empty waiting, fun _ on => ?_, fun _ => waiting, fun on => ?_⟩⟩
        · exact watched.trans (accounted.watched (busy rfl) on)
        · exact accounted.driven (watched.symm.trans on)
    | drained =>
        obtain ⟨empty, counted⟩ := post
        dsimp only at isOpen ⊢
        by_cases unwatches : (after.conn.writeWatched && after.env.driver.isSome) = true
        · rw [if_pos unwatches] at isOpen ⊢
          split at isOpen
          · exact absurd isOpen Bool.false_ne_true
          · rename_i going
            rw [if_neg going]
            have same : Counted { after.conn with writeWatched := false } :=
              counted.congr rfl rfl rfl rfl
            exact ⟨same, fun _ _ _ => ⟨same, fun _ => rfl, fun busy => absurd empty busy,
              fun closing => absurd closing going, fun on => absurd on Bool.false_ne_true⟩⟩
        · rw [if_neg unwatches] at isOpen ⊢
          split at isOpen
          · exact absurd isOpen Bool.false_ne_true
          · rename_i going
            rw [if_neg going]
            refine ⟨counted, fun watching present accounted => ?_⟩
            have idle : after.conn.writeWatched = false := by
              refine Bool.eq_false_iff.mpr fun on => unwatches ?_
              rw [on, driver, present, Bool.true_and]
              exact accounted.driven (watched.symm.trans on)
            exact ⟨counted, fun _ => idle, fun busy => absurd empty busy,
              fun closing => absurd closing going, fun on => absurd (idle.symm.trans on) (by decide)⟩

/-! ## Runs -/

/-- What the socket and the driver answer during one call, and the `errno` it finds. -/
structure Answers where
  sends : List SendResult
  watchWrites : List (Option Errno)
  errno : Option Errno

def Link.answering (link : Link) (answers : Answers) : Link where
  conn := link.conn
  env :=
    { link.env with
      sends := answers.sends
      watchWrites := answers.watchWrites
      errno := answers.errno }

/-- What happens to the connection object: one of the calls that write or close, the end
    of the handshake, or a new descriptor. -/
inductive QueueStep where
  | operate (op : Operation)
  | upgrade
  | open (fd maxQueuedBytes : Nat)

namespace QueueStep

def perform : QueueStep → Link → Link
  | .operate op, link => (op.perform link).2
  | .upgrade, link => { link with conn := { link.conn with upgraded := true } }
  | .open fd maxQueuedBytes, link =>
      { link.open fd with conn := { (link.open fd).conn with maxQueuedBytes } }

/-- The calls one after the other, each with answers of its own. The driver stays what
    `run` made it. -/
def run (link : Link) (steps : List (Answers × QueueStep)) : Link :=
  steps.foldl (fun link step => step.2.perform (link.answering step.1)) link

end QueueStep

/-! ### The driver stays -/

theorem queueFrame_driver (link : Link) (frame : Bytes) (offset : Nat) :
    (link.queueFrame frame offset).2.env.driver.isSome = link.env.driver.isSome := by
  simp only [Link.queueFrame]
  split
  · rfl
  · split
    · split <;> exact watchWrite_isSome ..
    · rfl

theorem settle_driver (result : Bool × Link) :
    (Link.settle result).2.env.driver = result.2.env.driver := by
  unfold Link.settle
  split <;> rfl

theorem sendFrame_driver (link : Link) (payload : Bytes) (opcode : UInt8) :
    (link.sendFrame payload opcode).2.env.driver.isSome = link.env.driver.isSome := by
  simp only [Link.sendFrame, packPayload_server]
  split
  · rfl
  · split
    · rfl
    · split
      · rw [settle_driver, queueFrame_driver]
      · split
        · rw [settle_driver, queueFrame_driver]
          rfl
        · rw [settle_driver]
          rfl

theorem closeSocket_driver (link : Link) :
    link.closeSocket.env.driver.isSome = link.env.driver.isSome := by
  unfold Link.closeSocket
  split
  · exact link.env.rewatch_isSome _
  · rfl

theorem flushLoop_driver (queue : List Bytes) (link : Link) :
    (Link.flushLoop queue link).2.env.driver = link.env.driver := by
  induction queue generalizing link with
  | nil => rfl
  | cons frame rest ih =>
      simp only [Link.flushLoop]
      split
      · rfl
      · split
        · rfl
        · rw [ih]
          rfl

theorem flush_driver (link : Link) : link.flush.2.env.driver.isSome = link.env.driver.isSome := by
  have loop := flushLoop_driver link.conn.writeQueue link
  simp only [Link.flush]
  split
  · rfl
  · generalize Link.flushLoop link.conn.writeQueue link = flushed at loop ⊢
    rw [← loop]
    cases flushed.1 with
    | broken | blocked => rfl
    | drained =>
        dsimp only
        split <;> split
        · rw [closeSocket_driver]
          exact Env.rewatch_isSome ..
        · exact Env.rewatch_isSome ..
        · rw [closeSocket_driver]
        · rfl

theorem Operation.perform_driver (op : Operation) (link : Link) :
    (op.perform link).2.env.driver.isSome = link.env.driver.isSome := by
  cases op with
  | sendFrame payload opcode => exact sendFrame_driver link payload opcode
  | sendCloseFrame code reason =>
      simp only [perform, Link.sendCloseFrame]
      split
      · rfl
      · split
        · rfl
        · exact sendFrame_driver ..
  | flush => exact flush_driver link
  | closeAfterWrite =>
      simp only [perform, Link.closeAfterWrite]
      split
      · rfl
      · split
        · exact closeSocket_driver link
        · rfl
  | closeSocket => exact closeSocket_driver link

theorem QueueStep.perform_driver (step : QueueStep) (link : Link) :
    (step.perform link).env.driver.isSome = link.env.driver.isSome := by
  cases step with
  | operate op => exact op.perform_driver link
  | upgrade => rfl
  | «open» fd maxQueuedBytes =>
      simp only [perform, Link.open]
      split
      · exact link.env.rewatch_isSome _
      · rfl

/-! ### The account -/

theorem Operation.perform_isOpen {op : Operation} {link : Link}
    (isOpen : (op.perform link).2.conn.isOpen = true) : link.conn.isOpen = true := by
  apply Bool.eq_true_of_not_eq_false
  intro closed
  revert isOpen
  cases op <;>
    simp [perform, Link.sendFrame, Link.sendCloseFrame, Link.flush, Link.closeAfterWrite,
      Link.closeSocket, Connection.closeSocket, Connection.clearWriteQueue,
      Connection.clearFragment, closed]

theorem Operation.perform_counted {link : Link} (counted : Counted link.conn) (op : Operation)
    (isOpen : (op.perform link).2.conn.isOpen = true) : Counted (op.perform link).2.conn := by
  cases op with
  | sendFrame payload opcode => exact sendFrame_counted counted payload opcode isOpen
  | sendCloseFrame code reason =>
      simp only [perform, Link.sendCloseFrame] at isOpen ⊢
      split at isOpen
      · rename_i unable
        rw [if_pos unable]
        exact counted
      · rename_i able
        rw [if_neg able]
        cases atPayload : closePayload code reason with
        | error e => exact counted
        | ok payload =>
            simp only [atPayload] at isOpen ⊢
            exact sendFrame_counted counted payload opcodeClose isOpen
  | flush => exact (flush_counted counted isOpen).1
  | closeAfterWrite =>
      simp only [perform, Link.closeAfterWrite] at isOpen ⊢
      split
      · exact counted
      · split
        · exact .cleared rfl rfl rfl
        · exact counted.congr rfl rfl rfl rfl
  | closeSocket => exact .cleared rfl rfl rfl

theorem Operation.perform_accounted {watching : Bool} {link : Link}
    (accounted : Accounted watching link.conn) (driver : link.env.driver.isSome = watching)
    (calm : some .enobufs ∉ link.env.watchWrites) (op : Operation)
    (isOpen : (op.perform link).2.conn.isOpen = true) :
    Accounted watching (op.perform link).2.conn := by
  cases op with
  | sendFrame payload opcode => exact sendFrame_accounted accounted driver calm payload opcode isOpen
  | sendCloseFrame code reason =>
      simp only [perform, Link.sendCloseFrame] at isOpen ⊢
      split at isOpen
      · rename_i unable
        rw [if_pos unable]
        exact accounted
      · rename_i able
        rw [if_neg able]
        cases atPayload : closePayload code reason with
        | error e => exact accounted
        | ok payload =>
            simp only [atPayload] at isOpen ⊢
            exact sendFrame_accounted accounted driver calm payload opcodeClose isOpen
  | flush => exact (flush_counted accounted.toCounted isOpen).2 watching driver accounted
  | closeAfterWrite =>
      simp only [perform, Link.closeAfterWrite] at isOpen ⊢
      split at isOpen
      · rename_i shut
        rw [if_pos shut]
        exact accounted
      · rename_i going
        rw [if_neg going]
        split at isOpen
        · exact absurd isOpen Bool.false_ne_true
        · rename_i pending
          rw [if_neg pending]
          have busy : link.conn.writeQueue ≠ [] := by
            simpa [Connection.hasPendingWrites] using pending
          exact ⟨accounted.toCounted.congr rfl rfl rfl rfl, accounted.unwatched, accounted.watched,
            fun _ => busy, accounted.driven⟩
  | closeSocket => exact absurd isOpen Bool.false_ne_true

theorem open_accounted (watching : Bool) (link : Link) (fd maxQueuedBytes : Nat) :
    Accounted watching ((QueueStep.open fd maxQueuedBytes).perform link).conn :=
  ⟨.cleared rfl rfl rfl, fun _ => rfl, fun busy => absurd rfl busy,
    fun closing => absurd closing Bool.false_ne_true, fun on => absurd on Bool.false_ne_true⟩

/-- Every reachable state of an open connection is counted, whatever fails. -/
theorem QueueStep.run_counted (steps : List (Answers × QueueStep)) (link : Link)
    (counted : link.conn.isOpen = true → Counted link.conn) :
    (run link steps).conn.isOpen = true → Counted (run link steps).conn := by
  induction steps generalizing link with
  | nil => exact counted
  | cons step rest ih =>
      apply ih _
      intro isOpen
      obtain ⟨answers, step⟩ := step
      cases step with
      | operate op =>
          have before : Counted (link.answering answers).conn :=
            counted (@Operation.perform_isOpen op (link.answering answers) isOpen)
          exact Operation.perform_counted before op isOpen
      | upgrade => exact (counted isOpen).congr rfl rfl rfl rfl
      | «open» fd maxQueuedBytes => exact (open_accounted true _ fd maxQueuedBytes).toCounted

theorem QueueStep.run_accounted (steps : List (Answers × QueueStep)) (link : Link)
    (calm : ∀ step ∈ steps, some .enobufs ∉ step.1.watchWrites)
    (accounted : link.conn.isOpen = true → Accounted link.env.driver.isSome link.conn) :
    (run link steps).conn.isOpen = true →
      Accounted link.env.driver.isSome (run link steps).conn := by
  induction steps generalizing link with
  | nil => exact accounted
  | cons step rest ih =>
      have driver := step.2.perform_driver (link.answering step.1)
      intro isOpen
      have after := ih (step.2.perform (link.answering step.1))
        (fun later mem => calm later (List.mem_cons_of_mem _ mem)) ?_ isOpen
      · rw [driver] at after
        exact after
      rw [driver]
      intro isOpen
      have calm := calm step (List.mem_cons_self ..)
      obtain ⟨answers, step⟩ := step
      cases step with
      | operate op =>
          have before : Accounted link.env.driver.isSome (link.answering answers).conn :=
            accounted (@Operation.perform_isOpen op (link.answering answers) isOpen)
          exact Operation.perform_accounted before rfl calm op isOpen
      | upgrade =>
          have before := accounted isOpen
          exact ⟨before.toCounted.congr rfl rfl rfl rfl, before.unwatched, before.watched,
            before.closing, before.driven⟩
      | «open» fd maxQueuedBytes => exact open_accounted _ _ fd maxQueuedBytes

/-- In every reachable state of an open connection the account of the write queue is
    exact and within its limit, the driver watches the socket exactly while something
    waits, and a flush has nothing to repair. -/
theorem write_account_exact (env : Env) (steps : List (Answers × QueueStep))
    (calm : ∀ step ∈ steps, some .enobufs ∉ step.1.watchWrites) :
    let link := QueueStep.run ⟨{}, env⟩ steps
    let conn := link.conn
    conn.isOpen = true →
      (conn.writeQueue = [] →
        conn.writeQueueOffset = 0 ∧ conn.queuedBytes = 0 ∧ conn.writeWatched = false) ∧
      (∀ frame rest, conn.writeQueue = frame :: rest →
        conn.writeQueueOffset < frame.length ∧
          conn.queuedBytes = (conn.writeQueue.map List.length).sum - conn.writeQueueOffset ∧
          (env.driver.isSome = true → conn.writeWatched = true)) ∧
      conn.queuedBytes ≤ conn.maxQueuedBytes ∧
      (conn.closeAfterWrite = true → conn.writeQueue ≠ []) ∧
      ∀ answers, Link.flushMarked conn.writeQueue (link.answering answers) =
        (Link.flushLoop conn.writeQueue (link.answering answers), false) := by
  intro link conn isOpen
  have accounted : Accounted env.driver.isSome conn :=
    QueueStep.run_accounted steps ⟨{}, env⟩ calm (fun isOpen => absurd isOpen Bool.false_ne_true)
      isOpen
  refine ⟨fun empty => ⟨accounted.idle empty, ?_, accounted.unwatched empty⟩, ?_,
    accounted.bound, accounted.closing, ?_⟩
  · rw [accounted.bytes, empty, unsent_nil, List.length_nil]
  · intro frame rest queue
    have head := accounted.head frame rest queue
    refine ⟨head, ?_, accounted.watched (by simp [queue])⟩
    rw [accounted.bytes, queue, unsent_cons, List.length_append, List.length_drop, List.length_flatten,
      List.map_cons, List.sum_cons]
    omega
  · intro answers
    apply Prod.ext
    · exact Link.flushMarked_fst ..
    · exact (flushLoop_counted _ (link.answering answers) rfl accounted.toCounted).1

/-- A frame that goes out in part, a second one behind it and a close behind both. -/
theorem write_account_exact_partial :
    let steps : List (Answers × QueueStep) :=
      [(⟨[], [], none⟩, .open 7 64), (⟨[], [], none⟩, .upgrade),
        (⟨[.wrote 0, .failed .eagain], [], none⟩, .operate (.sendFrame [0x61] opcodeText)),
        (⟨[], [], none⟩, .operate (.sendFrame [] opcodePing)),
        (⟨[], [], none⟩, .operate .closeAfterWrite)]
    (∀ step ∈ steps, some .enobufs ∉ step.1.watchWrites) ∧
      (QueueStep.run ⟨{}, {}⟩ steps).conn.writeQueue = [[0x81, 0x01, 0x61], [0x89, 0x00]] ∧
      (QueueStep.run ⟨{}, {}⟩ steps).conn.queuedBytes = 4 ∧
      (QueueStep.run ⟨{}, {}⟩ steps).conn.writeWatched = true := by
  intro steps
  have calm : ∀ step ∈ steps, some .enobufs ∉ step.1.watchWrites := by decide
  have isOpen : (QueueStep.run ⟨{}, {}⟩ steps).conn.isOpen = true := by decide +kernel
  have queue : (QueueStep.run ⟨{}, {}⟩ steps).conn.writeQueue =
      [[0x81, 0x01, 0x61], [0x89, 0x00]] := by decide +kernel
  have offset : (QueueStep.run ⟨{}, {}⟩ steps).conn.writeQueueOffset = 1 := by decide +kernel
  obtain ⟨-, busy, -⟩ := write_account_exact {} steps calm isOpen
  obtain ⟨-, bytes, watched⟩ := busy _ _ queue
  refine ⟨calm, queue, ?_, watched rfl⟩
  rw [bytes, queue, offset]
  rfl

/-! ## A send that is refused -/

/-- How many of `len` octets the socket takes before a failure that leaves `errno` at
    `ENOBUFS`. -/
def takenAtNoBufs : List SendResult → Option Errno → Nat → Option Nat
  | _, _, 0 => none
  | [], _, _ => none
  | .wrote more :: rest, errno, len + 1 =>
      (takenAtNoBufs rest errno (len - more)).map (min (more + 1) (len + 1) + ·)
  | .zero :: _, errno, _ + 1 => if errno = some .enobufs then some 0 else none
  | .failed .eintr :: rest, _, len + 1 => takenAtNoBufs rest (some .eintr) (len + 1)
  | .failed .enobufs :: _, _, _ + 1 => some 0
  | .failed _ :: _, _, _ + 1 => none

theorem writeSome_noBufs (sends : List SendResult) (errno : Option Errno) (len : Nat) :
    takenAtNoBufs sends errno len =
      if (writeSome sends errno len).ok = false ∧
          (writeSome sends errno len).errno = some .enobufs then
        some (writeSome sends errno len).count
      else none := by
  fun_induction writeSome with
  | case1 | case2 | case4 | case6 | case7 => simp [takenAtNoBufs]
  | case3 more rest errno len written ih =>
      have left : len + 1 - written = len - more := by omega
      rw [left] at ih ⊢
      rw [Written.after_ok, Written.after_errno, Written.after_count, takenAtNoBufs, ih]
      by_cases failed : (writeSome rest errno (len - more)).ok = false ∧
          (writeSome rest errno (len - more)).errno = some .enobufs
      · rw [if_pos failed, if_pos failed, Option.map_some]
      · rw [if_neg failed, if_neg failed, Option.map_none]
  | case5 rest errno len ih => simp only [takenAtNoBufs, ih]
  | case8 e rest errno len eintr eagain ewouldblock =>
      cases e <;> simp_all [takenAtNoBufs]

/-- What a refused frame must leave alone. -/
structure Untouched (before after : Connection) : Prop where
  wire : after.wire = before.wire
  writeQueue : after.writeQueue = before.writeQueue
  writeQueueOffset : after.writeQueueOffset = before.writeQueueOffset
  queuedBytes : after.queuedBytes = before.queuedBytes
  writeWatched : after.writeWatched = before.writeWatched

/-- A frame of `len` octets meets an `ENOBUFS` that does not come from the limit of the
    queue: from `send`, with a part of the frame written, or from the driver, with the
    frame in the queue. -/
structure HalfSent (link : Link) (len : Nat) : Prop where
  reading : link.conn.Reading
  fd : link.conn.fd ≠ none
  fits : len ≤ link.conn.maxQueuedBytes
  meets :
    (link.conn.writeQueue = [] ∧
      ((∃ taken, takenAtNoBufs link.env.sends link.env.errno len = some taken ∧ 0 < taken) ∨
        (∃ taken, socketTakes link.env.sends len = some taken ∧ taken < len) ∧
          WatchRefused link.conn link.env .enobufs)) ∨
      (link.conn.writeQueue ≠ [] ∧ Room link.conn len ∧ WatchRefused link.conn link.env .enobufs)

/-- A frame for which there is room is left in the queue exactly if the driver refuses
    with `ENOBUFS`. -/
theorem settle_queueFrame_untouched {link : Link} {before : Connection} {frame : Bytes} {offset : Nat}
    (isOpen : link.conn.isOpen = true) (room : Room link.conn (frame.length - offset))
    (same : link.conn.writeQueue = before.writeQueue) :
    ((Link.settle (link.queueFrame frame offset)).1 = false →
        (Link.settle (link.queueFrame frame offset)).2.conn.isOpen = true →
        Untouched before (Link.settle (link.queueFrame frame offset)).2.conn) ↔
      ¬ WatchRefused link.conn link.env .enobufs := by
  rcases queueFrame_effect link frame offset with
    ⟨full, -⟩ | ⟨-, ok, agreed, -⟩ | ⟨-, failed, queued, e, refused, errno⟩
  · exact absurd room full
  · refine ⟨fun _ => agreed .enobufs, ?_⟩
    intro _ failed
    rw [Link.settle_fst, ok] at failed
    cases failed
  · by_cases noBufs : e = .enobufs
    · subst noBufs
      have kept : Link.settle (link.queueFrame frame offset) = link.queueFrame frame offset := by
        simp [Link.settle, errno]
      rw [kept]
      rw [queued]
      refine ⟨?_, fun agreed => absurd refused agreed⟩
      intro untouched
      have longer := (untouched failed isOpen).writeQueue
      rw [Connection.enqueue, same] at longer
      exact absurd longer (by simp)
    · refine ⟨fun _ other => noBufs ?_, ?_⟩
      · simpa using refused.2.2.symm.trans other.2.2
      · intro _ _ isOpen
        obtain ⟨kept, must⟩ := settle_open isOpen
        rw [errno] at must
        exact absurd (Option.some.inj (must failed)) noBufs

/-- A frame the socket refuses is out in part exactly if something of it was written and
    `errno` is `ENOBUFS`. -/
theorem settle_wrote_untouched {link : Link} (isOpen : link.conn.isOpen = true) (frame : Bytes)
    {w : Written} (present : w.count ≤ frame.length) :
    ((Link.settle (w.ok, link.wrote frame 0 w)).1 = false →
        (Link.settle (w.ok, link.wrote frame 0 w)).2.conn.isOpen = true →
        Untouched link.conn (Link.settle (w.ok, link.wrote frame 0 w)).2.conn) ↔
      ¬ (w.ok = false ∧ w.errno = some .enobufs ∧ 0 < w.count) := by
  cases ok : w.ok with
  | true => simp [Link.settle]
  | false =>
      by_cases noBufs : w.errno = some .enobufs
      · have kept : Link.settle (false, link.wrote frame 0 w) = (false, link.wrote frame 0 w) := by
          simp [Link.settle, Link.wrote, noBufs]
        simp only [kept, noBufs, true_and]
        constructor
        · intro untouched written
          have same := (untouched trivial isOpen).wire
          have length := congrArg List.length same
          simp only [Link.wrote, List.length_append, List.length_take, List.drop_zero] at length
          omega
        · intro nothing _ _
          have zero : w.count = 0 := by omega
          exact ⟨by simp [Link.wrote, zero], rfl, rfl, rfl, rfl⟩
      · simp [Link.settle, Link.wrote, noBufs]

section

variable {link : Link} {frame : Bytes}

theorem queued_untouched_iff (reading : link.conn.Reading) (fd : link.conn.fd ≠ none)
    (fits : frame.length ≤ link.conn.maxQueuedBytes) (busy : link.conn.writeQueue ≠ []) :
    ((Link.settle (link.queueFrame frame 0)).1 = false →
        (Link.settle (link.queueFrame frame 0)).2.conn.isOpen = true →
        Untouched link.conn (Link.settle (link.queueFrame frame 0)).2.conn) ↔
      ¬ HalfSent link frame.length := by
  by_cases room : Room link.conn frame.length
  · rw [settle_queueFrame_untouched reading.1 room rfl]
    refine not_congr ⟨fun refused => ⟨reading, fd, fits, Or.inr ⟨busy, room, refused⟩⟩, ?_⟩
    intro half
    exact half.meets.elim (fun idle => absurd idle.1 busy) fun busy => busy.2.2
  · have full : link.queueFrame frame 0 =
        (false, { link with env := { link.env with errno := some .enobufs } }) :=
      (queueFrame_effect link _ 0).elim And.right fun queued =>
        absurd (queued.elim And.left And.left) room
    rw [full]
    refine ⟨?_, ?_⟩
    · intro _ half
      exact half.meets.elim (fun idle => busy idle.1) fun busy => room busy.2.1
    · intro _ _ _
      unfold Link.settle
      exact ⟨rfl, rfl, rfl, rfl, rfl⟩

theorem written_untouched_iff (reading : link.conn.Reading) (fd : link.conn.fd ≠ none)
    (fits : frame.length ≤ link.conn.maxQueuedBytes) (empty : link.conn.writeQueue = [])
    (idle : link.conn.queuedBytes = 0) :
    let w := writeSome link.env.sends link.env.errno frame.length
    let sent := link.wrote frame 0 w
    let result :=
      if w.ok && w.count < frame.length then Link.settle (sent.queueFrame frame w.count)
      else Link.settle (w.ok, sent)
    (result.1 = false → result.2.conn.isOpen = true → Untouched link.conn result.2.conn) ↔
      ¬ HalfSent link frame.length := by
  have present := writeSome_count_le link.env.sends link.env.errno frame.length
  have takes := writeSome_eq link.env.sends link.env.errno frame.length
  have noBufs := writeSome_noBufs link.env.sends link.env.errno frame.length
  generalize writeSome link.env.sends link.env.errno frame.length = w at present takes noBufs ⊢
  dsimp only
  by_cases short : (w.ok && decide (w.count < frame.length)) = true
  · rw [if_pos short]
    simp only [Bool.and_eq_true, decide_eq_true_eq] at short
    have room : Room (link.wrote frame 0 w).conn (frame.length - w.count) := by
      simp only [Room, Link.wrote]
      omega
    have still : (link.wrote frame 0 w).conn.isOpen = true := reading.1
    have same : (link.wrote frame 0 w).conn.writeQueue = link.conn.writeQueue := rfl
    rw [settle_queueFrame_untouched still room same]
    refine not_congr ⟨fun refused => ⟨reading, fd, fits, ?_⟩, ?_⟩
    · refine Or.inl ⟨empty, Or.inr ⟨⟨w.count, ?_, short.2⟩, refused⟩⟩
      rw [takes, if_pos short.1]
    · intro half
      rcases half.meets with ⟨-, ⟨taken, failed, -⟩ | ⟨-, refused⟩⟩ | ⟨busy, -⟩
      · rw [noBufs, short.1] at failed
        cases failed
      · exact refused
      · exact absurd empty busy
  · rw [if_neg short, settle_wrote_untouched reading.1 _ present]
    simp only [Bool.and_eq_true, decide_eq_true_eq, not_and] at short
    refine not_congr ⟨?_, ?_⟩
    · intro left
      obtain ⟨failed, errno, written⟩ := left
      refine ⟨reading, fd, fits, Or.inl ⟨empty, Or.inl ⟨w.count, ?_, written⟩⟩⟩
      rw [noBufs, if_pos ⟨failed, errno⟩]
    · intro half
      rcases half.meets with ⟨-, ⟨taken, failed, written⟩ | ⟨⟨taken, fine, less⟩, -⟩⟩ | ⟨busy, -⟩
      · rw [noBufs] at failed
        split at failed
        · rename_i both
          cases failed
          exact ⟨both.1, both.2, written⟩
        · cases failed
      · rw [takes] at fine
        split at fine
        · rename_i ok
          cases fine
          exact absurd less (short ok)
        · cases fine
      · exact absurd empty busy

end

/-- A refused send leaves the connection as it was exactly if no `ENOBUFS` of the kernel
    or of the driver meets a frame that is already under way. -/
theorem refused_send_untouched_iff (env : Env) (steps : List (Answers × QueueStep)) (answers : Answers)
    (payload : Bytes) (opcode : UInt8) :
    let before := (QueueStep.run ⟨{}, env⟩ steps).answering answers
    let result := before.sendFrame payload opcode
    (result.1 = false → result.2.conn.isOpen = true → Untouched before.conn result.2.conn) ↔
      ¬ HalfSent before (serverFrame payload opcode).length := by
  intro before result
  have counted : before.conn.isOpen = true → Counted before.conn :=
    QueueStep.run_counted steps ⟨{}, env⟩ fun isOpen => absurd isOpen Bool.false_ne_true
  clear_value before
  simp only [result, Link.sendFrame, packPayload_server]
  split
  · rename_i unable
    refine ⟨?_, fun _ _ _ => ⟨rfl, rfl, rfl, rfl, rfl⟩⟩
    intro _ half
    simp [half.reading.1, half.reading.2.1, half.reading.2.2, half.fd] at unable
  · rename_i able
    simp only [Bool.or_eq_true, Bool.not_eq_true', not_or, Bool.not_eq_false, Bool.not_eq_true,
      Option.isNone_eq_false_iff, Option.isSome_iff_ne_none] at able
    obtain ⟨⟨⟨isOpen, going⟩, upgraded⟩, fd⟩ := able
    have reading : before.conn.Reading := ⟨isOpen, going, upgraded⟩
    split
    · rename_i long
      exact ⟨fun _ half => absurd half.fits (by omega), fun _ _ _ => ⟨rfl, rfl, rfl, rfl, rfl⟩⟩
    · rename_i fits
      have fits : (serverFrame payload opcode).length ≤ before.conn.maxQueuedBytes := by omega
      split
      · rename_i busy
        exact queued_untouched_iff reading fd fits busy
      · rename_i empty
        rw [ne_eq, not_not] at empty
        have idle := (counted isOpen).bytes
        rw [empty, unsent_nil, List.length_nil] at idle
        exact written_untouched_iff reading fd fits empty idle

/-- An open connection whose socket takes one octet of a frame and then has no buffers. -/
def shortOfBuffers : Link :=
  (QueueStep.run ⟨{}, {}⟩ [(⟨[], [], none⟩, .open 7 1024), (⟨[], [], none⟩, .upgrade)]).answering
    ⟨[.wrote 0, .failed .enobufs], [], none⟩

/-- The send is refused, the connection stays open, and the next frame follows the first
    octet of this one. -/
theorem refused_send_leaves_octet :
    (shortOfBuffers.sendFrame [0x61] opcodeText).1 = false ∧
      (shortOfBuffers.sendFrame [0x61] opcodeText).2.conn.isOpen = true ∧
      shortOfBuffers.conn.wire = [] ∧
      (shortOfBuffers.sendFrame [0x61] opcodeText).2.conn.wire = [0x81] ∧
      ¬ Untouched shortOfBuffers.conn (shortOfBuffers.sendFrame [0x61] opcodeText).2.conn := by
  have wire : (shortOfBuffers.sendFrame [0x61] opcodeText).2.conn.wire = [0x81] := by decide +kernel
  refine ⟨by decide +kernel, by decide +kernel, by decide +kernel, wire, ?_⟩
  intro untouched
  have same := untouched.wire
  rw [wire] at same
  exact absurd same (by decide +kernel)

end PhpWebSocket
