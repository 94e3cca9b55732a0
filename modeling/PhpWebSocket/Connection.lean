import PhpWebSocket.Env
import PhpWebSocket.Protocol

/-! # A connection

`websocket_connection.c`: the connection object, its write queue and the functions
that put frames on the wire. The read side of the object is kept elsewhere, as none
of these functions touches it. A descriptor is `none` where the source has -1, and
`wire` is a ghost: the frame octets that `send` has taken so far.
-/

namespace PhpWebSocket

structure Connection where
  fd : Option Nat := none
  isOpen : Bool := false
  upgraded : Bool := false
  closeNotified : Bool := false
  deferClose : Bool := false
  writeQueue : List Bytes := []
  writeQueueOffset : Nat := 0
  queuedBytes : Nat := 0
  maxQueuedBytes : Nat := defaultMaxQueuedBytes
  writeWatched : Bool := false
  closeAfterWrite : Bool := false
  fragmented : Bool := false
  fragmentedOpcode : UInt8 := 0
  fragmentedPayload : Option Bytes := none
  acceptedAtUsec : Nat := 0
  lastActivityUsec : Nat := 0
  lastPingUsec : Nat := 0
  awaitingPong : Bool := false
  selectedSubprotocol : Option Bytes := none
  wire : Bytes := []
  deriving Repr, DecidableEq

namespace Connection

/-- `websocket_connection_clear_write_queue`. -/
def clearWriteQueue (conn : Connection) : Connection :=
  { conn with
    writeQueue := []
    writeQueueOffset := 0
    queuedBytes := 0
    writeWatched := false
    closeAfterWrite := false }

/-- `websocket_server_clear_fragment`. -/
def clearFragment (conn : Connection) : Connection :=
  { conn with fragmented := false, fragmentedOpcode := 0, fragmentedPayload := none }

/-- What `websocket_connection_close_socket` leaves of the object. -/
def closeSocket (conn : Connection) : Connection :=
  { ({ conn with fd := none, isOpen := false }.clearWriteQueue.clearFragment) with
    acceptedAtUsec := 0
    lastActivityUsec := 0
    lastPingUsec := 0
    awaitingPong := false }

/-- `websocket_connection_has_pending_writes`. -/
def hasPendingWrites (conn : Connection) : Bool := conn.writeQueue ≠ []

/-- The condition of the loops that read frames, but for the buffer. -/
def Reading (conn : Connection) : Prop :=
  conn.isOpen ∧ conn.closeAfterWrite = false ∧ conn.upgraded

instance (conn : Connection) : Decidable conn.Reading := inferInstanceAs (Decidable (_ ∧ _))

/-- The new entry of `websocket_connection_queue_frame`. -/
def enqueue (conn : Connection) (frame : Bytes) (offset : Nat) : Connection :=
  { conn with
    writeQueueOffset := if conn.writeQueue = [] then offset else conn.writeQueueOffset
    writeQueue := conn.writeQueue ++ [frame]
    queuedBytes := conn.queuedBytes + (frame.length - offset) }

/-- `websocket_connection_open` on a new object. -/
def opened (fd : Nat) : Connection := { fd := some fd, isOpen := true }

end Connection

/-- A connection with the world it writes to. -/
structure Link where
  conn : Connection
  env : Env

namespace Link

/-- The effect of a writing loop on the frame `frame` from `offset` on. -/
def wrote (link : Link) (frame : Bytes) (offset : Nat) (w : Written) : Link :=
  { conn := { link.conn with wire := link.conn.wire ++ (frame.drop offset).take w.count }
    env := { link.env with sends := w.sends, errno := w.errno } }

/-- `websocket_connection_queue_frame`. -/
def queueFrame (link : Link) (frame : Bytes) (offset : Nat) : Bool × Link :=
  let conn := link.conn
  let remaining := frame.length - offset
  if remaining > conn.maxQueuedBytes || conn.queuedBytes > conn.maxQueuedBytes - remaining then
    (false, { link with env := { link.env with errno := some .enobufs } })
  else
    let queued := conn.enqueue frame offset
    if !conn.writeWatched && link.env.driver.isSome then
      let watch := link.env.watchWrite conn.fd
      if watch.1 then (true, { conn := { queued with writeWatched := true }, env := watch.2 })
      else (false, { conn := queued, env := watch.2 })
    else (true, { link with conn := queued })

/-- `websocket_connection_close_socket`. -/
def closeSocket (link : Link) : Link :=
  { conn := link.conn.closeSocket
    env := if link.conn.fd.isSome then link.env.unwatch link.conn.fd else link.env }

/-- `websocket_connection_close_after_write`. -/
def closeAfterWrite (link : Link) : Link :=
  if !link.conn.isOpen then link
  else if !link.conn.hasPendingWrites then link.closeSocket
  else { link with conn := { link.conn with closeAfterWrite := true } }

/-- How the loop of `websocket_connection_flush` ends. -/
inductive Flushed where
  | drained | blocked | broken
  deriving Repr, DecidableEq

/-- The loop of `websocket_connection_flush`, on the queue as it stands. -/
def flushLoop : List Bytes → Link → Flushed × Link
  | [], link => (.drained, link)
  | frame :: rest, link =>
      let offset := link.conn.writeQueueOffset
      let w := writeSome link.env.sends link.env.errno (frame.length - offset)
      let sent := link.wrote frame offset w
      if !w.ok then (.broken, { sent with conn := { sent.conn with isOpen := false } })
      else
        let queuedBytes :=
          if w.count > sent.conn.queuedBytes then 0 else sent.conn.queuedBytes - w.count
        if offset + w.count < frame.length then
          (.blocked, { sent with
            conn := { sent.conn with queuedBytes, writeQueueOffset := offset + w.count } })
        else
          flushLoop rest { sent with
            conn := { sent.conn with queuedBytes, writeQueue := rest, writeQueueOffset := 0 } }

/-- `websocket_connection_flush`. -/
def flush (link : Link) : Bool × Link :=
  if !link.conn.isOpen || link.conn.fd.isNone then (false, link)
  else
    let flushed := flushLoop link.conn.writeQueue link
    match flushed.1 with
    | .broken => (false, flushed.2)
    | .blocked => (true, flushed.2)
    | .drained =>
        let link := flushed.2
        let link := if link.conn.writeWatched && link.env.driver.isSome then
            { conn := { link.conn with writeWatched := false }
              env := link.env.unwatchWrite link.conn.fd }
          else link
        (true, if link.conn.closeAfterWrite then link.closeSocket else link)

/-- The last lines of `websocket_connection_send_frame`: a failure other than a full
    queue takes the connection down. -/
def settle (result : Bool × Link) : Bool × Link :=
  if !result.1 && result.2.env.errno ≠ some .enobufs then
    (false, { result.2 with conn := { result.2.conn with isOpen := false } })
  else result

/-- `websocket_connection_send_frame`. The frame is not masked, so neither a key nor
    the byte order of a word enters. -/
def sendFrame (link : Link) (payload : Bytes) (opcode : UInt8) : Bool × Link :=
  let conn := link.conn
  if !conn.isOpen || conn.closeAfterWrite || !conn.upgraded || conn.fd.isNone then (false, link)
  else
    match packPayload .little none payload opcode flagFin with
    | none => (false, link)
    | some frame =>
        if frame.length > conn.maxQueuedBytes then
          (false, { link with env := { link.env with errno := some .enobufs } })
        else if conn.writeQueue ≠ [] then settle (link.queueFrame frame 0)
        else
          let w := writeSome link.env.sends link.env.errno frame.length
          let sent := link.wrote frame 0 w
          if w.ok && w.count < frame.length then settle (sent.queueFrame frame w.count)
          else settle (w.ok, sent)

/-- `websocket_connection_send_close_frame`. -/
def sendCloseFrame (link : Link) (code : Int) (reason : Bytes) : Bool × Link :=
  if !link.conn.isOpen || !link.conn.upgraded || link.conn.fd.isNone then (false, link)
  else
    match closePayload code reason with
    | .error e => (false, { link with env := link.env.raise e })
    | .ok payload => link.sendFrame payload opcodeClose

/-! ## After a close -/

theorem closeSocket_not_reading (link : Link) : ¬ link.closeSocket.conn.Reading := by
  simp [Link.closeSocket, Connection.closeSocket, Connection.clearWriteQueue,
    Connection.clearFragment, Connection.Reading]

theorem closeAfterWrite_not_reading (link : Link) : ¬ link.closeAfterWrite.conn.Reading := by
  unfold Link.closeAfterWrite
  split
  · rename_i shut
    simp only [Bool.not_eq_true'] at shut
    simp [Connection.Reading, shut]
  · split
    · exact link.closeSocket_not_reading
    · simp [Connection.Reading]

/-- A connection that does not read sends nothing, and the attempt changes nothing. -/
theorem sendFrame_refused {link : Link} (closing : ¬ link.conn.Reading) (payload : Bytes)
    (opcode : UInt8) : link.sendFrame payload opcode = (false, link) := by
  unfold sendFrame
  apply if_pos
  simp only [Connection.Reading, not_and, Bool.not_eq_true] at closing
  cases isOpen : link.conn.isOpen with
  | false => simp
  | true =>
      cases going : link.conn.closeAfterWrite with
      | true => simp
      | false => simp [closing isOpen going]

end Link

end PhpWebSocket
