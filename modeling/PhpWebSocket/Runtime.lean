import PhpWebSocket.Server

/-! # The server loop

`websocket_server_runtime.c` from the frame handler up to the loop of `run`. Every
function returns the source's boolean with the state it leaves. A loop over `recv`
or `accept` is a recursion on the answers that are left, and one over buffered
frames has the length of the buffer as its fuel, since a frame is never empty.
-/

namespace PhpWebSocket

/-- One answer of `driver->wait`. -/
inductive WaitResult where
  | ready (fd : Nat)
  /-- A timeout, or an event on no known descriptor. -/
  | idle
  | failed (errno : Errno)
  deriving Repr, DecidableEq

namespace Hub

variable (server : Server)

/-- `websocket_server_call_handler` -/
def callHandler (h : Hub) (script : Script) : Bool × Hub :=
  let called := h.callUser script "Failed to call WebSocket server handler"
  (called.2.env.exception.isNone, called.2)

/-- `websocket_server_call_message_handler`. -/
def callMessageHandler (h : Hub) (i : ConnId) (payload : Bytes) (opcode : UInt8) : Bool × Hub :=
  match (server.handlers h.trace).onMessage with
  | none => (true, h)
  | some onMessage =>
      match MessageType.fromOpcode opcode with
      | none => (true, h)
      | some type =>
          let called := (h.emit (.message i type payload (h.conn i))).callUser
            (onMessage i payload type) "Failed to call WebSocket server message handler"
          (called.2.env.exception.isNone, called.2)

end Hub

/-- `websocket_server_append_fragment`; `none` where it returns false. -/
def Connection.appendFragment (conn : Connection) (payload : Bytes) (maxMessageSize : Nat) :
    Option Connection :=
  let currentLen := (conn.fragmentedPayload.getD []).length
  if payload.length > maxMessageSize || currentLen > maxMessageSize - payload.length then none
  else
    match conn.fragmentedPayload with
    | none => some { conn with fragmentedPayload := some payload }
    | some current => some { conn with fragmentedPayload := some (current ++ payload) }

namespace Hub

variable (server : Server)

/-- `websocket_server_handle_data_frame`. -/
def handleDataFrame (h : Hub) (i : ConnId) (frame : ServerFrame) : Bool × Hub :=
  let maxMessageSize := server.options.maxMessageSize
  let conn := h.conn i
  if frame.opcode = opcodeContinuation then
    if !conn.fragmented then h.closeWithCode i closeProtocolError "protocol error"
    else
      match conn.appendFragment frame.payload maxMessageSize with
      | none => (h.clearFragment i).closeWithCode i closeMessageTooBig "message too big"
      | some grown =>
          let h := h.setConn i grown
          let payload := grown.fragmentedPayload.getD []
          if !frame.final then (true, h)
          else if grown.fragmentedOpcode = opcodeText && !isValidUtf8 payload then
            (h.clearFragment i).closeWithCode i closeInvalidPayload "invalid utf-8"
          else
            let called := h.callMessageHandler server i payload grown.fragmentedOpcode
            (called.1, called.2.clearFragment i)
  else if conn.fragmented then
    (h.clearFragment i).closeWithCode i closeProtocolError "protocol error"
  else if frame.final then
    if frame.opcode = opcodeText && !isValidUtf8 frame.payload then
      h.closeWithCode i closeInvalidPayload "invalid utf-8"
    else h.callMessageHandler server i frame.payload frame.opcode
  else
    (true, h.setConn i { conn with
      fragmented := true
      fragmentedOpcode := frame.opcode
      fragmentedPayload := some frame.payload })

/-- The branch for a received Close. -/
def handleCloseFrame (h : Hub) (i : ConnId) (payload : Bytes) : Bool × Hub :=
  let conn := h.conn i
  let echoed :=
    if conn.isOpen && conn.upgraded then h.sendFrame i .echo payload opcodeClose else (true, h)
  let cleared := echoed.2.clearFragment i
  (true, if echoed.1 then cleared.closeAfterWrite i else cleared.closeSocket i)

/-- The switch of `websocket_server_handle_frame`. -/
def dispatchFrame (h : Hub) (i : ConnId) (frame : ServerFrame) : Bool × Hub :=
  if frame.opcode = opcodeText || frame.opcode = opcodeBinary ||
      frame.opcode = opcodeContinuation then
    h.handleDataFrame server i frame
  else if frame.opcode = opcodePing then h.sendFrame i .pong frame.payload opcodePong
  else if frame.opcode = opcodePong then
    (true, h.setConn i { h.conn i with awaitingPong := false, lastPingUsec := 0 })
  else if frame.opcode = opcodeClose then h.handleCloseFrame i frame.payload
  else h.closeWithCode i closeProtocolError "protocol error"

/-- `websocket_server_handle_frame`. -/
def handleFrame (h : Hub) (i : ConnId) (frame : ServerFrame) : Bool × Hub :=
  let seen : Hub := { h with handled := h.handled ++ [⟨h.conn i, h.env, frame⟩] }
  let done := seen.dispatchFrame server i frame
  (done.1 && done.2.env.exception.isNone, done.2)

/-- The end of a connection on which the parser has given up. -/
def refuseFrames (h : Hub) (i : ConnId) (code : Int) (reason : String) : Bool × Hub :=
  ((h.clearFragment i).closeWithCode i code reason)

/-- `websocket_server_notify_connection_closed`. -/
def notifyConnectionClosed (h : Hub) (i : ConnId) : Bool × Hub :=
  let conn := h.conn i
  match (server.handlers h.trace).onClose with
  | none => (true, h)
  | some onClose =>
      if !conn.upgraded || conn.closeNotified then (true, h)
      else
        ((h.setConn i { conn with closeNotified := true }).emit (.closed i)).callHandler (onClose i)

/-- `websocket_server_close_connection_at`. -/
def closeConnectionAt (h : Hub) (index : Nat) (notify : Bool) : Bool × Hub :=
  match h.connections[index]? with
  | none => (true, h)
  | some i =>
      let removed := { h with connections := h.connections.eraseIdx index }.shut i
      let unwatched := { removed with env :=
        if (removed.conn i).fd.isSome then removed.env.unwatch (removed.conn i).fd else removed.env }
      let notified := if notify then unwatched.notifyConnectionClosed server i else (true, unwatched)
      (notified.1, notified.2.closeSocket i)

/-- `websocket_server_purge_closed_connections`, from `index` on. -/
def purgeFrom : Nat → Nat → Hub → Bool × Hub
  | 0, _, h => (true, h)
  | fuel + 1, index, h =>
      match h.connections[index]? with
      | none => (true, h)
      | some i =>
          if !(h.conn i).isOpen then
            let closed := h.closeConnectionAt server index true
            if closed.1 then purgeFrom fuel index closed.2 else (false, closed.2)
          else purgeFrom fuel (index + 1) h

/-- `websocket_server_purge_closed_connections`. -/
def purgeClosedConnections (h : Hub) : Bool × Hub := h.purgeFrom server h.connections.length 0

def closeAllFrom : Nat → Bool → Hub → Bool × Hub
  | 0, _, h => (true, h)
  | fuel + 1, notify, h =>
      if h.connections.length = 0 then (true, h)
      else
        let closed := h.closeConnectionAt server (h.connections.length - 1) notify
        if closed.1 then closeAllFrom fuel notify closed.2 else (false, closed.2)

/-- `websocket_server_close_all_connections`. -/
def closeAllConnections (h : Hub) (notify : Bool) : Bool × Hub :=
  h.closeAllFrom server h.connections.length notify

/-- `websocket_server_runtime_close`. -/
def runtimeClose (h : Hub) (notify : Bool) : Hub :=
  let unlistened := match h.listenerFd with
    | none => h
    | some fd => { h with listenerFd := none, env := h.env.unwatch (some fd) }
  let closed := unlistened.closeAllConnections server notify
  if closed.1 then closed.2 else (closed.2.closeAllConnections server false).2

end Hub

/-- `last_activity_usec`, or the time of the accept while there is none. -/
def Connection.lastSeenUsec (conn : Connection) : Nat :=
  if conn.lastActivityUsec ≠ 0 then conn.lastActivityUsec else conn.acceptedAtUsec

/-- `websocket_server_connection_expired`. -/
def connectionExpired (options : Options) (conn : Connection) (nowUsec : Nat) : Bool :=
  if nowUsec = 0 then false
  else if conn.lastSeenUsec = 0 || nowUsec < conn.lastSeenUsec then false
  else
    let timeoutUsec :=
      if !conn.upgraded then options.handshakeTimeoutUsec else options.idleTimeoutUsec
    timeoutUsec > 0 && nowUsec - conn.lastSeenUsec ≥ timeoutUsec

namespace Hub

variable (server : Server)

/-- `websocket_server_close_expired_connection`. -/
def closeExpiredConnection (h : Hub) (i : ConnId) : Hub :=
  if (h.conn i).upgraded then (h.closeWithCode i closeNormal "idle timeout").2 else h.closeSocket i

/-- `websocket_server_process_heartbeat`. -/
def processHeartbeat (h : Hub) (i : ConnId) (nowUsec : Nat) : Bool × Hub :=
  let pingIntervalUsec := server.options.pingIntervalUsec
  let conn := h.conn i
  if pingIntervalUsec = 0 || nowUsec = 0 || !conn.isOpen || !conn.upgraded ||
      conn.closeAfterWrite then (true, h)
  else if conn.awaitingPong then
    if conn.lastPingUsec > 0 && nowUsec ≥ conn.lastPingUsec &&
        nowUsec - conn.lastPingUsec ≥ server.options.pongTimeoutUsec then
      h.closeWithCode i closeNormal "pong timeout"
    else (true, h)
  else if conn.lastSeenUsec = 0 || nowUsec < conn.lastSeenUsec ||
      nowUsec - conn.lastSeenUsec < pingIntervalUsec then (true, h)
  else
    let sent := h.sendFrame i .heartbeat [] opcodePing
    if !sent.1 then sent.2.closeWithCode i closeNormal "heartbeat failed"
    else
      (true, sent.2.setConn i
        { sent.2.conn i with awaitingPong := true, lastPingUsec := nowUsec })

/-- `websocket_server_now_usec`. -/
def now (h : Hub) : Nat × Hub := (h.env.now.1, { h with env := h.env.now.2 })

/-- An HTTP response on the socket of a connection. -/
def respond (h : Hub) (i : ConnId) (status : Int) (text : Bytes) : Bool × Hub :=
  let sent := h.env.sendBytes (h.conn i).fd text
  (sent.1, { h with env := sent.2 }.emit (.response i status sent.1))

/-- The answer to a request that is refused: the response, and the end. -/
def reject (h : Hub) (i : ConnId) (status : Int) (text : Bytes) : Hub :=
  (h.respond i status text).2.shut i

/-- How `websocket_server_call_handshake_handler` ends. -/
inductive Asked where
  | accepted | rejected | failed
  deriving Repr, DecidableEq

/-- `websocket_server_call_handshake_handler` with
    `websocket_server_handle_handshake_exception`. -/
def callHandshakeHandler (h : Hub) (i : ConnId) (request : Request) (script : Script) :
    Asked × Hub :=
  let ran := runScript script (h.emit (.handshake i request))
  match ran.1 with
  | .uncallable =>
      (.failed, ran.2.raise (.error "Failed to call WebSocket server handshake handler"))
  | .threw (.handshakeException (some response)) =>
      (.rejected, ran.2.reject i response.status (handshakeResponseText response))
  | .threw (.handshakeException none) => (.rejected, ran.2.reject i 403 forbiddenResponse)
  | .threw e => (.failed, ran.2.raise e)
  | .returned .null => (.accepted, ran.2)
  | .returned value =>
      (.failed, ran.2.raise (.typeError
        ("WebSocket handshake handler must return void, " ++ value.valueName ++ " returned")))

/-- `websocket_server_call_open_handler` between the two settings of `defer_close`:
    whether the closure asks to close. -/
def callOpenHandler (h : Hub) (i : ConnId) : Bool × Hub :=
  match (server.handlers h.trace).onOpen with
  | none => (false, h)
  | some (.takesConnection run) =>
      let deferred := h.setConn i { h.conn i with deferClose := true }
      let called := (deferred.emit (.opened i)).callUser (run i)
        "Failed to call WebSocket server handler"
      (called.1 = some (.bool false),
        called.2.setConn i { called.2.conn i with deferClose := false })
  | some (.takesNothing run) =>
      let called := (h.emit (.opened i)).callUser run "Failed to call WebSocket server handler"
      (called.1 = some (.bool false), called.2)

end Hub

namespace World

variable (server : Server)

/-- The loop of `websocket_server_process_buffered_frames`. -/
def framesLoop (i : ConnId) : Nat → World → Bool × World
  | 0, w => (true, w)
  | fuel + 1, w =>
      let conn := w.conn i
      if !(conn.isOpen && !conn.closeAfterWrite && conn.upgraded && w.buffer i ≠ []) then (true, w)
      else
        match parseFrame (w.buffer i) server.options.maxMessageSize with
        | .incomplete => (true, w)
        | .messageTooBig => w.onHub (w.refuseFrames i closeMessageTooBig "message too big")
        | .invalidPayload => w.onHub (w.refuseFrames i closeInvalidPayload "invalid utf-8")
        | .protocolError => w.onHub (w.refuseFrames i closeProtocolError "protocol error")
        | .ok frame =>
            let taken := w.discard i frame.bytesConsumed
            let done := taken.onHub (taken.handleFrame server i frame)
            if done.1 then framesLoop i fuel done.2 else (false, done.2)

/-- `websocket_server_process_buffered_frames`. -/
def processBufferedFrames (w : World) (i : ConnId) : Bool × World :=
  w.framesLoop server i (w.buffer i).length

/-- The connection changes over to frames, and keeps what has arrived behind the request. -/
def switchToFrames (w : World) (i : ConnId) (upgrade : HttpUpgrade) : World :=
  let upgraded := w.setConn i { w.conn i with
    selectedSubprotocol := upgrade.selectedSubprotocol, upgraded := true }
  let w := { w with toHub := upgraded }.discard i upgrade.bytesConsumed
  { w with toHub := w.emit (.upgraded i (w.buffer i)) }

/-- `websocket_server_finish_upgrade`. -/
def finishUpgrade (w : World) (i : ConnId) (upgrade : HttpUpgrade) : Bool × World :=
  let sent := w.respond i 101
    (upgradeResponse (upgrade.acceptKey.getD []) upgrade.selectedSubprotocol)
  let w := { w with toHub := sent.2 }
  if !sent.1 then (true, { w with toHub := w.shut i })
  else
    let w := w.switchToFrames i upgrade
    let opened := w.callOpenHandler server i
    let w := { w with toHub := opened.2 }
    if w.env.exception.isSome then (false, { w with toHub := w.shut i })
    else
      let w := if opened.1 then { w with toHub := w.shut i } else w
      if !(w.conn i).isOpen then w.onHub (w.notifyConnectionClosed server i)
      else w.processBufferedFrames server i

/-- What follows a request that has been parsed: the handshake callback and the
    upgrade. -/
def beginUpgrade (w : World) (i : ConnId) (upgrade : HttpUpgrade) : Bool × World :=
  let w := { w with toHub := w.emit (.parsed i (w.buffer i) upgrade) }
  match (server.handlers w.trace).onHandshake with
  | none => { w with toHub := w.emit (.approved i) }.finishUpgrade server i upgrade
  | some onHandshake =>
      let request : Request :=
        ⟨upgrade.method, upgrade.target, requestHeaders upgrade.headers⟩
      let asked := w.callHandshakeHandler i request (onHandshake request)
      let w := { w with toHub := asked.2 }
      match asked.1 with
      | .failed => (false, w)
      | .rejected => (true, w)
      | .accepted => { w with toHub := w.emit (.approved i) }.finishUpgrade server i upgrade

def setRecvs (w : World) (recvs : List RecvResult) : World :=
  { w with env := { w.env with recvs } }

def setErrno (w : World) (errno : Errno) : World :=
  { w with env := { w.env with errno := some errno } }

/-- `connection_obj->last_activity_usec = websocket_server_now_usec()` -/
def touch (w : World) (i : ConnId) : World :=
  let now := w.now
  { w with toHub := now.2.setConn i { now.2.conn i with lastActivityUsec := now.1 } }

/-- The end of a failed `recv`. -/
def failRecv (w : World) (i : ConnId) : Bool × World := (true, { w with toHub := w.shut i })

/-- The loop of `websocket_server_process_handshake`, on the answers of `recv` that
    are left. -/
def handshakeLoop (i : ConnId) : List RecvResult → World → Bool × World
  | recvs, w =>
      if !((w.conn i).isOpen && !(w.conn i).upgraded) then (true, w)
      else
        match recvs with
        | [] => (true, w.setErrno .eagain)
        | .data chunk :: rest =>
            let w := (w.setRecvs rest).touch i
            match (w.reads i).ensureCapacity chunk.octets.length httpMaxRequestSize with
            | none => (true, { w with toHub := w.reject i 400 badRequestResponse })
            | some side =>
                let w := w.setReads i (side.append chunk.octets)
                match parseUpgrade server.lib server.subprotocols (w.buffer i) with
                | .incomplete => handshakeLoop i rest w
                | .invalid => (true, { w with toHub := w.reject i 400 badRequestResponse })
                | .ok upgrade => w.beginUpgrade server i upgrade
        | .eof :: rest => (w.setRecvs rest).failRecv i
        | .failed .eintr :: rest => handshakeLoop i rest ((w.setRecvs rest).setErrno .eintr)
        | .failed .eagain :: rest => (true, (w.setRecvs rest).setErrno .eagain)
        | .failed .ewouldblock :: rest => (true, (w.setRecvs rest).setErrno .ewouldblock)
        | .failed e :: rest => ((w.setRecvs rest).setErrno e).failRecv i

/-- `websocket_server_process_handshake`. -/
def processHandshake (w : World) (i : ConnId) : Bool × World :=
  w.handshakeLoop server i w.env.recvs

/-- The limit of `websocket_server_process_frame_reads`. -/
def readLimit (maxMessageSize : Nat) : Nat :=
  if maxMessageSize > sizeMax - readChunkSize - 14 then sizeMax
  else maxMessageSize + readChunkSize + 14

/-- The loop of `websocket_server_process_frame_reads`. -/
def frameReadsLoop (i : ConnId) : List RecvResult → World → Bool × World
  | recvs, w =>
      if !((w.conn i).isOpen && !(w.conn i).closeAfterWrite && (w.conn i).upgraded) then (true, w)
      else
        match recvs with
        | [] => (w.setErrno .eagain).processBufferedFrames server i
        | .data chunk :: rest =>
            let w := (w.setRecvs rest).touch i
            match (w.reads i).ensureCapacity chunk.octets.length
                (readLimit server.options.maxMessageSize) with
            | none => w.onHub (w.closeWithCode i closeMessageTooBig "message too big")
            | some side =>
                let processed :=
                  (w.setReads i (side.append chunk.octets)).processBufferedFrames server i
                if processed.1 then frameReadsLoop i rest processed.2 else (false, processed.2)
        | .eof :: rest => (w.setRecvs rest).failRecv i
        | .failed .eintr :: rest => frameReadsLoop i rest ((w.setRecvs rest).setErrno .eintr)
        | .failed .eagain :: rest =>
            ((w.setRecvs rest).setErrno .eagain).processBufferedFrames server i
        | .failed .ewouldblock :: rest =>
            ((w.setRecvs rest).setErrno .ewouldblock).processBufferedFrames server i
        | .failed e :: rest => ((w.setRecvs rest).setErrno e).failRecv i

/-- `websocket_server_process_frame_reads`. -/
def processFrameReads (w : World) (i : ConnId) : Bool × World :=
  w.frameReadsLoop server i w.env.recvs

/-- The connection object of a new client, and its place in the table. -/
def openConnection (w : World) (fd : Nat) : Bool × World :=
  let i := w.nextConnectionId
  let now := w.now
  let conn := { Connection.opened fd with
    acceptedAtUsec := now.1
    lastActivityUsec := now.1
    maxQueuedBytes := server.options.maxQueuedBytes }
  let w := ({ w with
    toHub := { now.2.setConn i conn with nextConnectionId := i + 1 } }).setReads i {}
  let watch := w.env.watchRead fd
  let w := { w with env := watch.2 }
  if !watch.1 then
    let name := (w.env.driver.getD {}).name
    let reason := server.lib.strerror (w.env.errno.getD (.other 0))
    (false, { w with toHub := (w.closeSocket i).raise (.error
      ("Cannot watch accepted WebSocket connection with " ++ name ++ " driver: " ++ reason)) })
  else
    (true, { w with
      toHub := { w.toHub with connections := w.connections ++ [i] }.emit (.accepted i) })

/-- What `websocket_server_accept_connection` does with a client. -/
def acceptClient (w : World) (fd : Nat) (nonblocking : Option Errno) : Bool × World :=
  if w.connections.length ≥ server.options.maxConnections then
    let sent := w.env.sendBytes (some fd) serviceUnavailableResponse
    (true, { w with toHub := { w.toHub with env := sent.2 }.emit (.unavailable fd) })
  else
    match nonblocking with
    | some e =>
        (false, { w with toHub := w.raise (.error
          ("Cannot make accepted WebSocket connection non-blocking: " ++ server.lib.strerror e)) })
    | none => w.openConnection server fd

/-- `websocket_server_accept_connection`, on an answer of `accept`. -/
def acceptConnection (w : World) : AcceptResult → Bool × World
  | .failed e => (false, w.setErrno e)
  | .client fd nonblocking =>
      ({ w with env := { w.env with errno := none } } : World).acceptClient server fd nonblocking

/-- The loop of `websocket_server_accept_pending`. -/
def acceptLoop : List AcceptResult → Nat → World → Bool × World
  | answers, accepted, w =>
      if !(w.running && !w.stopped && accepted < acceptBatchLimit) then (true, w)
      else
        match answers with
        | [] => (true, w.setErrno .eagain)
        | answer :: rest =>
            let w := { w with env := { w.env with accepts := rest } }
            let done := w.acceptConnection server answer
            if done.1 then acceptLoop rest (accepted + 1) done.2
            else if done.2.env.exception.isSome then (false, done.2)
            else if done.2.env.errno = some .eagain || done.2.env.errno = some .ewouldblock then
              (true, done.2)
            else if done.2.env.errno = some .eintr then acceptLoop rest accepted done.2
            else (done.2.env.exception.isNone, done.2)

/-- `websocket_server_accept_pending`. -/
def acceptPending (w : World) : Bool × World := w.acceptLoop server w.env.accepts 0

/-- How the checks end that both scans make before they read from a connection. -/
inductive Attention where
  | failed | finished | ready
  deriving Repr, DecidableEq

/-- Timeout, heartbeat and flush, in the order of both scans. -/
def attend (w : World) (i : ConnId) (nowUsec : Nat) : Attention × World :=
  if connectionExpired server.options (w.conn i) nowUsec then
    (.finished, { w with toHub := w.closeExpiredConnection i })
  else
    let beat := w.processHeartbeat server i nowUsec
    let w := { w with toHub := beat.2 }
    if !beat.1 then (.failed, w)
    else
      let flushed := if (w.conn i).hasPendingWrites then w.flush i else (true, w.toHub)
      let w := { w with toHub := flushed.2 }
      if !flushed.1 || !(w.conn i).isOpen || (w.conn i).closeAfterWrite then (.finished, w)
      else (.ready, w)

/-- `websocket_server_process_connection_fd`. -/
def processConnectionFd (w : World) (fd : Nat) : Bool × World :=
  let now := w.now
  let w := { w with toHub := now.2 }
  match w.connections.find? fun i => (w.conn i).fd = some fd with
  | none => (true, w)
  | some i =>
      if !(w.conn i).isOpen then (true, w)
      else
        let attended := w.attend server i now.1
        let w := attended.2
        match attended.1 with
        | .failed => (false, w)
        | .finished => (true, w)
        | .ready =>
            if !(w.conn i).upgraded then w.processHandshake server i
            else w.processFrameReads server i

/-- The body of the loop of `websocket_server_process_connections`. -/
def processConnection (w : World) (i : ConnId) (nowUsec : Nat) : Bool × World :=
  if !(w.conn i).isOpen then (true, w)
  else
    let attended := w.attend server i nowUsec
    let w := attended.2
    match attended.1 with
    | .failed => (false, w)
    | .finished => (true, w)
    | .ready =>
        let shaken := if !(w.conn i).upgraded then w.processHandshake server i else (true, w)
        if !shaken.1 then (false, shaken.2)
        else if (shaken.2.conn i).upgraded && shaken.2.buffer i ≠ [] then
          shaken.2.processBufferedFrames server i
        else (true, shaken.2)

def processEach (nowUsec : Nat) : List ConnId → World → Bool × World
  | [], w => (true, w)
  | i :: rest, w =>
      let done := w.processConnection server i nowUsec
      if done.1 then processEach nowUsec rest done.2 else (false, done.2)

/-- `websocket_server_process_connections`. -/
def processConnections (w : World) : Bool × World :=
  let now := w.now
  let w := { w with toHub := now.2 }
  w.processEach server now.1 w.connections

/-- What the loop of `websocket_server_runtime_run` does for a ready descriptor. -/
def processReady (w : World) : WaitResult → Bool × World
  | .ready fd =>
      if w.listenerFd = some fd then w.acceptPending server else w.processConnectionFd server fd
  | _ => (true, w)

/-- What the loop of `websocket_server_runtime_run` does behind an answer of the driver. -/
def serve (w : World) (wait : WaitResult) : Bool × World :=
  let ready := w.processReady server wait
  if !ready.1 then (false, ready.2)
  else
    let processed := ready.2.processConnections server
    if !processed.1 then (false, processed.2)
    else processed.2.onHub (processed.2.purgeClosedConnections server)

/-- One round of the loop of `websocket_server_runtime_run`; false is its `break`. -/
def runRound (w : World) : WaitResult → Bool × World
  | .failed e =>
      let w := w.setErrno e
      if e = .eintr then (true, w)
      else
        (false, { w with toHub := w.raise (.error
          ("WebSocket server loop failed: " ++ server.lib.strerror e)) })
  | wait => w.serve server wait

/-- How far a run has come: it waits for the driver, or it has left the loop. -/
inductive LoopState where
  | waiting | left
  deriving Repr, DecidableEq

/-- The loop of `websocket_server_runtime_run`. -/
def runLoop : List WaitResult → World → LoopState × World
  | waits, w =>
      if !(w.running && !w.stopped) then (.left, w)
      else
        match waits with
        | [] => (.waiting, w)
        | wait :: rest =>
            let round := w.runRound server wait
            if round.1 then runLoop rest round.2 else (.left, round.2)

/-- What `websocket_server_runtime_run` has come to. -/
inductive RunResult where
  | waiting (w : World)
  | returned (ok : Bool) (w : World)

def RunResult.world : RunResult → World
  | .waiting w => w
  | .returned _ w => w

/-- `websocket_server_runtime_run`. -/
def runtimeRun (w : World) (waits : List WaitResult) : RunResult :=
  match w.env.listener with
  | .error e => .returned false { w with toHub := w.raise e }
  | .ok fd =>
      let watch := w.env.watchRead fd
      let w := { w with listenerFd := some fd, env := watch.2 }
      if !watch.1 then
        let name := (w.env.driver.getD {}).name
        let reason := server.lib.strerror (w.env.errno.getD (.other 0))
        let w := { w with toHub := w.raise (.error
          ("Cannot watch WebSocket listener with " ++ name ++ " driver: " ++ reason)) }
        .returned false { w with toHub := w.runtimeClose server false }
      else
        let looped := w.runLoop server waits
        match looped.1 with
        | .waiting => .waiting looped.2
        | .left =>
            let w := looped.2
            let w := { w with toHub := w.runtimeClose server w.env.exception.isNone }
            .returned w.env.exception.isNone w

end World

end PhpWebSocket
