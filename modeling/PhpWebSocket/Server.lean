import Mathlib.Logic.Function.Basic
import PhpWebSocket.Connection
import PhpWebSocket.FrameParser
import PhpWebSocket.Http
import PhpWebSocket.Options

/-! # The server and its callbacks

The state the server works on, in two layers: a `Hub` is what callbacks and frame
handling can reach, and a `World` adds the read side of each connection, which only
the reading loops touch. User code is a `Script`: it calls into the extension, sees
each result, and ends with a value or a throwable. Which scripts run may depend on
everything that has happened before, so a theorem for every `Server` is a theorem
for every user program. `trace` and `handled` are ghosts: no function reads them but
to choose a script.
-/

namespace PhpWebSocket

/-- The numeric id of a connection object. -/
abbrev ConnId := Nat

/-- `WebSocket\Request`. -/
structure Request where
  method : Bytes
  target : Bytes
  headers : List (Bytes × Bytes)
  deriving Repr, DecidableEq

/-- Who hands a frame to `send_frame`. -/
inductive FrameSource where
  /-- `Connection::send` -/
  | send
  /-- `Connection::close` -/
  | close
  /-- the answer to a Ping -/
  | pong
  /-- the answer to a Close -/
  | echo
  /-- `websocket_server_close_with_code` -/
  | server
  | heartbeat
  deriving Repr, DecidableEq

/-- What can be seen of a run, from the network or from the callbacks. -/
inductive Event where
  /-- A client turned away with 503. -/
  | unavailable (fd : Nat)
  | accepted (i : ConnId)
  /-- `websocket_http_parse_upgrade` returned OK for what the buffer holds. -/
  | parsed (i : ConnId) (buffer : Bytes) (upgrade : HttpUpgrade)
  /-- `on_handshake` is called. -/
  | handshake (i : ConnId) (request : Request)
  /-- `on_handshake` accepted, or there is none. -/
  | approved (i : ConnId)
  /-- An HTTP response was handed to the socket, completely or not. -/
  | response (i : ConnId) (status : Int) (complete : Bool)
  /-- The connection is upgraded; behind the request the buffer holds `leftover`. -/
  | upgraded (i : ConnId) (leftover : Bytes)
  /-- `on_open` is called. -/
  | opened (i : ConnId)
  /-- `on_message` is called, on a connection in the state `conn`. -/
  | message (i : ConnId) (type : MessageType) (payload : Bytes) (conn : Connection)
  /-- `on_close` is called. -/
  | closed (i : ConnId)
  /-- `Connection::send` has checked its arguments. -/
  | submit (i : ConnId) (opcode : UInt8) (payload : Bytes)
  /-- `websocket_connection_send_frame` accepted a frame. -/
  | frame (i : ConnId) (source : FrameSource) (opcode : UInt8) (payload : Bytes)
  deriving DecidableEq

abbrev Trace := List Event

/-- The methods user code can call while the server runs. -/
inductive ApiCall where
  | send (i : ConnId) (payload : Bytes) (type : Option MessageType)
  /-- `Connection::close`, with no argument or with a code and a reason. -/
  | close (i : ConnId) (arguments : Option (Int × Bytes))
  | isOpen (i : ConnId)
  | stop

inductive ApiResult where
  | done
  | bool (value : Bool)
  | threw (e : PhpError)
  deriving DecidableEq

inductive ReturnValue where
  | null
  | bool (value : Bool)
  | other (typeName : String)
  deriving Repr, DecidableEq

/-- `websocket_zval_value_name`. -/
def ReturnValue.valueName : ReturnValue → String
  | .null => "null"
  | .bool true => "true"
  | .bool false => "false"
  | .other typeName => typeName

/-- How user code ends. -/
inductive HandlerResult where
  | returned (value : ReturnValue)
  | threw (e : PhpError)
  /-- `call_user_function` returned `FAILURE`. -/
  | uncallable
  deriving DecidableEq

/-- A run of user code. -/
inductive Script where
  | finish (result : HandlerResult)
  | call (c : ApiCall) (next : ApiResult → Script)

/-- A closure for `on_open`, which may declare no parameter. -/
inductive OpenHandler where
  | takesConnection (run : ConnId → Script)
  | takesNothing (run : Script)

structure Handlers where
  onHandshake : Option (Request → Script) := none
  onOpen : Option OpenHandler := none
  onMessage : Option (ConnId → Bytes → MessageType → Script) := none
  onClose : Option (ConnId → Script) := none

structure Server where
  options : Options
  subprotocols : List Bytes := []
  /-- The closures registered after a history, as they act after it. -/
  handlers : Trace → Handlers := fun _ => {}
  lib : PhpLib

/-- A frame as `websocket_server_handle_frame` finds it. -/
structure Handled where
  conn : Connection
  env : Env
  frame : ServerFrame

structure Hub where
  conn : ConnId → Connection := fun _ => {}
  connections : List ConnId := []
  nextConnectionId : ConnId := 0
  env : Env := {}
  running : Bool := true
  stopped : Bool := false
  listenerFd : Option Nat := none
  trace : Trace := []
  handled : List Handled := []

/-- The read side of a connection object. -/
structure ReadSide where
  buffer : Bytes := []
  capacity : Nat := 0

structure World extends Hub where
  reads : ConnId → ReadSide := fun _ => {}

namespace Hub

def setConn (h : Hub) (i : ConnId) (conn : Connection) : Hub :=
  { h with conn := Function.update h.conn i conn }

@[simp] theorem conn_setConn (h : Hub) (i : ConnId) (conn : Connection) :
    (h.setConn i conn).conn i = conn :=
  Function.update_self ..

def link (h : Hub) (i : ConnId) : Link := ⟨h.conn i, h.env⟩

def relink (h : Hub) (i : ConnId) (link : Link) : Hub :=
  { h with conn := Function.update h.conn i link.conn, env := link.env }

@[simp] theorem conn_relink (h : Hub) (i : ConnId) (link : Link) :
    (h.relink i link).conn i = link.conn :=
  Function.update_self ..

def emit (h : Hub) (e : Event) : Hub := { h with trace := h.trace ++ [e] }

def raise (h : Hub) (e : PhpError) : Hub := { h with env := h.env.raise e }

/-- `connection_obj->open = false` -/
def shut (h : Hub) (i : ConnId) : Hub := h.setConn i { h.conn i with isOpen := false }

def closeSocket (h : Hub) (i : ConnId) : Hub := h.relink i (h.link i).closeSocket

def closeAfterWrite (h : Hub) (i : ConnId) : Hub := h.relink i (h.link i).closeAfterWrite

def clearFragment (h : Hub) (i : ConnId) : Hub := h.setConn i (h.conn i).clearFragment

def flush (h : Hub) (i : ConnId) : Bool × Hub :=
  let flushed := (h.link i).flush
  (flushed.1, h.relink i flushed.2)

/-- `websocket_connection_send_frame`. -/
def sendFrame (h : Hub) (i : ConnId) (source : FrameSource) (payload : Bytes) (opcode : UInt8) :
    Bool × Hub :=
  let sent := (h.link i).sendFrame payload opcode
  let after := h.relink i sent.2
  (sent.1, if sent.1 then after.emit (.frame i source opcode payload) else after)

/-- `websocket_connection_send_close_frame`. -/
def sendCloseFrame (h : Hub) (i : ConnId) (source : FrameSource) (code : Int) (reason : Bytes) :
    Bool × Hub :=
  let sent := (h.link i).sendCloseFrame code reason
  let after := h.relink i sent.2
  let payload := (closePayload code reason).toOption.getD []
  (sent.1, if sent.1 then after.emit (.frame i source opcodeClose payload) else after)

/-- `websocket_server_close_with_code`. -/
def closeWithCode (h : Hub) (i : ConnId) (code : Int) (reason : String) : Bool × Hub :=
  let sent := h.sendCloseFrame i .server code (ascii reason)
  (true, if sent.1 then sent.2.closeAfterWrite i else sent.2.closeSocket i)

/-- The method `Connection::send`. -/
def connectionSend (h : Hub) (i : ConnId) (payload : Bytes) (type : Option MessageType) :
    ApiResult × Hub :=
  let conn := h.conn i
  if !conn.isOpen || conn.closeAfterWrite then
    (.threw (.error "Cannot send on a closed WebSocket connection"), h)
  else if !conn.upgraded then
    (.threw (.error "Cannot send before the WebSocket connection is upgraded"), h)
  else
    let opcode := (type.map MessageType.opcode).getD opcodeText
    if opcode = opcodeContinuation then
      (.threw (.argumentValueError 2 "must not be WebSocket\\MessageType::Continuation"), h)
    else if opcodeIsControl opcode && payload.length > 125 then
      (.threw (.argumentValueError 1 "control frame payload must be at most 125 bytes"), h)
    else if opcode = opcodeText && !isValidUtf8 payload then
      (.threw (.argumentValueError 1 "must be valid UTF-8 for text frames"), h)
    else
      let sent := (h.emit (.submit i opcode payload)).sendFrame i .send payload opcode
      (if sent.1 then .done else .threw (.error "Failed to send WebSocket frame"), sent.2)

/-- The method `Connection::close`. -/
def connectionClose (h : Hub) (i : ConnId) (arguments : Option (Int × Bytes)) : ApiResult × Hub :=
  let (code, reason) := arguments.getD (closeNormal, [])
  match closeArgumentError code reason with
  | some e => (.threw e, h)
  | none =>
      let conn := h.conn i
      if conn.deferClose then (.done, h.shut i)
      else
        let h := if conn.isOpen && conn.upgraded then (h.sendCloseFrame i .close code reason).2 else h
        (.done, h.closeAfterWrite i)

/-- A call from user code, which holds only connections that a callback was given.
    Callbacks are given upgraded ones; a call on another has no object to go to. -/
def perform (h : Hub) : ApiCall → ApiResult × Hub
  | .send i payload type =>
      if !(h.conn i).upgraded then (.threw .other, h) else h.connectionSend i payload type
  | .close i arguments =>
      if !(h.conn i).upgraded then (.threw .other, h) else h.connectionClose i arguments
  | .isOpen i =>
      if !(h.conn i).upgraded then (.threw .other, h)
      else (.bool ((h.conn i).isOpen && !(h.conn i).closeAfterWrite), h)
  | .stop => (.done, { h with running := false, stopped := true })

def runScript : Script → Hub → HandlerResult × Hub
  | .finish result, h => (result, h)
  | .call c next, h =>
      let answer := h.perform c
      runScript (next answer.1) answer.2

/-- `call_user_function` and what it leaves in `EG(exception)`: the value returned, if
    one is. -/
def callUser (h : Hub) (script : Script) (failure : String) : Option ReturnValue × Hub :=
  let ran := runScript script h
  match ran.1 with
  | .returned value => (some value, ran.2)
  | .threw e => (none, ran.2.raise e)
  | .uncallable => (none, ran.2.raise (.error failure))

end Hub

namespace World

def buffer (w : World) (i : ConnId) : Bytes := (w.reads i).buffer

def setReads (w : World) (i : ConnId) (side : ReadSide) : World :=
  { w with reads := Function.update w.reads i side }

/-- A function on the hub, in the world. -/
def onHub (w : World) (r : Bool × Hub) : Bool × World := (r.1, { w with toHub := r.2 })

/-- `websocket_connection_discard_read_bytes`. -/
def discard (w : World) (i : ConnId) (bytes : Nat) : World :=
  let side := w.reads i
  w.setReads i { side with
    buffer := if bytes ≥ side.buffer.length then [] else side.buffer.drop bytes }

end World

/-- The loop that doubles the capacity. -/
def doubleCapacity : Nat → Nat → Nat → Nat
  | 0, capacity, _ => capacity
  | fuel + 1, capacity, needed =>
      if capacity < needed then doubleCapacity fuel (capacity * 2) needed else capacity

/-- `websocket_connection_ensure_read_capacity`. -/
def ReadSide.ensureCapacity (side : ReadSide) (appendLen limit : Nat) : Option ReadSide :=
  if appendLen > limit || side.buffer.length > limit - appendLen then none
  else
    let needed := side.buffer.length + appendLen
    if needed ≤ side.capacity then some side
    else
      let capacity := doubleCapacity needed (if side.capacity > 0 then side.capacity else 1024) needed
      some { side with capacity := if capacity > limit then limit else capacity }

/-- The `memcpy` of a chunk behind the buffer. -/
def ReadSide.append (side : ReadSide) (chunk : Bytes) : ReadSide :=
  { side with buffer := side.buffer ++ chunk }

end PhpWebSocket
