import PhpWebSocket.Reached
import PhpWebSocket.WriteAccount

/-! # What `Connection::close` hands to the socket

`close` sends a Close frame and closes the connection behind it, or, while the
connection's own `on_open` runs, it only marks the connection. What user code does
after that, and what the server does when the callback returns, takes nothing from the
outgoing stream and closes no socket early; so the mark alone decides whether the frame
goes out.
-/

namespace PhpWebSocket

open Lib

/-- The outgoing stream: the octets the socket has, and those that wait. -/
def Connection.stream (conn : Connection) : Bytes :=
  conn.wire ++ unsent conn.writeQueue conn.writeQueueOffset

/-- The outgoing stream is `stream`, and the socket is not closed before it has all of it. -/
structure Delivers (stream : Bytes) (conn : Connection) : Prop where
  carried : conn.stream = stream
  handed : conn.fd = none → conn.wire = stream

/-- A frame of `len` octets fits the write queue, and the socket does not fail. -/
structure Deliverable (conn : Connection) (env : Env) (len : Nat) : Prop where
  fd : conn.fd ≠ none
  room : Room conn len
  socket : conn.writeQueue = [] → (socketTakes env.sends len).isSome = true

namespace Delivers

variable {stream : Bytes} {conn other : Connection}

theorem congr (delivers : Delivers stream conn) (wire : other.wire = conn.wire)
    (queue : other.writeQueue = conn.writeQueue)
    (offset : other.writeQueueOffset = conn.writeQueueOffset) (fd : other.fd = conn.fd) :
    Delivers stream other := by
  refine ⟨?_, ?_⟩
  · rw [← delivers.carried, Connection.stream, Connection.stream, wire, queue, offset]
  · intro none
    rw [wire]
    exact delivers.handed (fd.symm.trans none)

theorem closeAfterWrite {link : Link} (delivers : Delivers stream link.conn) :
    Delivers stream link.closeAfterWrite.conn := by
  unfold Link.closeAfterWrite
  split
  · exact delivers
  · split
    · rename_i idle
      have empty : link.conn.writeQueue = [] := by
        simpa [Connection.hasPendingWrites] using idle
      have wire : link.conn.wire = stream := by
        rw [← delivers.carried, Connection.stream, empty, unsent_nil, List.append_nil]
      refine ⟨?_, fun _ => wire⟩
      exact (List.append_nil _).trans wire
    · exact delivers.congr rfl rfl rfl rfl

end Delivers

namespace Link

theorem settle_delivers {stream : Bytes} {result : Bool × Link}
    (delivers : Delivers stream result.2.conn) : Delivers stream (settle result).2.conn := by
  unfold settle
  split
  · exact delivers.congr rfl rfl rfl rfl
  · exact delivers

/-- A frame for which there is room goes behind what waits, whatever the driver answers. -/
theorem queueFrame_delivers {link : Link} {frame : Bytes} {offset : Nat}
    (room : Room link.conn (frame.length - offset)) (fd : link.conn.fd ≠ none)
    (start : link.conn.writeQueue ≠ [] → offset = 0) :
    Delivers (link.conn.stream ++ frame.drop offset) (link.queueFrame frame offset).2.conn := by
  have queued : Delivers (link.conn.stream ++ frame.drop offset) (link.conn.enqueue frame offset) := by
    refine ⟨?_, fun none => absurd none fd⟩
    simp only [Connection.stream, Connection.enqueue, List.append_assoc]
    congr 1
    by_cases idle : link.conn.writeQueue = []
    · simp [idle]
    · rw [if_neg idle, unsent_push idle, start idle, List.drop_zero]
  rcases queueFrame_effect link frame offset with ⟨full, -⟩ | ⟨-, -, -, same⟩ | ⟨-, -, same, -⟩
  · exact absurd room full
  · rw [same]
    exact queued.congr rfl rfl rfl rfl
  · rw [same]
    exact queued

theorem sendFrame_delivers {link : Link} (reading : link.conn.Reading) (payload : Bytes)
    (opcode : UInt8)
    (deliverable : Deliverable link.conn link.env (serverFrame payload opcode).length) :
    Delivers (link.conn.stream ++ serverFrame payload opcode)
      (link.sendFrame payload opcode).2.conn := by
  obtain ⟨fd, room, socket⟩ := deliverable
  obtain ⟨isOpen, going, upgraded⟩ := reading
  have able : ¬ (!link.conn.isOpen || link.conn.closeAfterWrite || !link.conn.upgraded ||
      link.conn.fd.isNone) = true := by
    simp [isOpen, going, upgraded, fd]
  have fits : ¬ (serverFrame payload opcode).length > link.conn.maxQueuedBytes := by
    unfold Room at room
    omega
  simp only [sendFrame, packPayload_server, if_neg able, if_neg fits]
  split
  · exact settle_delivers (queueFrame_delivers room fd fun _ => rfl)
  · rename_i idle
    rw [ne_eq, not_not] at idle
    have takes := socket idle
    have present := writeSome_count_le link.env.sends link.env.errno (serverFrame payload opcode).length
    rw [writeSome_eq link.env.sends link.env.errno] at takes
    generalize writeSome link.env.sends link.env.errno (serverFrame payload opcode).length = w
      at takes present ⊢
    have ok : w.ok = true := by
      by_contra failed
      simp [failed] at takes
    have out : (link.wrote (serverFrame payload opcode) 0 w).conn.stream =
        link.conn.stream ++ (serverFrame payload opcode).take w.count := by
      simp [Connection.stream, wrote, idle]
    split
    · have some : Room (link.wrote (serverFrame payload opcode) 0 w).conn
          ((serverFrame payload opcode).length - w.count) := by
        simp only [Room, wrote] at room ⊢
        omega
      have rest := queueFrame_delivers some fd fun busy => absurd idle busy
      rw [out, List.append_assoc, List.take_append_drop] at rest
      exact settle_delivers rest
    · rename_i whole
      simp only [ok, Bool.true_and, decide_eq_true_eq] at whole
      have all : w.count = (serverFrame payload opcode).length := by omega
      refine settle_delivers ⟨?_, fun none => absurd none fd⟩
      rw [out, all, List.take_length]

end Link

/-! ## The call and the rest of the script -/

/-- The connection is closing, or it is closed, with `stream` as its outgoing stream. -/
structure Departing (stream : Bytes) (conn : Connection) : Prop extends Delivers stream conn where
  closing : ¬ conn.Reading

namespace Hub

variable {h : Hub} {i : ConnId}

theorem relink_of_ne {j : ConnId} (other : i ≠ j) (link : Link) : (h.relink j link).conn i = h.conn i :=
  Function.update_of_ne other ..

theorem setConn_of_ne {j : ConnId} (other : i ≠ j) (conn : Connection) :
    (h.setConn j conn).conn i = h.conn i :=
  Function.update_of_ne other ..

theorem sendFrame_conn_of_ne {j : ConnId} (other : i ≠ j) (source : FrameSource) (payload : Bytes)
    (opcode : UInt8) : (h.sendFrame j source payload opcode).2.conn i = h.conn i := by
  simp only [sendFrame]
  split <;> exact relink_of_ne other _

theorem sendFrame_conn (source : FrameSource) (payload : Bytes) (opcode : UInt8) :
    (h.sendFrame i source payload opcode).2.conn i =
      ((h.link i).sendFrame payload opcode).2.conn := by
  simp only [sendFrame]
  split <;> exact conn_relink ..

theorem sendCloseFrame_conn_of_ne {j : ConnId} (other : i ≠ j) (source : FrameSource) (code : Int)
    (reason : Bytes) : (h.sendCloseFrame j source code reason).2.conn i = h.conn i := by
  simp only [sendCloseFrame]
  split <;> exact relink_of_ne other _

theorem closeAfterWrite_departing {stream : Bytes} (delivers : Delivers stream (h.conn i)) :
    Departing stream ((h.closeAfterWrite i).conn i) := by
  rw [closeAfterWrite, conn_relink]
  have before : Delivers stream (h.link i).conn := delivers
  exact ⟨before.closeAfterWrite, Link.closeAfterWrite_not_reading _⟩

/-- No call on another connection, and no call on a connection that is closing, takes
    anything from its stream. -/
theorem perform_departing {stream : Bytes} (departing : Departing stream (h.conn i)) (c : ApiCall) :
    Departing stream ((h.perform c).2.conn i) := by
  cases c with
  | send j payload type =>
      simp only [perform]
      split
      · exact departing
      · rcases connectionSend_cases h j payload type with same | ⟨opcode, reading, -, sent⟩
        · rw [same]
          exact departing
        · have other : i ≠ j := by
            rintro rfl
            exact departing.closing reading
          rw [sent, sendFrame_conn_of_ne other]
          exact departing
  | close j arguments =>
      simp only [perform]
      split
      · exact departing
      · by_cases other : i = j
        · subst other
          rcases connectionClose_cases h i arguments with
            same | shut | closed | ⟨code, reason, payload, ok, closed⟩
          · rw [same]
            exact departing
          · rw [shut, Hub.shut, conn_setConn]
            exact ⟨departing.toDelivers.congr rfl rfl rfl rfl, by simp [Connection.Reading]⟩
          · rw [closed]
            exact closeAfterWrite_departing departing.toDelivers
          · rw [closed]
            apply closeAfterWrite_departing
            rw [sendCloseFrame_eq h i .close ok]
            split
            · exact departing.toDelivers
            · rw [sendFrame_conn, Link.sendFrame_refused departing.closing]
              exact departing.toDelivers
        · rcases connectionClose_cases h j arguments with
            same | shut | closed | ⟨code, reason, payload, -, closed⟩
          · rw [same]
            exact departing
          · rw [shut, Hub.shut, setConn_of_ne other]
            exact departing
          · rw [closed, closeAfterWrite, relink_of_ne other]
            exact departing
          · rw [closed, closeAfterWrite, relink_of_ne other, sendCloseFrame_conn_of_ne other]
            exact departing
  | isOpen j =>
      simp only [perform]
      split <;> exact departing
  | stop => exact departing

theorem runScript_departing {stream : Bytes} (script : Script) (h : Hub)
    (departing : Departing stream (h.conn i)) :
    Departing stream ((runScript script h).2.conn i) := by
  induction script generalizing h with
  | finish result => exact departing
  | call c next ih => exact ih _ _ (perform_departing departing c)

theorem relink_yields {j : ConnId} {link : Link} (yields : Yields 0 (h.conn j) link.conn) (i : ConnId) :
    Yields 0 (h.conn i) ((h.relink j link).conn i) := by
  by_cases same : i = j
  · subst same
    rw [conn_relink]
    exact yields
  · rw [relink_of_ne same]
    exact Yields.refl _

theorem sendFrame_yields (j : ConnId) (source : FrameSource) (payload : Bytes) (opcode : UInt8)
    (i : ConnId) : Yields 0 (h.conn i) ((h.sendFrame j source payload opcode).2.conn i) := by
  have sent := relink_yields (Link.sendFrame_yields 0 (h.link j) payload opcode) i
  simp only [sendFrame]
  split <;> exact sent

theorem closeAfterWrite_yields (j i : ConnId) :
    Yields 0 (h.conn i) ((h.closeAfterWrite j).conn i) :=
  relink_yields (Link.closeAfterWrite_yields 0 (h.link j)) i

theorem perform_yields (h : Hub) (c : ApiCall) (i : ConnId) :
    Yields 0 (h.conn i) ((h.perform c).2.conn i) := by
  cases c with
  | send j payload type =>
      simp only [perform]
      split
      · exact Yields.refl _
      · rcases connectionSend_cases h j payload type with same | ⟨opcode, -, -, sent⟩
        · rw [same]
          exact Yields.refl _
        · rw [sent]
          exact sendFrame_yields (h := h.emit (.submit j opcode payload)) j .send payload opcode i
  | close j arguments =>
      simp only [perform]
      split
      · exact Yields.refl _
      · rcases connectionClose_cases h j arguments with
          same | shut | closed | ⟨code, reason, payload, ok, closed⟩
        · rw [same]
          exact Yields.refl _
        · rw [shut]
          have marked : Yields 0 (h.conn i)
              ((h.relink j ⟨{ h.conn j with isOpen := false }, h.env⟩).conn i) :=
            relink_yields (Yields.shut _) i
          exact marked
        · rw [closed]
          exact closeAfterWrite_yields j i
        · rw [closed, sendCloseFrame_eq h j .close ok]
          split
          · exact closeAfterWrite_yields j i
          · exact (sendFrame_yields j .close payload opcodeClose i).trans (closeAfterWrite_yields j i)
  | isOpen j =>
      simp only [perform]
      split <;> exact Yields.refl _
  | stop => exact Yields.refl _

/-- While its own open callback runs, the call only marks the connection. -/
theorem perform_close_marked (arguments : Option (Int × Bytes))
    (marked : (h.conn i).deferClose = true) :
    ((h.perform (.close i arguments)).2.conn i).stream = (h.conn i).stream := by
  simp only [perform, connectionClose, marked, if_true]
  split
  · rfl
  · split
    · rfl
    · rw [shut, conn_setConn]
      rfl

/-- At any other time it appends the Close frame, if that fits. -/
theorem perform_close_departing {arguments : Option (Int × Bytes)} {code : Int}
    {reason payload : Bytes} (given : arguments.getD (closeNormal, []) = (code, reason))
    (ok : closePayload code reason = .ok payload) (reading : (h.conn i).Reading)
    (deliverable : Deliverable (h.conn i) h.env (serverFrame payload opcodeClose).length)
    (unmarked : (h.conn i).deferClose = false) :
    Departing ((h.conn i).stream ++ serverFrame payload opcodeClose)
      ((h.perform (.close i arguments)).2.conn i) := by
  have accepted : closeArgumentError code reason = none := by
    unfold closePayload at ok
    split at ok
    · cases ok
    · assumption
  have able : ¬ (!(h.conn i).isOpen || !(h.conn i).upgraded || (h.conn i).fd.isNone) = true := by
    simp [reading.1, reading.2.2, deliverable.fd]
  have deliverable : Deliverable (h.link i).conn (h.link i).env
      (serverFrame payload opcodeClose).length := deliverable
  simp only [perform, reading.1, reading.2.2, Bool.not_true, Bool.false_eq_true, if_false,
    connectionClose, given, accepted, unmarked, Bool.and_self, if_true]
  apply closeAfterWrite_departing
  rw [sendCloseFrame_eq h i .close ok, if_neg able, sendFrame_conn]
  exact Link.sendFrame_delivers reading payload opcodeClose deliverable

end Hub

/-! ## Every callback -/

/-- In running `script` from `start`, the call `c` is made in the state `now`, and the
    script goes on with `next`. -/
inductive Performs : Script → Hub → Hub → ApiCall → (ApiResult → Script) → Prop
  | here {c : ApiCall} {next : ApiResult → Script} {now : Hub} :
      Performs (.call c next) now now c next
  | later {c first : ApiCall} {next rest : ApiResult → Script} {start now : Hub}
      (tail : Performs (rest (start.perform first).1) (start.perform first).2 now c next) :
      Performs (.call first rest) start now c next

/-- The server calls user code: the script runs from `start`, and the function that
    called it ends in `after`. -/
inductive UserCall (server : Server) : Script → Hub → Hub → Prop
  | handshake (h : Hub) (j : ConnId) (request : Request) (script : Script) :
      UserCall server script (h.emit (.handshake j request))
        (h.callHandshakeHandler j request script).2
  | opened {h : Hub} (j : ConnId) {run : ConnId → Script}
      (handler : (server.handlers h.trace).onOpen = some (.takesConnection run)) :
      UserCall server (run j) ((h.setConn j { h.conn j with deferClose := true }).emit (.opened j))
        (h.callOpenHandler server j).2
  | openedWithout {h : Hub} (j : ConnId) {run : Script}
      (handler : (server.handlers h.trace).onOpen = some (.takesNothing run)) :
      UserCall server run (h.emit (.opened j)) (h.callOpenHandler server j).2
  | message {h : Hub} (j : ConnId) {payload : Bytes} {opcode : UInt8} {type : MessageType}
      {onMessage : ConnId → Bytes → MessageType → Script}
      (handler : (server.handlers h.trace).onMessage = some onMessage)
      (known : MessageType.fromOpcode opcode = some type) :
      UserCall server (onMessage j payload type) (h.emit (.message j type payload (h.conn j)))
        (h.callMessageHandler server j payload opcode).2
  | closed {h : Hub} (j : ConnId) {onClose : ConnId → Script}
      (handler : (server.handlers h.trace).onClose = some onClose)
      (upgraded : (h.conn j).upgraded = true) (first : (h.conn j).closeNotified = false) :
      UserCall server (onClose j)
        ((h.setConn j { h.conn j with closeNotified := true }).emit (.closed j))
        (h.notifyConnectionClosed server j).2
  /-- The same callback from `websocket_server_close_connection_at`, which then closes
      the socket. -/
  | purged {h : Hub} (j : ConnId) {onClose : ConnId → Script}
      (handler : (server.handlers h.trace).onClose = some onClose)
      (upgraded : (h.conn j).upgraded = true) (first : (h.conn j).closeNotified = false)
      (shut : (h.conn j).isOpen = false) :
      UserCall server (onClose j)
        ((h.setConn j { h.conn j with closeNotified := true }).emit (.closed j))
        ((h.notifyConnectionClosed server j).2.closeSocket j)

theorem Performs.runScript_eq {script : Script} {start now : Hub} {c : ApiCall}
    {next : ApiResult → Script} (performs : Performs script start now c next) :
    (Hub.runScript script start).2 = (Hub.runScript (next (now.perform c).1) (now.perform c).2).2 := by
  induction performs with
  | here => rfl
  | later tail ih => exact ih

theorem Performs.yields {script : Script} {start now : Hub} {c : ApiCall}
    {next : ApiResult → Script} (performs : Performs script start now c next) (i : ConnId) :
    Yields 0 (start.conn i) (now.conn i) := by
  induction performs with
  | here => exact Yields.refl _
  | later tail ih => exact (Hub.perform_yields _ _ i).trans ih

theorem callUser_conn (h : Hub) (script : Script) (failure : String) :
    (h.callUser script failure).2.conn = (Hub.runScript script h).2.conn := by
  simp only [Hub.callUser]
  split <;> rfl

theorem notifyConnectionClosed_conn {server : Server} {h : Hub} {j : ConnId}
    {onClose : ConnId → Script} (handler : (server.handlers h.trace).onClose = some onClose)
    (upgraded : (h.conn j).upgraded = true) (first : (h.conn j).closeNotified = false) :
    (h.notifyConnectionClosed server j).2.conn =
      (Hub.runScript (onClose j)
        ((h.setConn j { h.conn j with closeNotified := true }).emit (.closed j))).2.conn := by
  simp only [Hub.notifyConnectionClosed, handler, upgraded, first, Bool.not_true, Bool.or_self,
    Bool.false_eq_true, if_false, Hub.callHandler]
  exact callUser_conn ..

theorem reject_delivers {h : Hub} {i : ConnId} {stream : Bytes} (delivers : Delivers stream (h.conn i))
    (j : ConnId) (status : Int) (text : Bytes) : Delivers stream ((h.reject j status text).conn i) := by
  by_cases same : i = j
  · subst same
    rw [Hub.reject, Hub.shut, Hub.conn_setConn]
    exact delivers.congr rfl rfl rfl rfl
  · rw [Hub.reject, Hub.shut, Hub.setConn_of_ne same]
    exact delivers

/-- What the server does when the callback returns leaves the stream of a connection that
    user code could still close. -/
theorem UserCall.returns_delivers {server : Server} {script : Script} {start now after : Hub}
    {c : ApiCall} {next : ApiResult → Script} {i : ConnId} {stream : Bytes}
    (called : UserCall server script start after) (performs : Performs script start now c next)
    (reading : (now.conn i).Reading)
    (delivers : Delivers stream ((Hub.runScript script start).2.conn i)) :
    Delivers stream (after.conn i) := by
  cases called with
  | handshake h j request script =>
      simp only [Hub.callHandshakeHandler]
      split <;> first | exact delivers | exact reject_delivers delivers ..
  | opened j handler =>
      simp only [Hub.callOpenHandler, handler]
      by_cases same : i = j
      · subst same
        rw [Hub.conn_setConn, callUser_conn]
        exact delivers.congr rfl rfl rfl rfl
      · rw [Hub.setConn_of_ne same, callUser_conn]
        exact delivers
  | openedWithout j handler =>
      simp only [Hub.callOpenHandler, handler]
      rw [callUser_conn]
      exact delivers
  | message j handler known =>
      simp only [Hub.callMessageHandler, handler, known]
      rw [callUser_conn]
      exact delivers
  | closed j handler upgraded first =>
      rw [notifyConnectionClosed_conn handler upgraded first]
      exact delivers
  | @purged h j onClose handler upgraded first shut =>
      -- the connection that is closed was not open before, so it is another one
      have other : i ≠ j := by
        rintro rfl
        have isOpen := (performs.yields i).isOpen reading.1
        rw [Hub.emit, Hub.conn_setConn, shut] at isOpen
        cases isOpen
      rw [Hub.closeSocket, Hub.relink_of_ne other, notifyConnectionClosed_conn handler upgraded first]
      exact delivers

/-- The octets of a Close frame with a code and a reason. -/
def closeFrame (code : Int) (reason : Bytes) : Bytes :=
  [0x88, UInt8.ofNat (2 + reason.length)] ++ toOctets 2 code.toNat ++ reason

theorem serverFrame_close {code : Int} {reason payload : Bytes}
    (ok : closePayload code reason = .ok payload) :
    serverFrame payload opcodeClose = closeFrame code reason := by
  have length := length_closePayload ok
  have short := (closePayload_ok ok).2.1
  have octets : payload = toOctets 2 code.toNat ++ reason := by
    unfold closePayload at ok
    split at ok
    · cases ok
    · exact (Except.ok.inj ok).symm
  have first : firstOctet opcodeClose flagFin = 0x88 := by decide
  rw [serverFrame, lengthField, if_pos (by omega), first, length, octets, closeFrame]
  simp only [Bool.false_eq_true, if_false, UInt8.zero_or, List.cons_append, List.nil_append]

/-- `Connection::close` on a connection that can send a Close frame appends one, with
    the code and the reason it was given, to everything that was accepted before, and
    the socket has it all before it is closed, in the call, in the rest of the callback
    and when the callback returns. This holds exactly while the connection is not marked
    by its own open callback. -/
theorem close_sends_frame_iff {server : Server} {script : Script} {start now after : Hub} {i : ConnId}
    {arguments : Option (Int × Bytes)} {next : ApiResult → Script} {code : Int} {reason : Bytes}
    (called : UserCall server script start after)
    (performs : Performs script start now (.close i arguments) next)
    (given : arguments.getD (closeNormal, []) = (code, reason))
    (valid : closeCodeIsValid code = true ∧ reason.length ≤ 123 ∧ isValidUtf8 reason = true)
    (reading : (now.conn i).Reading)
    (deliverable : Deliverable (now.conn i) now.env (closeFrame code reason).length) :
    (Delivers ((now.conn i).stream ++ closeFrame code reason)
          ((now.perform (.close i arguments)).2.conn i) ∧
        Delivers ((now.conn i).stream ++ closeFrame code reason) (after.conn i)) ↔
      (now.conn i).deferClose = false := by
  obtain ⟨payload, ok⟩ : ∃ payload, closePayload code reason = .ok payload := by
    rw [closePayload, closeArgumentError]
    simp [valid.1, valid.2.2, closeReasonMaxLen, Nat.not_lt.mpr valid.2.1]
  rw [← serverFrame_close ok] at deliverable ⊢
  constructor
  · rintro ⟨atCall, -⟩
    apply Bool.eq_false_of_not_eq_true
    intro marked
    have same := atCall.carried
    rw [Hub.perform_close_marked arguments marked] at same
    have grown := congrArg List.length same
    simp [serverFrame] at grown
  · intro unmarked
    have departing := Hub.perform_close_departing given ok reading deliverable unmarked
    refine ⟨departing.toDelivers, called.returns_delivers performs reading ?_⟩
    rw [performs.runScript_eq]
    exact (Hub.runScript_departing _ _ departing).toDelivers

/-- A server whose message callback closes the connection. -/
def hangUp : Server where
  options := .array fun _ => none
  handlers := fun _ =>
    { onMessage := some fun i _ _ =>
        .call (.close i (some (1001, [0x62, 0x79, 0x65]))) fun _ => .finish (.returned .null) }
  lib := sampleLib

/-- An upgraded connection whose socket takes one octet and is then full. -/
def slowClient : Hub where
  conn := fun _ => { Connection.opened 7 with upgraded := true }
  connections := [0]
  env := { sends := [.wrote 0, .failed .eagain] }

/-- The first octet is out and the others wait, in the call and when the callback has
    returned. -/
theorem close_sends_frame_iff_partial :
    Delivers (closeFrame 1001 [0x62, 0x79, 0x65])
        ((slowClient.callMessageHandler hangUp 0 [] opcodeText).2.conn 0) ∧
      ((slowClient.callMessageHandler hangUp 0 [] opcodeText).2.conn 0).wire = [0x88] := by
  have called : UserCall hangUp _ _ (slowClient.callMessageHandler hangUp 0 [] opcodeText).2 :=
    UserCall.message 0 rfl rfl
  have both := (close_sends_frame_iff called Performs.here rfl (by decide) (by decide)
    ⟨by decide, by decide, by decide⟩).mpr rfl
  exact ⟨both.2, by decide +kernel⟩

/-- In its own open callback the connection is closed without a Close frame. -/
theorem close_in_open_callback_silent :
    let bye : ConnId → Script := fun i => .call (.close i none) fun _ => .finish (.returned .null)
    let server : Server :=
      { options := .array fun _ => none
        handlers := fun _ => { onOpen := some (.takesConnection bye) }
        lib := sampleLib }
    let env : Env := { accepts := [.client 5 none], recvs := [.data sampleRequestChunk] }
    let w := ((World.start env).runtimeRun server [.ready 3]).world
    .opened 0 ∈ w.trace ∧ (w.conn 0).fd = none ∧ (w.conn 0).wire = [] ∧
      ¬ Delivers (closeFrame 1000 []) (w.conn 0) := by
  intro bye server env w
  have wire : (w.conn 0).wire = [] := by decide +kernel
  refine ⟨by decide +kernel, by decide +kernel, wire, ?_⟩
  intro delivers
  have all := delivers.handed (by decide +kernel)
  rw [wire] at all
  exact absurd all (by decide)

end PhpWebSocket
