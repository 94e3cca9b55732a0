import Mathlib.Logic.Relation
import PhpWebSocket.Calls

/-! # Operations

Outside the table, everything that frames, timeouts and user code do to the hub comes down
to a few operations on one connection, its socket or the environment. What each of these
keeps, every function built from them keeps.
-/

namespace PhpWebSocket

open Relation

/-- A change of what no socket sees. -/
inductive Mark : Connection → Connection → Prop
  | shut (c : Connection) : Mark c { c with isOpen := false }
  | fragment (c : Connection) (fragmented : Bool) (fragmentedOpcode : UInt8)
      (fragmentedPayload : Option Bytes) :
      Mark c { c with fragmented, fragmentedOpcode, fragmentedPayload }
  | pong (c : Connection) : Mark c { c with awaitingPong := false, lastPingUsec := 0 }
  | notified (c : Connection) : Mark c { c with closeNotified := true }
  | defer (c : Connection) (deferClose : Bool) : Mark c { c with deferClose }

inductive Op : Hub → Hub → Prop
  | mark {h : Hub} (i : ConnId) {conn : Connection} (mark : Mark (h.conn i) conn) :
      Op h (h.setConn i conn)
  | closeSocket (h : Hub) (i : ConnId) : Op h (h.closeSocket i)
  | closeAfterWrite (h : Hub) (i : ConnId) : Op h (h.closeAfterWrite i)
  | flush (h : Hub) (i : ConnId) : Op h (h.flush i).2
  | send (h : Hub) (i : ConnId) (payload : Bytes) (opcode : UInt8) :
      Op h (h.relink i ((h.link i).sendFrame payload opcode).2)
  | respond (h : Hub) (fd : Option Nat) (text : Bytes) :
      Op h { h with env := (h.env.sendBytes fd text).2 }
  | emit (h : Hub) (e : Event) : Op h (h.emit e)
  | raise (h : Hub) (e : PhpError) : Op h (h.raise e)
  | seen (h : Hub) (x : Handled) : Op h { h with handled := h.handled ++ [x] }
  | stop (h : Hub) : Op h { h with running := false, stopped := true }

def Ops : Hub → Hub → Prop := ReflTransGen Op

namespace Ops

variable {h h' h'' : Hub}

theorem refl (h : Hub) : Ops h h := ReflTransGen.refl

theorem single (op : Op h h') : Ops h h' := ReflTransGen.single op

theorem trans (first : Ops h h') (next : Ops h' h'') : Ops h h'' := ReflTransGen.trans first next

end Ops

/-- An operation that hears no Pong. -/
inductive Calm : Hub → Hub → Prop
  | mark {h : Hub} (i : ConnId) {conn : Connection} (mark : Mark (h.conn i) conn)
      (awaiting : conn.awaitingPong = (h.conn i).awaitingPong)
      (ping : conn.lastPingUsec = (h.conn i).lastPingUsec) : Calm h (h.setConn i conn)
  | closeSocket (h : Hub) (i : ConnId) : Calm h (h.closeSocket i)
  | closeAfterWrite (h : Hub) (i : ConnId) : Calm h (h.closeAfterWrite i)
  | flush (h : Hub) (i : ConnId) : Calm h (h.flush i).2
  | send (h : Hub) (i : ConnId) (payload : Bytes) (opcode : UInt8) :
      Calm h (h.relink i ((h.link i).sendFrame payload opcode).2)
  | respond (h : Hub) (fd : Option Nat) (text : Bytes) :
      Calm h { h with env := (h.env.sendBytes fd text).2 }
  | emit (h : Hub) (e : Event) : Calm h (h.emit e)
  | raise (h : Hub) (e : PhpError) : Calm h (h.raise e)
  | seen (h : Hub) (x : Handled) : Calm h { h with handled := h.handled ++ [x] }
  | stop (h : Hub) : Calm h { h with running := false, stopped := true }

def Calms : Hub → Hub → Prop := ReflTransGen Calm

theorem Calm.op {h h' : Hub} (calm : Calm h h') : Op h h' := by
  cases calm with
  | mark i mark => exact .mark i mark
  | closeSocket i => exact .closeSocket h i
  | closeAfterWrite i => exact .closeAfterWrite h i
  | flush i => exact .flush h i
  | send i payload opcode => exact .send h i payload opcode
  | respond fd text => exact .respond h fd text
  | emit e => exact .emit h e
  | raise e => exact .raise h e
  | seen x => exact .seen h x
  | stop => exact .stop h

namespace Calms

variable {h h' h'' : Hub}

theorem refl (h : Hub) : Calms h h := ReflTransGen.refl

theorem single (calm : Calm h h') : Calms h h' := ReflTransGen.single calm

theorem trans (first : Calms h h') (next : Calms h' h'') : Calms h h'' :=
  ReflTransGen.trans first next

theorem ops (calms : Calms h h') : Ops h h' := ReflTransGen.mono (fun _ _ => Calm.op) _ _ calms

end Calms

namespace Hub

variable (server : Server) (h : Hub) (i : ConnId)

/-! ## Frames -/

theorem shut_calm : Calm h (h.shut i) := .mark i (.shut _) rfl rfl

theorem clearFragment_calm : Calm h (h.clearFragment i) := .mark i (.fragment _ _ _ _) rfl rfl

theorem sendFrame_calm (source : FrameSource) (payload : Bytes) (opcode : UInt8) :
    Calms h (h.sendFrame i source payload opcode).2 := by
  have sent := Calms.single (Calm.send h i payload opcode)
  simp only [sendFrame]
  split
  · exact sent.tail (.emit _ _)
  · exact sent

theorem sendCloseFrame_calm (source : FrameSource) (code : Int) (reason : Bytes) :
    Calms h (h.sendCloseFrame i source code reason).2 := by
  have sent : Calms h (h.relink i ((h.link i).sendCloseFrame code reason).2) := by
    unfold Link.sendCloseFrame
    split
    · rw [show h.relink i (h.link i) = h by simp [relink, link]]
      exact Calms.refl h
    · split
      · rename_i e _
        rw [show h.relink i { h.link i with env := (h.link i).env.raise e } = h.raise e by
          simp [relink, link, raise]]
        exact Calms.single (.raise h e)
      · exact Calms.single (.send h i _ _)
  simp only [sendCloseFrame]
  split
  · exact sent.tail (.emit _ _)
  · exact sent

theorem closeWithCode_calm (code : Int) (reason : String) :
    Calms h (h.closeWithCode i code reason).2 := by
  have sent := h.sendCloseFrame_calm i .server code (ascii reason)
  simp only [closeWithCode]
  split
  · exact sent.tail (.closeAfterWrite _ i)
  · exact sent.tail (.closeSocket _ i)

/-! ## User code -/

theorem connectionSend_calm (payload : Bytes) (type : Option MessageType) :
    Calms h (h.connectionSend i payload type).2 := by
  rcases connectionSend_cases h i payload type with same | ⟨opcode, -, -, sent⟩
  · rw [same]
    exact Calms.refl h
  · rw [sent]
    exact (Calms.single (.emit h _)).trans (sendFrame_calm _ i _ _ _)

theorem connectionClose_calm (arguments : Option (Int × Bytes)) :
    Calms h (h.connectionClose i arguments).2 := by
  rcases connectionClose_cases h i arguments with
    same | shut | closing | ⟨code, reason, payload, ok, closed⟩
  · rw [same]
    exact Calms.refl h
  · rw [shut]
    exact Calms.single (h.shut_calm i)
  · rw [closing]
    exact Calms.single (.closeAfterWrite h i)
  · rw [closed]
    exact (h.sendCloseFrame_calm i _ _ _).tail (.closeAfterWrite _ i)

theorem perform_calm (c : ApiCall) : Calms h (h.perform c).2 := by
  cases c with
  | send i payload type =>
      simp only [perform]
      split
      · exact Calms.refl h
      · exact h.connectionSend_calm i payload type
  | close i arguments =>
      simp only [perform]
      split
      · exact Calms.refl h
      · exact h.connectionClose_calm i arguments
  | isOpen i =>
      simp only [perform]
      split <;> exact Calms.refl h
  | stop => exact Calms.single (.stop h)

theorem runScript_calm (script : Script) : Calms h (runScript script h).2 := by
  induction script generalizing h with
  | finish result => exact Calms.refl h
  | call c next ih => exact (h.perform_calm c).trans (ih _ _)

theorem callUser_calm (script : Script) (failure : String) : Calms h (h.callUser script failure).2 := by
  have ran := h.runScript_calm script
  simp only [callUser]
  split
  · exact ran
  · exact ran.tail (.raise _ _)
  · exact ran.tail (.raise _ _)

theorem callHandler_calm (script : Script) : Calms h (h.callHandler script).2 :=
  h.callUser_calm script _

theorem callMessageHandler_calm (payload : Bytes) (opcode : UInt8) :
    Calms h (h.callMessageHandler server i payload opcode).2 := by
  unfold callMessageHandler
  split
  · exact Calms.refl h
  · split
    · exact Calms.refl h
    · exact (Calms.single (.emit h _)).trans (callUser_calm _ _ _)

theorem notifyConnectionClosed_calm : Calms h (h.notifyConnectionClosed server i).2 := by
  simp only [notifyConnectionClosed]
  split
  · exact Calms.refl h
  · split
    · exact Calms.refl h
    · have marked := Calms.single (Calm.mark (h := h) i (.notified _) rfl rfl)
      exact (marked.tail (.emit _ _)).trans (callHandler_calm _ _)

theorem callOpenHandler_calm : Calms h (h.callOpenHandler server i).2 := by
  unfold callOpenHandler
  split
  · exact Calms.refl h
  · have deferred := Calms.single (Calm.mark (h := h) i (.defer _ true) rfl rfl)
    exact ((deferred.tail (.emit _ _)).trans (callUser_calm _ _ _)).tail (.mark i (.defer _ false) rfl rfl)
  · exact (Calms.single (.emit h _)).trans (callUser_calm _ _ _)

/-! ## Received frames -/

theorem handleDataFrame_calm (frame : ServerFrame) : Calms h (h.handleDataFrame server i frame).2 := by
  have cleared := Calms.single (h.clearFragment_calm i)
  simp only [handleDataFrame]
  split
  · split
    · exact h.closeWithCode_calm i _ _
    · split
      · exact cleared.trans (closeWithCode_calm _ i _ _)
      · rename_i grown fits
        have grew : Calms h (h.setConn i grown) := by
          simp only [Connection.appendFragment] at fits
          split at fits
          · cases fits
          · split at fits <;> cases fits <;> exact Calms.single (.mark i (.fragment _ _ _ _) rfl rfl)
        split
        · exact grew
        · split
          · exact (grew.tail (clearFragment_calm _ i)).trans (closeWithCode_calm _ i _ _)
          · exact (grew.trans (callMessageHandler_calm server _ i _ _)).tail (clearFragment_calm _ i)
  · split
    · exact cleared.trans (closeWithCode_calm _ i _ _)
    · split
      · split
        · exact h.closeWithCode_calm i _ _
        · exact h.callMessageHandler_calm server i _ _
      · exact Calms.single (.mark i (.fragment _ _ _ _) rfl rfl)

theorem handleCloseFrame_calm (payload : Bytes) : Calms h (h.handleCloseFrame i payload).2 := by
  have closed {echoed : Bool × Hub} (ops : Calms h echoed.2) :
      Calms h (if echoed.1 then (echoed.2.clearFragment i).closeAfterWrite i
        else (echoed.2.clearFragment i).closeSocket i) := by
    have cleared := ops.tail (clearFragment_calm _ i)
    split
    · exact cleared.tail (.closeAfterWrite _ i)
    · exact cleared.tail (.closeSocket _ i)
  unfold handleCloseFrame
  apply closed
  split
  · exact h.sendFrame_calm i _ _ _
  · exact Calms.refl h

/-- A Pong is all that `handle_frame` can hear. -/
theorem handleFrame_cases (frame : ServerFrame) :
    frame.opcode ≠ opcodePong ∧ Calms h (h.handleFrame server i frame).2 ∨
      frame.opcode = opcodePong ∧ ∃ seen, Calms h seen ∧
        (h.handleFrame server i frame).2 =
          seen.setConn i { seen.conn i with awaitingPong := false, lastPingUsec := 0 } := by
  have seen := Calms.single (Calm.seen h ⟨h.conn i, h.env, frame⟩)
  simp only [handleFrame, dispatchFrame]
  split
  · rename_i data
    refine .inl ⟨?_, seen.trans (handleDataFrame_calm server _ i frame)⟩
    rintro pong
    rw [pong] at data
    exact absurd data (by decide)
  · split
    · rename_i ping
      exact .inl ⟨ping ▸ by decide, seen.trans (sendFrame_calm _ i _ _ _)⟩
    · split
      · rename_i pong
        exact .inr ⟨pong, _, seen, rfl⟩
      · rename_i pong
        split
        · exact .inl ⟨pong, seen.trans (handleCloseFrame_calm _ i _)⟩
        · exact .inl ⟨pong, seen.trans (closeWithCode_calm _ i _ _)⟩

theorem handleFrame_ops (frame : ServerFrame) : Ops h (h.handleFrame server i frame).2 := by
  rcases h.handleFrame_cases server i frame with ⟨-, calms⟩ | ⟨-, seen, calms, heard⟩
  · exact calms.ops
  · rw [heard]
    exact calms.ops.tail (.mark i (.pong _))

theorem refuseFrames_calm (code : Int) (reason : String) : Calms h (h.refuseFrames i code reason).2 :=
  (Calms.single (h.clearFragment_calm i)).trans (closeWithCode_calm _ i code reason)

/-! ## Timeouts and responses -/

theorem closeExpiredConnection_calm : Calms h (h.closeExpiredConnection i) := by
  unfold closeExpiredConnection
  split
  · exact h.closeWithCode_calm i _ _
  · exact Calms.single (.closeSocket h i)

theorem respond_calm (status : Int) (text : Bytes) : Calms h (h.respond i status text).2 :=
  (Calms.single (.respond h _ text)).tail (.emit _ _)

theorem reject_calm (status : Int) (text : Bytes) : Calms h (h.reject i status text) :=
  (h.respond_calm i status text).tail (shut_calm _ i)

theorem callHandshakeHandler_calm (request : Request) (script : Script) :
    Calms h (h.callHandshakeHandler i request script).2 := by
  have ran := (Calms.single (.emit h (.handshake i request))).trans (runScript_calm _ script)
  simp only [callHandshakeHandler]
  split
  · exact ran.tail (.raise _ _)
  · exact ran.trans (reject_calm _ i _ _)
  · exact ran.trans (reject_calm _ i _ _)
  · exact ran.tail (.raise _ _)
  · exact ran
  · exact ran.tail (.raise _ _)

/-- The timeouts, but for the Ping of a heartbeat that `send_frame` accepts. -/
theorem processHeartbeat_calm (nowUsec : Nat) :
    Calms h (h.processHeartbeat server i nowUsec).2 ∨
      ∃ sent, Calms h sent ∧ (h.conn i).awaitingPong = false ∧ (h.conn i).Reading ∧
        (h.processHeartbeat server i nowUsec).2 =
          sent.setConn i { sent.conn i with awaitingPong := true, lastPingUsec := nowUsec } := by
  have sent := h.sendFrame_calm i .heartbeat [] opcodePing
  simp only [processHeartbeat]
  split
  · exact Or.inl (Calms.refl h)
  · rename_i going
    split
    · split
      · exact Or.inl (h.closeWithCode_calm i _ _)
      · exact Or.inl (Calms.refl h)
    · rename_i heard
      split
      · exact Or.inl (Calms.refl h)
      · split
        · exact Or.inl (sent.trans (closeWithCode_calm _ i _ _))
        · simp only [Bool.or_eq_true, Bool.not_eq_true', not_or, Bool.not_eq_false,
            Bool.not_eq_true] at going heard
          exact Or.inr ⟨_, sent, heard, ⟨going.1.1.2, going.2, going.1.2⟩, rfl⟩

end Hub

/-! ## The service of one connection -/

/-- A step in the service of the connection `i` that asks for nothing: an operation, or a
    change that only its service makes. -/
inductive Turn (i : ConnId) : World → World → Prop
  | op {w : World} {h : Hub} (op : Op w.toHub h) : Turn i w { w with toHub := h }
  | errno (w : World) (e : Errno) : Turn i w (w.setErrno e)
  | reads (w : World) (side : ReadSide) : Turn i w (w.setReads i side)
  | beat (w : World) (nowUsec : Nat) :
      Turn i w { w with
        toHub := w.setConn i { w.conn i with awaitingPong := true, lastPingUsec := nowUsec } }
  | upgrade (w : World) (selectedSubprotocol : Option Bytes) :
      Turn i w { w with
        toHub := w.setConn i { w.conn i with selectedSubprotocol, upgraded := true } }

def Turns (i : ConnId) : World → World → Prop := ReflTransGen (Turn i)

/-- A step of the loops over `recv`. -/
inductive Heed (i : ConnId) : World → World → Prop
  | turn {w w' : World} (turn : Turn i w w') : Heed i w w'
  | recvs (w : World) (recvs : List RecvResult) : Heed i w (w.setRecvs recvs)
  | touch (w : World) : Heed i w (w.touch i)

def Heeds (i : ConnId) : World → World → Prop := ReflTransGen (Heed i)

theorem Turns.heeds {i : ConnId} {w w' : World} (turns : Turns i w w') : Heeds i w w' :=
  ReflTransGen.mono (fun _ _ => Heed.turn) _ _ turns

namespace World

variable (server : Server) {i : ConnId}

theorem turns_of_ops {w : World} {h : Hub} (ops : Ops w.toHub h) : Turns i w { w with toHub := h } := by
  induction ops with
  | refl => exact ReflTransGen.refl
  | tail _ op ih => exact ReflTransGen.tail ih (Turn.op (w := { w with toHub := _ }) op)

theorem framesLoop_ops (fuel : Nat) (w : World) :
    Ops w.toHub (w.framesLoop server i fuel).2.toHub ∧
      ∃ side, (w.framesLoop server i fuel).2 =
        { w with toHub := (w.framesLoop server i fuel).2.toHub }.setReads i side := by
  have still (w : World) (h : Hub) : { w with toHub := h } = { w with toHub := h }.setReads i (w.reads i) := by
    simp [setReads]
  induction fuel generalizing w with
  | zero => exact ⟨Ops.refl _, _, still w w.toHub⟩
  | succ fuel ih =>
      simp only [framesLoop]
      split
      · exact ⟨Ops.refl _, _, still w w.toHub⟩
      · split
        · exact ⟨Ops.refl _, _, still w w.toHub⟩
        · exact ⟨(w.refuseFrames_calm i _ _).ops, _, still w _⟩
        · exact ⟨(w.refuseFrames_calm i _ _).ops, _, still w _⟩
        · exact ⟨(w.refuseFrames_calm i _ _).ops, _, still w _⟩
        · rename_i frame _
          let taken := w.discard i frame.bytesConsumed
          have handled := taken.handleFrame_ops server i frame
          split
          · obtain ⟨ops, side, later⟩ := ih (taken.onHub (taken.handleFrame server i frame)).2
            refine ⟨handled.trans ops, side, later.trans ?_⟩
            simp [taken, discard, onHub, setReads]
          · exact ⟨handled, taken.reads i, by simp [discard, onHub, setReads, taken]⟩

theorem processBufferedFrames_ops (w : World) :
    Ops w.toHub (w.processBufferedFrames server i).2.toHub := (framesLoop_ops server _ w).1

theorem processBufferedFrames_turns (w : World) : Turns i w (w.processBufferedFrames server i).2 := by
  obtain ⟨ops, side, landed⟩ := framesLoop_ops server (i := i) (w.buffer i).length w
  rw [processBufferedFrames, landed]
  exact (turns_of_ops ops).tail (.reads _ side)

theorem finishUpgrade_turns (w : World) (upgrade : HttpUpgrade) :
    Turns i w (w.finishUpgrade server i upgrade).2 := by
  have sent := turns_of_ops (i := i) (w.respond_calm i 101
    (upgradeResponse (upgrade.acceptKey.getD []) upgrade.selectedSubprotocol)).ops
  simp only [finishUpgrade]
  split
  · exact sent.tail (.op (Hub.shut_calm _ i).op)
  · have switched {w' : World} (turns : Turns i w w') : Turns i w (w'.switchToFrames i upgrade) :=
      ((turns.tail (.upgrade w' _)).tail (.reads _ _)).tail (.op (.emit _ _))
    have opened {w' : World} (turns : Turns i w w') :
        Turns i w { w' with toHub := (w'.callOpenHandler server i).2 } :=
      turns.trans (turns_of_ops (w'.callOpenHandler_calm server i).ops)
    have entered := opened (switched sent)
    split
    · exact entered.tail (.op (Hub.shut_calm _ i).op)
    · have going {w' : World} (turns : Turns i w w') :
          Turns i w (if !(w'.conn i).isOpen then w'.onHub (w'.notifyConnectionClosed server i)
            else w'.processBufferedFrames server i).2 := by
        split
        · exact turns.trans (turns_of_ops (w'.notifyConnectionClosed_calm server i).ops)
        · exact turns.trans (processBufferedFrames_turns server w')
      split
      · apply going
        exact entered.tail (.op (Hub.shut_calm _ i).op)
      · exact going entered

theorem beginUpgrade_turns (w : World) (upgrade : HttpUpgrade) :
    Turns i w (w.beginUpgrade server i upgrade).2 := by
  have parsed : Turns i w { w with toHub := w.emit (.parsed i (w.buffer i) upgrade) } :=
    ReflTransGen.single (.op (.emit _ _))
  have finished {w' : World} (turns : Turns i w w') :
      Turns i w ({ w' with toHub := w'.emit (.approved i) }.finishUpgrade server i upgrade).2 :=
    (turns.tail (.op (.emit _ _))).trans (finishUpgrade_turns server _ upgrade)
  simp only [beginUpgrade]
  split
  · exact finished parsed
  · have asked {w' : World} (turns : Turns i w w') (request : Request) (script : Script) :
        Turns i w { w' with toHub := (w'.callHandshakeHandler i request script).2 } :=
      turns.trans (turns_of_ops (w'.callHandshakeHandler_calm i request script).ops)
    split
    · exact asked parsed _ _
    · exact asked parsed _ _
    · exact finished (asked parsed _ _)

theorem reject_turns (w : World) (status : Int) (text : Bytes) :
    Turns i w { w with toHub := w.reject i status text } := turns_of_ops (w.reject_calm i status text).ops

theorem failRecv_turns (w : World) : Turns i w (w.failRecv i).2 :=
  ReflTransGen.single (.op (w.shut_calm i).op)

theorem handshakeLoop_heeds (recvs : List RecvResult) (w : World) :
    Heeds i w (w.handshakeLoop server i recvs).2 := by
  induction recvs generalizing w with
  | nil =>
      rw [handshakeLoop.eq_def]
      dsimp only
      split
      · exact ReflTransGen.refl
      · exact ReflTransGen.single (.turn (.errno w _))
  | cons answer rest ih =>
      have left : Heeds i w (w.setRecvs rest) := ReflTransGen.single (.recvs w rest)
      rw [handshakeLoop.eq_def]
      dsimp only
      by_cases ended : (!((w.conn i).isOpen && !(w.conn i).upgraded)) = true
      · rw [if_pos ended]
        exact ReflTransGen.refl
      · rw [if_neg ended]
        cases answer with
        | eof => exact left.trans (failRecv_turns _).heeds
        | data chunk =>
            have heard := left.tail (.touch _)
            dsimp only
            split
            · exact heard.trans (reject_turns _ _ _).heeds
            · rename_i side _
              have filled := heard.tail (.turn (.reads _ (side.append chunk.octets)))
              split
              · exact filled.trans (ih _)
              · exact filled.trans (reject_turns _ _ _).heeds
              · exact filled.trans (beginUpgrade_turns server _ _).heeds
        | failed e =>
            have told (e : Errno) := left.tail (.turn (.errno _ e))
            cases e with
            | eintr => exact (told _).trans (ih _)
            | eagain | ewouldblock => exact told _
            | enobufs | epipe | econnreset | ebadf | other => exact (told _).trans (failRecv_turns _).heeds

theorem frameReadsLoop_heeds (recvs : List RecvResult) (w : World) :
    Heeds i w (w.frameReadsLoop server i recvs).2 := by
  induction recvs generalizing w with
  | nil =>
      rw [frameReadsLoop.eq_def]
      dsimp only
      split
      · exact ReflTransGen.refl
      · exact ReflTransGen.head (.turn (.errno w _)) (processBufferedFrames_turns server _).heeds
  | cons answer rest ih =>
      have left : Heeds i w (w.setRecvs rest) := ReflTransGen.single (.recvs w rest)
      rw [frameReadsLoop.eq_def]
      dsimp only
      by_cases ended : (!((w.conn i).isOpen && !(w.conn i).closeAfterWrite && (w.conn i).upgraded)) = true
      · rw [if_pos ended]
        exact ReflTransGen.refl
      · rw [if_neg ended]
        cases answer with
        | eof => exact left.trans (failRecv_turns _).heeds
        | data chunk =>
            have heard := left.tail (.touch _)
            dsimp only
            split
            · exact heard.trans (turns_of_ops (Hub.closeWithCode_calm _ i _ _).ops).heeds
            · rename_i side _
              have filled := heard.tail (.turn (.reads _ (side.append chunk.octets)))
              have processed := filled.trans (processBufferedFrames_turns server _).heeds
              split
              · exact processed.trans (ih _)
              · exact processed
        | failed e =>
            have told (e : Errno) := left.tail (.turn (.errno _ e))
            cases e with
            | eintr => exact (told _).trans (ih _)
            | eagain | ewouldblock => exact (told _).trans (processBufferedFrames_turns server _).heeds
            | enobufs | epipe | econnreset | ebadf | other => exact (told _).trans (failRecv_turns _).heeds

theorem attend_turns (w : World) (nowUsec : Nat) : Turns i w (w.attend server i nowUsec).2 := by
  have beat : Turns i w { w with toHub := (w.processHeartbeat server i nowUsec).2 } := by
    rcases w.processHeartbeat_calm server i nowUsec with calms | ⟨sent, calms, -, -, marked⟩
    · exact turns_of_ops calms.ops
    · rw [marked]
      exact (turns_of_ops calms.ops).tail (.beat { w with toHub := sent } nowUsec)
  simp only [attend]
  split
  · exact turns_of_ops (w.closeExpiredConnection_calm i).ops
  · split
    · exact beat
    · have ended {flushed : Bool × Hub} (turns : Turns i w { w with toHub := flushed.2 }) :
          Turns i w (if !flushed.1 || !(flushed.2.conn i).isOpen ||
              (flushed.2.conn i).closeAfterWrite then
            (Attention.finished, { w with toHub := flushed.2 })
            else (Attention.ready, { w with toHub := flushed.2 })).2 := by
        split <;> exact turns
      apply ended
      split
      · exact beat.tail (.op (.flush _ i))
      · exact beat

/-- `process_connection_fd` behind its reading of the clock and its search of the table. -/
def serveReady (server : Server) (i : ConnId) (w : World) (nowUsec : Nat) : Bool × World :=
  if !(w.conn i).isOpen then (true, w)
  else
    let attended := w.attend server i nowUsec
    match attended.1 with
    | .failed => (false, attended.2)
    | .finished => (true, attended.2)
    | .ready =>
        if !(attended.2.conn i).upgraded then attended.2.processHandshake server i
        else attended.2.processFrameReads server i

/-- The clock is read. -/
def tick (w : World) : World := { w with toHub := w.now.2 }

/-- The connection that `process_connection_fd` finds. -/
def findFd (w : World) (fd : Nat) : Option ConnId :=
  w.connections.find? fun i => (w.conn i).fd = some fd

theorem processConnectionFd_eq (server : Server) (w : World) (fd : Nat) :
    w.processConnectionFd server fd =
      match w.findFd fd with
      | none => (true, w.tick)
      | some i => w.tick.serveReady server i w.now.1 := rfl

theorem serveReady_heeds (w : World) (nowUsec : Nat) :
    Heeds i w (w.serveReady server i nowUsec).2 := by
  have attended := (attend_turns server (i := i) w nowUsec).heeds
  simp only [serveReady]
  split
  · exact ReflTransGen.refl
  · split
    · exact attended
    · exact attended
    · split
      · exact attended.trans (handshakeLoop_heeds server _ _)
      · exact attended.trans (frameReadsLoop_heeds server _ _)

/-- What `process_connections` does behind the handshake loop of a connection. -/
def processLeftover (server : Server) (i : ConnId) (shaken : Bool × World) : Bool × World :=
  if !shaken.1 then (false, shaken.2)
  else if (shaken.2.conn i).upgraded && shaken.2.buffer i ≠ [] then
    shaken.2.processBufferedFrames server i
  else (true, shaken.2)

theorem processConnection_eq (server : Server) (i : ConnId) (w : World) (nowUsec : Nat) :
    w.processConnection server i nowUsec =
      if !(w.conn i).isOpen then (true, w)
      else
        let attended := w.attend server i nowUsec
        match attended.1 with
        | .failed => (false, attended.2)
        | .finished => (true, attended.2)
        | .ready =>
            processLeftover server i
              (if !(attended.2.conn i).upgraded then attended.2.processHandshake server i
                else (true, attended.2)) := rfl

theorem processLeftover_turns (shaken : Bool × World) :
    Turns i shaken.2 (processLeftover server i shaken).2 := by
  unfold processLeftover
  split
  · exact ReflTransGen.refl
  · split
    · exact processBufferedFrames_turns server _
    · exact ReflTransGen.refl

theorem processConnection_heeds (w : World) (nowUsec : Nat) :
    Heeds i w (w.processConnection server i nowUsec).2 := by
  have attended := (attend_turns server (i := i) w nowUsec).heeds
  rw [processConnection_eq]
  dsimp only
  split
  · exact ReflTransGen.refl
  · split
    · exact attended
    · exact attended
    · refine ReflTransGen.trans ?_ (processLeftover_turns server _).heeds
      split
      · exact attended.trans (handshakeLoop_heeds server _ _)
      · exact attended

end World

end PhpWebSocket
