import PhpWebSocket.Kernel

/-! # Effects

What a whole run of the server does, one thing at a time. A `Deed` is what frames,
timeouts and callbacks do to the hub: here, unlike for an `Op`, a frame that `send_frame`
accepts and the record of it are one step. An `Effect` adds what the loop does around
them: the reads, the table and the listener. Only a connection that is `served` has its
fragments, its messages and its read side touched; callbacks reach the rest. Whatever each
effect keeps, a run keeps from its start to its end, with any callbacks and any answers of
the kernel.
-/

namespace PhpWebSocket

open Relation

/-! ## The write side -/

/-- A connection without its write side. -/
def Connection.unwritten (conn : Connection) : Connection :=
  { conn with
    isOpen := false
    closeAfterWrite := false
    writeQueue := []
    writeQueueOffset := 0
    queuedBytes := 0
    writeWatched := false
    wire := [] }

namespace Link

theorem queueFrame_unwritten (link : Link) (frame : Bytes) (offset : Nat) :
    (link.queueFrame frame offset).2.conn.unwritten = link.conn.unwritten := by
  simp only [queueFrame]
  split
  · rfl
  · split
    · split <;> rfl
    · rfl

theorem settle_unwritten (result : Bool × Link) :
    (settle result).2.conn.unwritten = result.2.conn.unwritten := by
  unfold settle
  split <;> rfl

theorem sendFrame_unwritten (link : Link) (payload : Bytes) (opcode : UInt8) :
    (link.sendFrame payload opcode).2.conn.unwritten = link.conn.unwritten := by
  simp only [sendFrame, packPayload_server]
  split
  · rfl
  · split
    · rfl
    · split
      · exact (settle_unwritten _).trans (queueFrame_unwritten _ _ _)
      · split
        · exact (settle_unwritten _).trans (queueFrame_unwritten _ _ _)
        · exact settle_unwritten _

theorem flushLoop_unwritten (queue : List Bytes) (link : Link) :
    (flushLoop queue link).2.conn.unwritten = link.conn.unwritten := by
  induction queue generalizing link with
  | nil => rfl
  | cons frame rest ih =>
      simp only [flushLoop]
      split
      · rfl
      · split
        · rfl
        · exact ih _

theorem closeSocket_shut (link : Link) : link.closeSocket.conn.isOpen = false := rfl

theorem closeAfterWrite_unwritten {link : Link} (opened : link.closeAfterWrite.conn.isOpen = true) :
    link.closeAfterWrite.conn.unwritten = link.conn.unwritten := by
  unfold closeAfterWrite at opened ⊢
  split
  · rfl
  · rename_i isOpen
    rw [if_neg isOpen] at opened
    split
    · rename_i idle
      rw [if_pos idle, closeSocket_shut] at opened
      cases opened
    · rfl

theorem flush_unwritten {link : Link} (opened : link.flush.2.conn.isOpen = true) :
    link.flush.2.conn.unwritten = link.conn.unwritten := by
  have looped := flushLoop_unwritten link.conn.writeQueue link
  have settled {last : Link} (same : last.conn.unwritten = link.conn.unwritten)
      (opened : (if last.conn.closeAfterWrite then last.closeSocket else last).conn.isOpen = true) :
      (if last.conn.closeAfterWrite then last.closeSocket else last).conn.unwritten =
        link.conn.unwritten := by
    split at opened
    · cases opened
    · rename_i stays
      rw [if_neg stays]
      exact same
  simp only [flush] at opened ⊢
  split
  · rfl
  · rename_i going
    rw [if_neg going] at opened
    cases ended : (flushLoop link.conn.writeQueue link).1 with
    | broken | blocked => exact looped
    | drained =>
        rw [ended] at opened
        apply settled _ opened
        split <;> exact looped

end Link

/-! ## Deeds -/

def Event.isFrame : Event → Bool
  | .frame _ _ _ _ => true
  | _ => false

def Event.isApproved : Event → Bool
  | .approved _ => true
  | _ => false

/-- The connection whose message is delivered. -/
def Event.receiver : Event → Option ConnId
  | .message i _ _ _ => some i
  | _ => none

/-- The message that is being put together. -/
def Connection.fragment (conn : Connection) : Bool × UInt8 × Option Bytes :=
  (conn.fragmented, conn.fragmentedOpcode, conn.fragmentedPayload)

/-- The octets that are kept of it. -/
def Connection.fragmentSize (conn : Connection) : Nat := (conn.fragmentedPayload.getD []).length

theorem Connection.fragmentSize_append {conn grown : Connection} {payload : Bytes} {most : Nat}
    (fits : conn.appendFragment payload most = some grown) : grown.fragmentSize ≤ most := by
  simp only [appendFragment] at fits
  split at fits
  · cases fits
  · rename_i room
    simp only [Bool.or_eq_true, decide_eq_true_eq, not_or, Nat.not_lt] at room
    split at fits <;> rename_i kept <;> cases fits <;>
      simp only [fragmentSize, kept, Option.getD_some, List.length_append] at room ⊢ <;> omega

inductive Deed (most : Nat) (served : ConnId → Prop) : Hub → Hub → Prop
  | mark {h : Hub} (i : ConnId) {conn : Connection} (mark : Mark (h.conn i) conn)
      (own : conn.fragment = (h.conn i).fragment ∨ served i ∧ conn.fragmentSize ≤ most) :
      Deed most served h (h.setConn i conn)
  | closeSocket (h : Hub) (i : ConnId) : Deed most served h (h.closeSocket i)
  | closeAfterWrite (h : Hub) (i : ConnId) : Deed most served h (h.closeAfterWrite i)
  | flush (h : Hub) (i : ConnId) : Deed most served h (h.flush i).2
  | frame (h : Hub) (i : ConnId) (source : FrameSource) (payload : Bytes) {opcode : UInt8}
      (valid : opcodeIsValid opcode = true) : Deed most served h (h.sendFrame i source payload opcode).2
  | respond (h : Hub) (fd : Option Nat) (text : Bytes) :
      Deed most served h { h with env := (h.env.sendBytes fd text).2 }
  | emit (h : Hub) {e : Event} (other : e.isFrame = false) (plain : e.isApproved = false)
      (own : ∀ i, e.receiver = some i → served i) : Deed most served h (h.emit e)
  | raise (h : Hub) (e : PhpError) : Deed most served h (h.raise e)
  | seen (h : Hub) (x : Handled) : Deed most served h { h with handled := h.handled ++ [x] }
  | stop (h : Hub) : Deed most served h { h with running := false, stopped := true }

theorem Deed.tell {most : Nat} {served : ConnId → Prop} (h : Hub) {e : Event}
    (other : e.isFrame = false) (plain : e.isApproved = false) (nobody : e.receiver = none) :
    Deed most served h (h.emit e) := by
  apply Deed.emit h other plain
  intro i somebody
  exact absurd (nobody.symm.trans somebody) (by simp)

def Deeds (most : Nat) (served : ConnId → Prop) : Hub → Hub → Prop :=
  ReflTransGen (Deed most served)

namespace Deeds

variable {most : Nat} {served : ConnId → Prop} {h h' h'' : Hub}

theorem refl (h : Hub) : Deeds most served h h := ReflTransGen.refl

theorem single (deed : Deed most served h h') : Deeds most served h h' := ReflTransGen.single deed

theorem trans (first : Deeds most served h h') (next : Deeds most served h' h'') : Deeds most served h h'' :=
  ReflTransGen.trans first next

end Deeds

theorem Deed.ops {most : Nat} {served : ConnId → Prop} {h h' : Hub} (deed : Deed most served h h') :
    Ops h h' := by
  cases deed with
  | mark i mark own => exact Ops.single (.mark i mark)
  | closeSocket i => exact Ops.single (.closeSocket h i)
  | closeAfterWrite i => exact Ops.single (.closeAfterWrite h i)
  | flush i => exact Ops.single (.flush h i)
  | frame i source payload valid => exact (h.sendFrame_calm i source payload _).ops
  | respond fd text => exact Ops.single (.respond h fd text)
  | emit other plain own => exact Ops.single (.emit h _)
  | raise e => exact Ops.single (.raise h e)
  | seen x => exact Ops.single (.seen h x)
  | stop => exact Ops.single (.stop h)

theorem Deeds.ops {most : Nat} {served : ConnId → Prop} {h h' : Hub} (deeds : Deeds most served h h') :
    Ops h h' := by
  induction deeds with
  | refl => exact Ops.refl h
  | tail _ deed ih => exact ih.trans deed.ops

theorem Submission.valid {opcode : UInt8} {payload : Bytes} (submission : Submission opcode payload) :
    opcodeIsValid opcode = true := by
  rcases submission.type with rfl | rfl | rfl | rfl | rfl <;> rfl

namespace Hub

variable (server : Server) {most : Nat} {served : ConnId → Prop} (h : Hub) (i : ConnId)

/-! ## Frames -/

theorem shut_deed : Deed most served h (h.shut i) := .mark i (.shut _) (Or.inl rfl)

theorem clearFragment_deed (acting : served i) : Deed most served h (h.clearFragment i) :=
  .mark i (.fragment _ _ _ _) (Or.inr ⟨acting, Nat.zero_le _⟩)

theorem sendCloseFrame_deeds (source : FrameSource) (code : Int) (reason : Bytes) :
    Deeds most served h (h.sendCloseFrame i source code reason).2 := by
  cases checked : closePayload code reason with
  | ok payload =>
      rw [sendCloseFrame_eq h i source checked]
      split
      · exact Deeds.refl h
      · exact Deeds.single (.frame h i source payload rfl)
  | error e =>
      simp only [sendCloseFrame, Link.sendCloseFrame, checked]
      split
      · simpa [relink, link] using Deeds.refl h
      · simpa [relink, link, raise] using Deeds.single (.raise h e)

theorem closeWithCode_deeds (code : Int) (reason : String) :
    Deeds most served h (h.closeWithCode i code reason).2 := by
  have sent : Deeds most served h (h.sendCloseFrame i .server code (ascii reason)).2 :=
    h.sendCloseFrame_deeds i .server code (ascii reason)
  simp only [closeWithCode]
  split
  · exact sent.tail (.closeAfterWrite _ i)
  · exact sent.tail (.closeSocket _ i)

/-! ## User code -/

theorem perform_deeds (c : ApiCall) : Deeds most served h (h.perform c).2 := by
  cases c with
  | send i payload type =>
      simp only [perform]
      split
      · exact Deeds.refl h
      · rcases connectionSend_cases h i payload type with same | ⟨opcode, -, submission, sent⟩
        · rw [same]
          exact Deeds.refl h
        · rw [sent]
          exact (Deeds.single (.tell h rfl rfl rfl)).tail (.frame _ i _ _ submission.valid)
  | close i arguments =>
      simp only [perform]
      split
      · exact Deeds.refl h
      · rcases connectionClose_cases h i arguments with
          same | shut | closing | ⟨code, reason, payload, -, closed⟩
        · rw [same]
          exact Deeds.refl h
        · rw [shut]
          exact Deeds.single (h.shut_deed i)
        · rw [closing]
          exact Deeds.single (.closeAfterWrite h i)
        · rw [closed]
          exact (h.sendCloseFrame_deeds i _ _ _).tail (.closeAfterWrite _ i)
  | isOpen i =>
      simp only [perform]
      split <;> exact Deeds.refl h
  | stop => exact Deeds.single (.stop h)

theorem runScript_deeds (script : Script) : Deeds most served h (runScript script h).2 := by
  induction script generalizing h with
  | finish result => exact Deeds.refl h
  | call c next ih => exact (h.perform_deeds c).trans (ih _ _)

theorem callUser_deeds (script : Script) (failure : String) :
    Deeds most served h (h.callUser script failure).2 := by
  have ran : Deeds most served h (runScript script h).2 := h.runScript_deeds script
  simp only [callUser]
  split
  · exact ran
  · exact ran.tail (.raise _ _)
  · exact ran.tail (.raise _ _)

theorem callMessageHandler_deeds (acting : served i) (payload : Bytes) (opcode : UInt8) :
    Deeds most served h (h.callMessageHandler server i payload opcode).2 := by
  unfold callMessageHandler
  split
  · exact Deeds.refl h
  · split
    · exact Deeds.refl h
    · rename_i type _
      have told : Deed most served h (h.emit (.message i type payload (h.conn i))) := by
        apply Deed.emit h rfl rfl
        rintro j ⟨⟩
        exact acting
      exact (Deeds.single told).trans (callUser_deeds _ _ _)

theorem notifyConnectionClosed_deeds : Deeds most served h (h.notifyConnectionClosed server i).2 := by
  simp only [notifyConnectionClosed]
  split
  · exact Deeds.refl h
  · split
    · exact Deeds.refl h
    · have marked : Deed most served h (h.setConn i { h.conn i with closeNotified := true }) :=
        .mark i (.notified _) (Or.inl rfl)
      exact ((Deeds.single marked).tail (.tell _ rfl rfl rfl)).trans (callUser_deeds _ _ _)

theorem callOpenHandler_deeds : Deeds most served h (h.callOpenHandler server i).2 := by
  unfold callOpenHandler
  split
  · exact Deeds.refl h
  · have deferred : Deed most served h (h.setConn i { h.conn i with deferClose := true }) :=
      .mark i (.defer _ true) (Or.inl rfl)
    have told : Deed most served (h.setConn i { h.conn i with deferClose := true })
        ((h.setConn i { h.conn i with deferClose := true }).emit (.opened i)) := .tell _ rfl rfl rfl
    exact (((Deeds.single deferred).tail told).trans (callUser_deeds _ _ _)).tail
      (.mark i (.defer _ false) (Or.inl rfl))
  · exact (Deeds.single (.tell h rfl rfl rfl)).trans (callUser_deeds _ _ _)

/-! ## Received frames -/

theorem handleDataFrame_deeds (acting : served i) (frame : ServerFrame)
    (small : frame.payload.length ≤ server.options.maxMessageSize) :
    Deeds server.options.maxMessageSize served h (h.handleDataFrame server i frame).2 := by
  have cleared : Deeds server.options.maxMessageSize served h (h.clearFragment i) :=
    Deeds.single (h.clearFragment_deed i acting)
  simp only [handleDataFrame]
  split
  · split
    · exact h.closeWithCode_deeds i _ _
    · split
      · exact cleared.trans (closeWithCode_deeds _ i _ _)
      · rename_i grown fits
        have kept := Connection.fragmentSize_append fits
        have grew : Deeds server.options.maxMessageSize served h (h.setConn i grown) := by
          simp only [Connection.appendFragment] at fits
          split at fits
          · cases fits
          · split at fits <;> cases fits <;>
              exact Deeds.single (.mark i (.fragment _ _ _ _) (Or.inr ⟨acting, kept⟩))
        split
        · exact grew
        · split
          · exact (grew.tail (clearFragment_deed _ i acting)).trans (closeWithCode_deeds _ i _ _)
          · exact (grew.trans (callMessageHandler_deeds server _ i acting _ _)).tail
              (clearFragment_deed _ i acting)
  · split
    · exact cleared.trans (closeWithCode_deeds _ i _ _)
    · split
      · split
        · exact h.closeWithCode_deeds i _ _
        · exact h.callMessageHandler_deeds server i acting _ _
      · exact Deeds.single (.mark i (.fragment _ _ _ _) (Or.inr ⟨acting, small⟩))

theorem handleCloseFrame_deeds (acting : served i) (payload : Bytes) :
    Deeds most served h (h.handleCloseFrame i payload).2 := by
  have closed {echoed : Bool × Hub} (deeds : Deeds most served h echoed.2) :
      Deeds most served h (if echoed.1 then (echoed.2.clearFragment i).closeAfterWrite i
        else (echoed.2.clearFragment i).closeSocket i) := by
    have cleared := deeds.tail (clearFragment_deed _ i acting)
    split
    · exact cleared.tail (.closeAfterWrite _ i)
    · exact cleared.tail (.closeSocket _ i)
  unfold handleCloseFrame
  apply closed
  split
  · exact Deeds.single (.frame h i _ _ rfl)
  · exact Deeds.refl h

theorem handleFrame_deeds (acting : served i) (frame : ServerFrame)
    (small : ¬ opcodeIsControl frame.opcode → frame.payload.length ≤ server.options.maxMessageSize) :
    Deeds server.options.maxMessageSize served h (h.handleFrame server i frame).2 := by
  have seen : Deeds server.options.maxMessageSize served h
      { h with handled := h.handled ++ [⟨h.conn i, h.env, frame⟩] } := Deeds.single (.seen h _)
  simp only [handleFrame, dispatchFrame]
  split
  · rename_i data
    have plain : ¬ opcodeIsControl frame.opcode := by
      simp only [Bool.or_eq_true, decide_eq_true_eq] at data
      rcases data with (text | binary) | continuation
      · rw [text]
        decide
      · rw [binary]
        decide
      · rw [continuation]
        decide
    exact seen.trans (handleDataFrame_deeds server _ i acting frame (small plain))
  · split
    · exact seen.tail (.frame _ i _ _ rfl)
    · split
      · exact seen.tail (.mark i (.pong _) (Or.inl rfl))
      · split
        · exact seen.trans (handleCloseFrame_deeds _ i acting _)
        · exact seen.trans (closeWithCode_deeds _ i _ _)

theorem refuseFrames_deeds (acting : served i) (code : Int) (reason : String) :
    Deeds most served h (h.refuseFrames i code reason).2 :=
  (Deeds.single (h.clearFragment_deed i acting)).trans (closeWithCode_deeds _ i code reason)

/-! ## Timeouts and responses -/

theorem closeExpiredConnection_deeds : Deeds most served h (h.closeExpiredConnection i) := by
  unfold closeExpiredConnection
  split
  · exact h.closeWithCode_deeds i _ _
  · exact Deeds.single (.closeSocket h i)

theorem respond_deeds (status : Int) (text : Bytes) : Deeds most served h (h.respond i status text).2 :=
  (Deeds.single (.respond h _ text)).tail (.tell _ rfl rfl rfl)

theorem reject_deeds (status : Int) (text : Bytes) : Deeds most served h (h.reject i status text) :=
  (h.respond_deeds i status text).tail (shut_deed _ i)

theorem callHandshakeHandler_deeds (request : Request) (script : Script) :
    Deeds most served h (h.callHandshakeHandler i request script).2 := by
  have asked : Deeds most served h (h.emit (.handshake i request)) := Deeds.single (.tell h rfl rfl rfl)
  have ran := asked.trans (runScript_deeds _ script)
  simp only [callHandshakeHandler]
  split
  · exact ran.tail (.raise _ _)
  · exact ran.trans (reject_deeds _ i _ _)
  · exact ran.trans (reject_deeds _ i _ _)
  · exact ran.tail (.raise _ _)
  · exact ran
  · exact ran.tail (.raise _ _)

end Hub

/-! ## The loop -/

/-- The handshake callback, if there is one, is called with the request and accepts it. -/
inductive Consent (server : Server) (i : ConnId) (upgrade : HttpUpgrade) (h : Hub) : Hub → Prop
  | unasked (none : (server.handlers h.trace).onHandshake = none) : Consent server i upgrade h h
  | accepted {onHandshake : Request → Script} {h' : Hub}
      (some : (server.handlers h.trace).onHandshake = some onHandshake)
      (called : h.callHandshakeHandler i
          ⟨upgrade.method, upgrade.target, requestHeaders upgrade.headers⟩
          (onHandshake ⟨upgrade.method, upgrade.target, requestHeaders upgrade.headers⟩) =
        (.accepted, h')) :
      Consent server i upgrade h h'

/-- What the loop of `run` does to the world, callbacks included. -/
inductive Effect (server : Server) (served : ConnId → Prop) : World → World → Prop
  | deed {w : World} {h : Hub} (deed : Deed server.options.maxMessageSize served w.toHub h) :
      Effect server served w { w with toHub := h }
  /-- The kernel and the clock have answered. -/
  | answered (w : World) (errno : Option Errno) (recvs : List RecvResult)
      (accepts : List AcceptResult) (clock : List Nat) :
      Effect server served w { w with env := { w.env with errno, recvs, accepts, clock } }
  | stamp (w : World) {i : ConnId} (acting : served i) (lastActivityUsec : Nat) :
      Effect server served w { w with toHub := w.setConn i { w.conn i with lastActivityUsec } }
  | beat (w : World) (i : ConnId) (lastPingUsec : Nat) :
      Effect server served w { w with
        toHub := w.setConn i { w.conn i with awaitingPong := true, lastPingUsec } }
  | upgrade (w : World) {i : ConnId} (acting : served i) (selectedSubprotocol : Option Bytes) :
      Effect server served w { w with
        toHub := w.setConn i { w.conn i with selectedSubprotocol, upgraded := true } }
  /-- The request in the buffer is parsed, and approved behind the callback. -/
  | approve {w : World} {i : ConnId} {upgrade : HttpUpgrade} {h : Hub}
      (parsed : parseUpgrade server.lib server.subprotocols (w.buffer i) = .ok upgrade)
      (consent : Consent server i upgrade (w.emit (.parsed i (w.buffer i) upgrade)) h)
      (told : Deeds server.options.maxMessageSize served w.toHub h) :
      Effect server served w { w with toHub := h.emit (.approved i) }
  | fill {w : World} {i : ConnId} (acting : served i) (chunk : Bytes) {limit : Nat} {side : ReadSide}
      (limited : limit = httpMaxRequestSize ∨ limit = World.readLimit server.options.maxMessageSize)
      (grown : (w.reads i).ensureCapacity chunk.length limit = some side) :
      Effect server served w (w.setReads i (side.append chunk))
  | discard (w : World) {i : ConnId} (acting : served i) (bytes : Nat) :
      Effect server served w (w.discard i bytes)
  | admission {w : World} (fd : Nat) (going : w.Going)
      (room : w.connections.length < server.options.maxConnections) :
      Effect server served w (w.openConnection server fd).2
  /-- A connection leaves the table and is closed, with the callback in between. -/
  | remove {w : World} {index : Nat} {i : ConnId} {h : Hub} (here : w.connections[index]? = some i)
      (told : Deeds server.options.maxMessageSize served { w.shutDown i with connections := w.connections.eraseIdx index } h) :
      Effect server served w { w with toHub := h.closeSocket i }
  | listen (w : World) (fd : Nat) : Effect server served w (w.listens fd)
  | unlisten (w : World) : Effect server served w { w with toHub := w.unlistened }

def Effects (server : Server) (served : ConnId → Prop) : World → World → Prop :=
  ReflTransGen (Effect server served)

namespace Effects

variable {server : Server} {served : ConnId → Prop} {w w' w'' : World}

theorem refl (w : World) : Effects server served w w := ReflTransGen.refl

theorem single (effect : Effect server served w w') : Effects server served w w' :=
  ReflTransGen.single effect

theorem trans (first : Effects server served w w') (next : Effects server served w' w'') :
    Effects server served w w'' :=
  ReflTransGen.trans first next

theorem of_deeds {h : Hub} (deeds : Deeds server.options.maxMessageSize served w.toHub h) :
    Effects server served w { w with toHub := h } := by
  induction deeds with
  | refl => exact refl w
  | tail _ deed ih => exact ih.tail (.deed deed)

/-- What every effect keeps holds at the end of a run if it held before. -/
theorem invariant {holds : World → Prop}
    (keeps : ∀ {a b : World}, Effect server served a b → holds a → holds b)
    (effects : Effects server served w w') (before : holds w) : holds w' := by
  induction effects with
  | refl => exact before
  | tail _ effect ih => exact keeps effect ih

end Effects

namespace World

variable (server : Server) {served : ConnId → Prop} {i : ConnId} (w : World)

theorem setErrno_effect (e : Errno) : Effect server served w (w.setErrno e) := .answered w (some e) _ _ _

theorem setRecvs_effect (recvs : List RecvResult) : Effect server served w (w.setRecvs recvs) :=
  .answered w _ recvs _ _

theorem tick_effect : Effect server served w w.tick := by
  have same : w.tick =
      { w with env := { w.env with clock := w.tick.env.clock } } := by
    simp only [tick, Hub.now, Env.now]
    split <;> rfl
  rw [same]
  exact .answered w _ _ _ _

theorem touch_effects (acting : served i) : Effects server served w (w.touch i) :=
  (Effects.single (w.tick_effect server)).tail (.stamp w.tick acting w.now.1)

theorem framesLoop_effects (acting : served i) (fuel : Nat) :
    Effects server served w (w.framesLoop server i fuel).2 := by
  induction fuel generalizing w with
  | zero => exact Effects.refl w
  | succ fuel ih =>
      simp only [framesLoop]
      split
      · exact Effects.refl w
      · split
        · exact Effects.refl w
        · exact Effects.of_deeds (w.refuseFrames_deeds i acting _ _)
        · exact Effects.of_deeds (w.refuseFrames_deeds i acting _ _)
        · exact Effects.of_deeds (w.refuseFrames_deeds i acting _ _)
        · rename_i frame parsed
          have taken : Effects server served w (w.discard i frame.bytesConsumed) :=
            Effects.single (.discard w acting frame.bytesConsumed)
          have acceptable := (clientFrame_of_parseFrame parsed).1
          have handled := taken.trans (Effects.of_deeds
            ((w.discard i frame.bytesConsumed).handleFrame_deeds server i acting frame acceptable.data))
          split
          · exact handled.trans (ih _)
          · exact handled

theorem processBufferedFrames_effects (acting : served i) :
    Effects server served w (w.processBufferedFrames server i).2 := w.framesLoop_effects server acting _

theorem finishUpgrade_effects (acting : served i) (upgrade : HttpUpgrade) :
    Effects server served w (w.finishUpgrade server i upgrade).2 := by
  have sent : Effects server served w { w with toHub := (w.respond i 101
      (upgradeResponse (upgrade.acceptKey.getD []) upgrade.selectedSubprotocol)).2 } :=
    Effects.of_deeds (w.respond_deeds i 101 _)
  have shuts {w' : World} (before : Effects server served w w') :
      Effects server served w { w' with toHub := w'.shut i } := before.tail (.deed (w'.shut_deed i))
  have opened {w' : World} (before : Effects server served w w') :
      Effects server served w { w' with toHub := (w'.callOpenHandler server i).2 } :=
    before.trans (Effects.of_deeds (w'.callOpenHandler_deeds server i))
  have switched {w' : World} (before : Effects server served w w') :
      Effects server served w (w'.switchToFrames i upgrade) :=
    ((before.tail (.upgrade w' acting upgrade.selectedSubprotocol)).tail (.discard _ acting _)).tail
      (.deed (.tell _ rfl rfl rfl))
  have going {w' : World} (before : Effects server served w w') :
      Effects server served w (if !(w'.conn i).isOpen then w'.onHub (w'.notifyConnectionClosed server i)
        else w'.processBufferedFrames server i).2 := by
    split
    · exact before.trans (Effects.of_deeds (w'.notifyConnectionClosed_deeds server i))
    · exact before.trans (w'.processBufferedFrames_effects server acting)
  simp only [finishUpgrade]
  split
  · exact shuts sent
  · have entered := opened (switched sent)
    split
    · exact shuts entered
    · split
      · exact going (shuts entered)
      · exact going entered

theorem beginUpgrade_effects (acting : served i) {upgrade : HttpUpgrade}
    (parsed : parseUpgrade server.lib server.subprotocols (w.buffer i) = .ok upgrade) :
    Effects server served w (w.beginUpgrade server i upgrade).2 := by
  have noted : Deeds server.options.maxMessageSize served w.toHub
      (w.emit (.parsed i (w.buffer i) upgrade)) := Deeds.single (.tell _ rfl rfl rfl)
  have approved {h : Hub} (consent : Consent server i upgrade (w.emit (.parsed i (w.buffer i) upgrade)) h)
      (told : Deeds server.options.maxMessageSize served w.toHub h) : Effects server served w
        (({ w with toHub := h.emit (.approved i) } : World).finishUpgrade server i upgrade).2 :=
    (Effects.single (.approve parsed consent told)).trans (finishUpgrade_effects server _ acting upgrade)
  simp only [beginUpgrade]
  cases handler : (server.handlers (w.emit (.parsed i (w.buffer i) upgrade)).trace).onHandshake with
  | none => exact approved (.unasked handler) noted
  | some onHandshake =>
      dsimp only
      generalize request_eq : (⟨upgrade.method, upgrade.target, requestHeaders upgrade.headers⟩ :
        Request) = request
      have told := noted.trans
        ((w.emit (.parsed i (w.buffer i) upgrade)).callHandshakeHandler_deeds i request
          (onHandshake request))
      generalize called : (w.emit (.parsed i (w.buffer i) upgrade)).callHandshakeHandler i request
        (onHandshake request) = asked at told ⊢
      obtain ⟨answer, after⟩ := asked
      cases answer with
      | failed | rejected => exact Effects.of_deeds told
      | accepted =>
          subst request_eq
          exact approved (.accepted handler called) told

theorem failRecv_effects (i : ConnId) : Effects server served w (w.failRecv i).2 :=
  Effects.single (.deed (w.shut_deed i))

theorem reject_effects (i : ConnId) (status : Int) (text : Bytes) :
    Effects server served w { w with toHub := w.reject i status text } :=
  Effects.of_deeds (w.reject_deeds i status text)

theorem handshakeLoop_effects (acting : served i) (recvs : List RecvResult) :
    Effects server served w (w.handshakeLoop server i recvs).2 := by
  induction recvs generalizing w with
  | nil =>
      rw [handshakeLoop.eq_def]
      dsimp only
      split
      · exact Effects.refl w
      · exact Effects.single (w.setErrno_effect server .eagain)
  | cons answer rest ih =>
      have left : Effects server served w (w.setRecvs rest) := Effects.single (w.setRecvs_effect server rest)
      have told (e : Errno) := left.tail ((w.setRecvs rest).setErrno_effect server e)
      rw [handshakeLoop.eq_def]
      dsimp only
      by_cases ended : (!((w.conn i).isOpen && !(w.conn i).upgraded)) = true
      · rw [if_pos ended]
        exact Effects.refl w
      · rw [if_neg ended]
        cases answer with
        | eof => exact left.trans (failRecv_effects server _ i)
        | failed e =>
            cases e with
            | eintr => exact (told .eintr).trans (ih _)
            | eagain | ewouldblock => exact told _
            | enobufs | epipe | econnreset | ebadf | other =>
                exact (told _).trans (failRecv_effects server _ i)
        | data chunk =>
            have heard := left.trans (touch_effects server _ acting)
            dsimp only
            split
            · exact heard.trans (reject_effects server _ i _ _)
            · rename_i side grown
              have filled := heard.tail (.fill acting chunk.octets (Or.inl rfl) grown)
              split
              · exact filled.trans (ih _)
              · exact filled.trans (reject_effects server _ i _ _)
              · rename_i upgrade parsed
                exact filled.trans (beginUpgrade_effects server _ acting parsed)

theorem frameReadsLoop_effects (acting : served i) (recvs : List RecvResult) :
    Effects server served w (w.frameReadsLoop server i recvs).2 := by
  induction recvs generalizing w with
  | nil =>
      rw [frameReadsLoop.eq_def]
      dsimp only
      split
      · exact Effects.refl w
      · exact (Effects.single (w.setErrno_effect server .eagain)).trans
          (processBufferedFrames_effects server _ acting)
  | cons answer rest ih =>
      have left : Effects server served w (w.setRecvs rest) := Effects.single (w.setRecvs_effect server rest)
      have told (e : Errno) := left.tail ((w.setRecvs rest).setErrno_effect server e)
      rw [frameReadsLoop.eq_def]
      dsimp only
      by_cases ended : (!((w.conn i).isOpen && !(w.conn i).closeAfterWrite && (w.conn i).upgraded)) = true
      · rw [if_pos ended]
        exact Effects.refl w
      · rw [if_neg ended]
        cases answer with
        | eof => exact left.trans (failRecv_effects server _ i)
        | failed e =>
            cases e with
            | eintr => exact (told .eintr).trans (ih _)
            | eagain | ewouldblock => exact (told _).trans (processBufferedFrames_effects server _ acting)
            | enobufs | epipe | econnreset | ebadf | other =>
                exact (told _).trans (failRecv_effects server _ i)
        | data chunk =>
            have heard := left.trans (touch_effects server _ acting)
            dsimp only
            split
            · exact heard.trans (Effects.of_deeds (Hub.closeWithCode_deeds _ i _ _))
            · rename_i side grown
              have filled := heard.tail (.fill acting chunk.octets (Or.inr rfl) grown)
              have processed := filled.trans (processBufferedFrames_effects server _ acting)
              split
              · exact processed.trans (ih _)
              · exact processed

/-! ## One connection -/

theorem processHeartbeat_effects (i : ConnId) (nowUsec : Nat) :
    Effects server served w { w with toHub := (w.processHeartbeat server i nowUsec).2 } := by
  have sent : Effects server served w { w with toHub := (w.sendFrame i .heartbeat [] opcodePing).2 } :=
    Effects.single (.deed (.frame w.toHub i .heartbeat [] rfl))
  simp only [Hub.processHeartbeat]
  split
  · exact Effects.refl w
  · split
    · split
      · exact Effects.of_deeds (w.closeWithCode_deeds i _ _)
      · exact Effects.refl w
    · split
      · exact Effects.refl w
      · split
        · exact sent.trans (Effects.of_deeds (Hub.closeWithCode_deeds _ i _ _))
        · exact sent.tail (.beat _ i nowUsec)

theorem attend_effects (i : ConnId) (nowUsec : Nat) :
    Effects server served w (w.attend server i nowUsec).2 := by
  have beat : Effects server served w { w with toHub := (w.processHeartbeat server i nowUsec).2 } :=
    w.processHeartbeat_effects server i nowUsec
  have flushed : Effects server served w { w with
      toHub := ((w.processHeartbeat server i nowUsec).2.flush i).2 } :=
    beat.tail (.deed (.flush _ i))
  simp only [attend]
  split
  · exact Effects.of_deeds (w.closeExpiredConnection_deeds i)
  · split
    · exact beat
    · have ended {result : Bool × Hub} (before : Effects server served w { w with toHub := result.2 }) :
          Effects server served w (if !result.1 || !(result.2.conn i).isOpen ||
              (result.2.conn i).closeAfterWrite then
            (Attention.finished, { w with toHub := result.2 })
            else (Attention.ready, { w with toHub := result.2 })).2 := by
        split <;> exact before
      apply ended
      split
      · exact flushed
      · exact beat

theorem serveReady_effects (acting : served i) (nowUsec : Nat) :
    Effects server served w (w.serveReady server i nowUsec).2 := by
  have attended : Effects server served w (w.attend server i nowUsec).2 :=
    w.attend_effects server i nowUsec
  simp only [serveReady]
  split
  · exact Effects.refl w
  · split
    · exact attended
    · exact attended
    · split
      · exact attended.trans (handshakeLoop_effects server _ acting _)
      · exact attended.trans (frameReadsLoop_effects server _ acting _)

theorem processConnectionFd_effects (all : ∀ i, served i) (fd : Nat) :
    Effects server served w (w.processConnectionFd server fd).2 := by
  have ticked : Effects server served w w.tick := Effects.single (w.tick_effect server)
  rw [processConnectionFd_eq]
  split
  · exact ticked
  · exact ticked.trans (serveReady_effects server _ (all _) _)

theorem processLeftover_effects (acting : served i) (shaken : Bool × World) :
    Effects server served shaken.2 (processLeftover server i shaken).2 := by
  unfold processLeftover
  split
  · exact Effects.refl _
  · split
    · exact processBufferedFrames_effects server _ acting
    · exact Effects.refl _

theorem processConnection_effects (acting : served i) (nowUsec : Nat) :
    Effects server served w (w.processConnection server i nowUsec).2 := by
  have attended : Effects server served w (w.attend server i nowUsec).2 :=
    w.attend_effects server i nowUsec
  rw [processConnection_eq]
  dsimp only
  split
  · exact Effects.refl w
  · split
    · exact attended
    · exact attended
    · apply Effects.trans _ (processLeftover_effects server acting _)
      split
      · exact attended.trans (handshakeLoop_effects server _ acting _)
      · exact attended

theorem processEach_effects (all : ∀ i, served i) (nowUsec : Nat) (connections : List ConnId) :
    Effects server served w (w.processEach server nowUsec connections).2 := by
  induction connections generalizing w with
  | nil => exact Effects.refl w
  | cons i rest ih =>
      have first := w.processConnection_effects server (all i) nowUsec
      simp only [processEach]
      split
      · exact first.trans (ih _)
      · exact first

theorem processConnections_effects (all : ∀ i, served i) :
    Effects server served w (w.processConnections server).2 :=
  (Effects.single (w.tick_effect server)).trans (processEach_effects server _ all _ _)

/-! ## The table and the listener -/

theorem acceptClient_effects (going : w.Going) (fd : Nat) (nonblocking : Option Errno) :
    Effects server served w (w.acceptClient server fd nonblocking).2 := by
  simp only [acceptClient]
  split
  · have sent : Effects server served w { w with
        toHub := { w.toHub with env := (w.env.sendBytes (some fd) serviceUnavailableResponse).2 } } :=
      Effects.single (.deed (.respond w.toHub (some fd) serviceUnavailableResponse))
    exact sent.tail (.deed (.tell _ rfl rfl rfl))
  · rename_i room
    split
    · exact Effects.single (.deed (.raise _ _))
    · exact Effects.single (.admission fd going (Nat.lt_of_not_le room))

theorem acceptConnection_effects (going : w.Going) (answer : AcceptResult) :
    Effects server served w (w.acceptConnection server answer).2 := by
  cases answer with
  | failed e => exact Effects.single (w.setErrno_effect server e)
  | client fd nonblocking =>
      have cleared : Effect server served w { w with env := { w.env with errno := none } } :=
        .answered w none _ _ _
      exact (Effects.single cleared).trans
        (acceptClient_effects server { w with env := { w.env with errno := none } } going fd nonblocking)

theorem acceptLoop_effects (answers : List AcceptResult) (accepted : Nat) :
    Effects server served w (w.acceptLoop server answers accepted).2 := by
  induction answers generalizing w accepted with
  | nil =>
      rw [acceptLoop.eq_def]
      dsimp only
      split
      · exact Effects.refl w
      · exact Effects.single (w.setErrno_effect server .eagain)
  | cons answer rest ih =>
      rw [acceptLoop.eq_def]
      dsimp only
      split
      · exact Effects.refl w
      · rename_i guard
        have going : w.Going := by
          simp only [Bool.not_eq_true', Bool.and_eq_true, Bool.not_eq_false] at guard
          exact guard.1
        have asked : Effect server served w { w with env := { w.env with accepts := rest } } :=
          .answered w _ _ rest _
        have done := (Effects.single asked).trans (acceptConnection_effects server
          { w with env := { w.env with accepts := rest } } going answer)
        split
        · exact done.trans (ih _ _)
        · split
          · exact done
          · split
            · exact done
            · split
              · exact done.trans (ih _ _)
              · exact done

theorem closeConnectionAt_effects (index : Nat) (notify : Bool) :
    Effects server served w { w with toHub := (w.closeConnectionAt server index notify).2 } := by
  cases here : w.connections[index]? with
  | none =>
      rw [Hub.closeConnectionAt, here]
      exact Effects.refl w
  | some i =>
      rw [Hub.closeConnectionAt_eq here]
      dsimp only
      split
      · exact Effects.single (.remove here (Hub.notifyConnectionClosed_deeds server _ i))
      · exact Effects.single (.remove here (Deeds.refl _))

theorem purgeFrom_effects (fuel index : Nat) :
    Effects server served w { w with toHub := (w.purgeFrom server fuel index).2 } := by
  induction fuel generalizing w index with
  | zero => exact Effects.refl w
  | succ fuel ih =>
      have closed : Effects server served w
          { w with toHub := (w.closeConnectionAt server index true).2 } :=
        w.closeConnectionAt_effects server index true
      simp only [Hub.purgeFrom]
      split
      · exact Effects.refl w
      · split
        · split
          · exact closed.trans (ih { w with toHub := (w.closeConnectionAt server index true).2 } index)
          · exact closed
        · exact ih w (index + 1)

theorem closeAllFrom_effects (fuel : Nat) (notify : Bool) :
    Effects server served w { w with toHub := (w.closeAllFrom server fuel notify).2 } := by
  induction fuel generalizing w with
  | zero => exact Effects.refl w
  | succ fuel ih =>
      have closed : Effects server served w
          { w with toHub := (w.closeConnectionAt server (w.connections.length - 1) notify).2 } :=
        w.closeConnectionAt_effects server (w.connections.length - 1) notify
      simp only [Hub.closeAllFrom]
      split
      · exact Effects.refl w
      · split
        · exact closed.trans (ih
            { w with toHub := (w.closeConnectionAt server (w.connections.length - 1) notify).2 })
        · exact closed

theorem runtimeClose_effects (notify : Bool) :
    Effects server served w { w with toHub := w.runtimeClose server notify } := by
  have unlistened : Effects server served w { w with toHub := w.unlistened } := Effects.single (.unlisten w)
  have closed := unlistened.trans
    (closeAllFrom_effects server { w with toHub := w.unlistened } w.unlistened.connections.length notify)
  rw [Hub.runtimeClose_eq]
  dsimp only
  split
  · exact closed
  · exact closed.trans (closeAllFrom_effects server _ _ false)

/-! ## A run -/

theorem processReady_effects (all : ∀ i, served i) (wait : WaitResult) :
    Effects server served w (w.processReady server wait).2 := by
  cases wait with
  | idle | failed => exact Effects.refl w
  | ready fd =>
      simp only [processReady]
      split
      · exact w.acceptLoop_effects server _ _
      · exact w.processConnectionFd_effects server all fd

theorem serve_effects (all : ∀ i, served i) (wait : WaitResult) :
    Effects server served w (w.serve server wait).2 := by
  have ready := w.processReady_effects server all wait
  have processed := ready.trans (processConnections_effects server _ all)
  simp only [serve]
  split
  · exact ready
  · split
    · exact processed
    · exact processed.trans (purgeFrom_effects server _ _ _)

theorem runRound_effects (all : ∀ i, served i) (wait : WaitResult) :
    Effects server served w (w.runRound server wait).2 := by
  cases wait with
  | ready | idle => exact w.serve_effects server all _
  | failed e =>
      have told : Effects server served w (w.setErrno e) :=
        Effects.single (w.setErrno_effect server e)
      simp only [runRound]
      split
      · exact told
      · exact told.tail (.deed (.raise _ _))

theorem runLoop_effects (all : ∀ i, served i) (waits : List WaitResult) :
    Effects server served w (w.runLoop server waits).2 := by
  induction waits generalizing w with
  | nil =>
      unfold runLoop
      split <;> exact Effects.refl w
  | cons wait rest ih =>
      have round := w.runRound_effects server all wait
      simp only [runLoop]
      split
      · exact Effects.refl w
      · split
        · exact round.trans (ih _)
        · exact round

/-- A run is effects, whether it still waits or has returned. -/
theorem runtimeRun_effects (all : ∀ i, served i) (waits : List WaitResult) :
    Effects server served w (w.runtimeRun server waits).world := by
  unfold runtimeRun
  cases w.env.listener with
  | error e => exact Effects.single (.deed (.raise _ e))
  | ok fd =>
      have listening : Effects server served w (w.listens fd) := Effects.single (.listen w fd)
      have looped := listening.trans ((w.listens fd).runLoop_effects server all waits)
      dsimp only
      split
      · exact (listening.tail (.deed (.raise _ _))).trans (runtimeClose_effects server _ false)
      · cases atEnd : ((w.listens fd).runLoop server waits).1 with
        | waiting =>
            unfold listens at atEnd looped
            simp only [atEnd]
            exact looped
        | left =>
            unfold listens at atEnd looped
            simp only [atEnd]
            exact looped.trans (runtimeClose_effects server _ _)

end World

end PhpWebSocket
