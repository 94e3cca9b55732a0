import PhpWebSocket.Effects
import PhpWebSocket.Reassembly
import PhpWebSocket.Timeouts

/-! # The incoming stream

The way from a socket to `on_message`. Whatever the callbacks do, to this connection or to
another, and in whatever pieces the octets come: what a connection has been handed are the
messages of the reference assembler for the frames that its peer has sent behind the opening
request. A connection that is not being served is a bystander, and keeps its fragments as it
keeps its messages.
-/

namespace PhpWebSocket

open Lib Relation Kernel

/-! ## Messages -/

/-- A message for the connection `i`, with the opcode of its type. -/
def Event.message? (i : ConnId) : Event → Option (UInt8 × Bytes)
  | .message j type payload _ => if j = i then some (type.opcode, payload) else none
  | _ => none

/-- The messages that `on_message` was given for a connection. -/
def Trace.messages (t : Trace) (i : ConnId) : List (UInt8 × Bytes) := t.filterMap (Event.message? i)

def Reaction.message? : Reaction → Option (UInt8 × Bytes)
  | .deliver opcode payload => some (opcode, payload)
  | _ => none

/-- The messages that the reference receiver delivers. -/
def Receiver.messages (m : Receiver) : List (UInt8 × Bytes) := m.reactions.filterMap Reaction.message?

theorem Receiver.messages_react (m : Receiver) (reaction : Reaction) (stage : Stage) :
    (m.react reaction stage).messages = m.messages ++ reaction.message?.toList := by
  simp only [messages, react, List.filterMap_append, List.append_cancel_left_eq]
  cases reaction <;> rfl

theorem Trace.messages_emit (h : Hub) (e : Event) (i : ConnId) :
    (h.emit e).trace.messages i = h.trace.messages i ++ (e.message? i).toList := by
  simp only [Trace.messages, Hub.emit, List.filterMap_append, List.append_cancel_left_eq]
  cases said : e.message? i <;> simp [said]

theorem Event.message?_of_receiver {e : Event} {i : ConnId} (other : e.receiver ≠ some i) :
    e.message? i = none := by
  cases e with
  | message j type payload conn =>
      apply if_neg
      rintro rfl
      exact other rfl
  | _ => rfl

/-! ## Bystanders -/

namespace Connection

variable {a b : Connection} {pending : Pending UInt8 UInt8}

theorem Holds.of_fragment (holds : a.Holds pending) (same : b.fragment = a.fragment) :
    b.Holds pending := by
  simp only [fragment, Prod.mk.injEq] at same
  obtain ⟨fragmented, opcode, payload⟩ := same
  cases pending with
  | none => exact ⟨fragmented.trans holds.1, payload.trans holds.2⟩
  | some pending =>
      exact ⟨fragmented.trans holds.1, opcode.trans holds.2.1, payload.trans holds.2.2.1, holds.2.2.2⟩

theorem fragment_of_unwritten (same : b.unwritten = a.unwritten) : b.fragment = a.fragment :=
  have kept : b.unwritten.fragment = a.unwritten.fragment := congrArg fragment same
  kept

theorem clearFragment_holds (conn : Connection) : conn.clearFragment.Holds none := ⟨rfl, rfl⟩

end Connection

/-- What the work for another connection leaves of this one. -/
structure Bystander (i : ConnId) (h h' : Hub) : Prop where
  keeps : (h.conn i).Keeps (h'.conn i)
  fragment : (h'.conn i).isOpen = true → (h'.conn i).fragment = (h.conn i).fragment
  messages : h'.trace.messages i = h.trace.messages i

namespace Bystander

variable {i : ConnId} {h h' h'' : Hub}

theorem refl (h : Hub) : Bystander i h h := ⟨Connection.Keeps.refl _, fun _ => rfl, rfl⟩

theorem trans (first : Bystander i h h') (next : Bystander i h' h'') : Bystander i h h'' where
  keeps := first.keeps.trans next.keeps
  fragment opened := (next.fragment opened).trans (first.fragment (next.keeps.isOpen opened))
  messages := next.messages.trans first.messages

theorem of_same (conn : h'.conn i = h.conn i) (messages : h'.trace.messages i = h.trace.messages i) :
    Bystander i h h' :=
  ⟨conn ▸ Connection.Keeps.refl _, fun _ => congrArg Connection.fragment conn, messages⟩

theorem emit (h : Hub) {e : Event} (other : e.receiver ≠ some i) : Bystander i h (h.emit e) := by
  refine ⟨Connection.Keeps.refl _, fun _ => rfl, ?_⟩
  rw [Trace.messages_emit, Event.message?_of_receiver other]
  exact List.append_nil _

theorem relink (h : Hub) {j : ConnId} {link : Link} (keeps : (h.link j).Keeps link)
    (fragment : link.conn.isOpen = true → link.conn.fragment = (h.conn j).fragment) :
    Bystander i h (h.relink j link) := by
  by_cases same : i = j
  · subst same
    refine ⟨?_, ?_, rfl⟩
    · rw [Hub.conn_relink]
      exact keeps.conn
    · rw [Hub.conn_relink]
      exact fragment
  · exact of_same (Function.update_of_ne same ..) rfl

end Bystander

theorem Deed.bystander {most : Nat} {served : ConnId → Prop} {h h' : Hub} {i : ConnId}
    (deed : Deed most served h h') (idle : ¬ served i) : Bystander i h h' := by
  cases deed with
  | @mark j conn mark own =>
      by_cases same : i = j
      · subst same
        have keeps : (h.link i).Keeps ⟨conn, h.env⟩ := ⟨Connection.keeps_mark mark, ⟨rfl, rfl, rfl⟩⟩
        exact Bystander.relink h keeps fun _ => own.resolve_right fun acting => idle acting.1
      · exact .of_same (Function.update_of_ne same ..) rfl
  | closeSocket j => exact .relink h (Link.closeSocket_keeps _) nofun
  | closeAfterWrite j =>
      exact .relink h (Link.closeAfterWrite_keeps _) fun opened =>
        Connection.fragment_of_unwritten (Link.closeAfterWrite_unwritten opened)
  | flush j =>
      exact .relink h (Link.flush_keeps _) fun opened =>
        Connection.fragment_of_unwritten (Link.flush_unwritten opened)
  | @frame j source payload opcode valid =>
      have sent : Bystander i h (h.relink j ((h.link j).sendFrame payload opcode).2) :=
        .relink h (Link.sendFrame_keeps _ _ _) fun _ =>
          Connection.fragment_of_unwritten (Link.sendFrame_unwritten _ _ _)
      simp only [Hub.sendFrame]
      split
      · exact sent.trans (.emit _ (Option.some_ne_none i).symm)
      · exact sent
  | respond | raise | seen | stop => exact .of_same rfl rfl
  | emit other plain own => exact .emit h fun receiver => idle (own i receiver)

theorem Deeds.bystander {most : Nat} {served : ConnId → Prop} {h h' : Hub} {i : ConnId}
    (deeds : Deeds most served h h') (idle : ¬ served i) : Bystander i h h' := by
  induction deeds with
  | refl => exact Bystander.refl h
  | tail _ deed ih => exact ih.trans (deed.bystander idle)

/-! ## One frame -/

/-- A connection and the reference receiver after the same frames. -/
structure Follows (i : ConnId) (h : Hub) (m : Receiver) : Prop where
  messages : h.trace.messages i = m.messages
  stage : (h.conn i).Reading → ∃ pending, m.stage = .reading pending ∧ (h.conn i).Holds pending

/-- Every message is handed to somebody. -/
def Server.Listens (server : Server) : Prop :=
  ∀ trace, (server.handlers trace).onMessage.isSome = true

namespace Bystander

variable {i : ConnId} {h h' : Hub}

theorem reading (bystander : Bystander i h h') (reading : (h'.conn i).Reading) : (h.conn i).Reading :=
  (bystander.keeps.live reading.live).reading (bystander.keeps.upgraded.symm.trans reading.2.2)

theorem follows {m : Receiver} (bystander : Bystander i h h') (follows : Follows i h m) :
    Follows i h' m := by
  refine ⟨bystander.messages.trans follows.messages, ?_⟩
  intro reading
  obtain ⟨pending, stage, holds⟩ := follows.stage (bystander.reading reading)
  exact ⟨pending, stage, holds.of_fragment (bystander.fragment reading.1)⟩

end Bystander

namespace Follows

variable {i : ConnId} {h h' : Hub} {m : Receiver}

theorem ceased (closed : ¬ (h.conn i).Reading) (messages : h.trace.messages i = m.messages) :
    Follows i h m := ⟨messages, fun reading => absurd reading closed⟩

theorem move {conn : Connection} {pending : Pending UInt8 UInt8} (follows : Follows i h m)
    (holds : conn.Holds pending) : Follows i (h.setConn i conn) { m with stage := .reading pending } := by
  refine ⟨follows.messages, fun _ => ⟨pending, rfl, ?_⟩⟩
  rw [Hub.conn_setConn]
  exact holds

end Follows

namespace Hub

variable {server : Server} {i : ConnId} {h : Hub} {m : Receiver} {pending : Pending UInt8 UInt8}

theorem closeWithCode_messages (h : Hub) (i : ConnId) (code : Int) (reason : String) :
    (h.closeWithCode i code reason).2.trace.messages i = h.trace.messages i := by
  have deeds : Deeds 0 (fun _ => False) h (h.closeWithCode i code reason).2 :=
    h.closeWithCode_deeds i code reason
  exact (deeds.bystander id).messages

theorem closeWithCode_follows {code : Int} {reason : String}
    (messages : h.trace.messages i = m.messages) : Follows i (h.closeWithCode i code reason).2 m :=
  .ceased (closeWithCode_not_reading h i code reason) ((closeWithCode_messages ..).trans messages)

/-- A complete message is delivered once, and its fragments stay until the callback is done. -/
theorem callMessageHandler_follows (listens : server.Listens) (follows : Follows i h m)
    (payload : Bytes) {opcode : UInt8} (kind : opcode = opcodeText ∨ opcode = opcodeBinary) :
    Follows i (h.callMessageHandler server i payload opcode).2
      (m.react (.deliver opcode payload) m.stage) := by
  obtain ⟨type, known, same⟩ : ∃ type, MessageType.fromOpcode opcode = some type ∧
      type.opcode = opcode := by
    rcases kind with rfl | rfl
    · exact ⟨.text, rfl, rfl⟩
    · exact ⟨.binary, rfl, rfl⟩
  obtain ⟨onMessage, registered⟩ := Option.isSome_iff_exists.mp (listens h.trace)
  have told : Follows i (h.emit (.message i type payload (h.conn i)))
      (m.react (.deliver opcode payload) m.stage) := by
    refine ⟨?_, follows.stage⟩
    rw [Trace.messages_emit, Receiver.messages_react, follows.messages]
    simp [Event.message?, Reaction.message?, same]
  have called : Deeds 0 (fun _ => False) (h.emit (.message i type payload (h.conn i)))
      ((h.emit (.message i type payload (h.conn i))).callUser (onMessage i payload type)
        "Failed to call WebSocket server message handler").2 := callUser_deeds _ _ _
  simp only [callMessageHandler, registered, known]
  exact (called.bystander id).follows told

theorem clearFragment_follows (follows : Follows i h m) :
    Follows i (h.clearFragment i) { m with stage := .reading none } :=
  follows.move (Connection.clearFragment_holds _)

theorem appendFragment_holds {conn : Connection} {opcode : UInt8} {sofar : Bytes}
    (holds : conn.Holds (some (opcode, sofar))) (payload : Bytes) (maxMessageSize : Nat) :
    if maxMessageSize < (sofar ++ payload).length then
      conn.appendFragment payload maxMessageSize = none
    else
      ∃ grown, conn.appendFragment payload maxMessageSize = some grown ∧
        grown.Holds (some (opcode, sofar ++ payload)) := by
  obtain ⟨fragmented, atOpcode, present, kind⟩ := holds
  simp only [Connection.appendFragment, present, Option.getD_some, List.length_append]
  by_cases long : maxMessageSize < sofar.length + payload.length
  · rw [if_pos long, if_pos (by simp only [Bool.or_eq_true, decide_eq_true_eq]; omega)]
  · rw [if_neg long, if_neg (by simp only [Bool.or_eq_true, decide_eq_true_eq]; omega)]
    exact ⟨_, rfl, fragmented, atOpcode, rfl, kind⟩

theorem handleContinuation_follows (listens : server.Listens) (follows : Follows i h m)
    (holds : (h.conn i).Holds pending) {frame : ServerFrame}
    (continuation : frame.opcode = opcodeContinuation) :
    Follows i (h.handleDataFrame server i frame).2
      (m.assembled ((messages server.options.maxMessageSize).take pending frame.part)) := by
  have part : frame.part = .next frame.payload frame.final := by
    rw [ServerFrame.part, if_pos continuation]
  have failed (code : Int) (reason : Bytes) :
      h.trace.messages i = (m.react (.fail code reason) .closed).messages := by
    rw [Receiver.messages_react, follows.messages]
    exact (List.append_nil _).symm
  rw [part]
  unfold handleDataFrame
  dsimp only
  rw [if_pos continuation]
  cases pending with
  | none =>
      rw [if_pos (by simp [holds.1])]
      exact closeWithCode_follows (failed _ _)
  | some pending =>
      obtain ⟨opcode, sofar⟩ := pending
      have appended := appendFragment_holds holds frame.payload server.options.maxMessageSize
      rw [if_neg (by simp [holds.1]), Assembler.take]
      generalize sofar ++ frame.payload = whole at appended ⊢
      by_cases long : server.options.maxMessageSize < whole.length
      · rw [Assembler.weigh_tooLong (by exact long)]
        rw [if_pos long] at appended
        rw [appended]
        exact closeWithCode_follows (failed _ _)
      · rw [if_neg long] at appended
        obtain ⟨grown, appended, grownHolds⟩ := appended
        rw [appended]
        dsimp only
        have after : Follows i (h.setConn i grown)
            { m with stage := .reading (some (opcode, whole)) } := follows.move grownHolds
        rw [grownHolds.2.1, grownHolds.2.2.1, Option.getD_some]
        cases final : frame.final with
        | false =>
            rw [Assembler.weigh_waiting (by exact long)]
            exact after
        | true =>
            rw [if_neg (by decide)]
            cases valid : decide (opcode ≠ opcodeText) || isValidUtf8 whole with
            | false =>
                rw [Assembler.weigh_malformed (by exact long) valid, if_pos (by simpa using valid)]
                exact closeWithCode_follows (failed _ _)
            | true =>
                rw [Assembler.weigh_message (by exact long) valid,
                  if_neg (by simpa [or_iff_not_imp_left] using valid)]
                exact clearFragment_follows
                  (callMessageHandler_follows listens after whole grownHolds.2.2.2)

theorem handleFirst_follows (listens : server.Listens) (follows : Follows i h m)
    (stage : m.stage = .reading pending) (holds : (h.conn i).Holds pending) {frame : ServerFrame}
    (kind : frame.opcode = opcodeText ∨ frame.opcode = opcodeBinary)
    (within : frame.payload.length ≤ server.options.maxMessageSize) :
    Follows i (h.handleDataFrame server i frame).2
      (m.assembled ((messages server.options.maxMessageSize).take pending frame.part)) := by
  have notContinuation : frame.opcode ≠ opcodeContinuation := by
    rcases kind with text | binary
    · rw [text]
      decide
    · rw [binary]
      decide
  have part : frame.part = .first frame.opcode frame.payload frame.final := by
    rw [ServerFrame.part, if_neg notContinuation]
  have failed (code : Int) (reason : Bytes) :
      h.trace.messages i = (m.react (.fail code reason) .closed).messages := by
    rw [Receiver.messages_react, follows.messages]
    exact (List.append_nil _).symm
  rw [part]
  unfold handleDataFrame
  dsimp only
  rw [if_neg notContinuation]
  cases pending with
  | some pending =>
      rw [if_pos holds.1]
      exact closeWithCode_follows (failed _ _)
  | none =>
      have short : ¬ (messages server.options.maxMessageSize).limit < frame.payload.length :=
        Nat.not_lt.mpr within
      rw [if_neg (by simp [holds.1]), Assembler.take]
      cases final : frame.final with
      | false =>
          rw [if_neg (by decide), Assembler.weigh_waiting short]
          exact follows.move ⟨rfl, rfl, rfl, kind⟩
      | true =>
          rw [if_pos rfl]
          cases valid : decide (frame.opcode ≠ opcodeText) || isValidUtf8 frame.payload with
          | false =>
              rw [Assembler.weigh_malformed short valid, if_pos (by simpa using valid)]
              exact closeWithCode_follows (failed _ _)
          | true =>
              rw [Assembler.weigh_message short valid,
                if_neg (by simpa [or_iff_not_imp_left] using valid)]
              have delivered := callMessageHandler_follows listens follows frame.payload kind
              rw [stage] at delivered
              exact delivered

theorem handleCloseFrame_follows {payload : Bytes} (messages : h.trace.messages i = m.messages) :
    Follows i (h.handleCloseFrame i payload).2 m := by
  have sent : Deeds 0 (fun _ => False) h (h.sendFrame i .echo payload opcodeClose).2 :=
    Deeds.single (.frame h i .echo payload rfl)
  have told := (sent.bystander (i := i) id).messages.trans messages
  have ended {echoed : Bool × Hub} (told : echoed.2.trace.messages i = m.messages) :
      Follows i (if echoed.1 then (echoed.2.clearFragment i).closeAfterWrite i
        else (echoed.2.clearFragment i).closeSocket i) m := by
    split
    · exact .ceased (closeAfterWrite_not_reading _ i) told
    · exact .ceased (closeSocket_not_reading _ i) told
  unfold handleCloseFrame
  apply ended
  split
  · exact told
  · exact messages

/-- A frame moves the connection as it moves the receiver. -/
theorem handleFrame_follows (listens : server.Listens) (follows : Follows i h m)
    (reading : (h.conn i).Reading) {frame : ServerFrame}
    (ok : Acceptable server.options.maxMessageSize frame) :
    Follows i (h.handleFrame server i frame).2 (m.step server.options.maxMessageSize frame) := by
  obtain ⟨pending, stage, holds⟩ := follows.stage reading
  have seen : Follows i { h with handled := h.handled ++ [⟨h.conn i, h.env, frame⟩] } m :=
    ⟨follows.messages, follows.stage⟩
  change Follows i
    (({ h with handled := h.handled ++ [⟨h.conn i, h.env, frame⟩] } : Hub).dispatchFrame server i frame).2 _
  rw [Receiver.step, stage]
  dsimp only
  unfold dispatchFrame
  rcases valid_opcodes ok.opcode with continuation | text | binary | close | ping | pong
  · rw [if_pos (by rw [continuation]; decide), if_neg (by rw [continuation]; decide),
      if_neg (by rw [continuation]; decide), if_neg (by rw [continuation]; decide)]
    exact handleContinuation_follows listens seen holds continuation
  · rw [if_pos (by rw [text]; decide), if_neg (by rw [text]; decide),
      if_neg (by rw [text]; decide), if_neg (by rw [text]; decide)]
    exact handleFirst_follows listens seen stage holds (Or.inl text)
      (ok.data (by rw [text]; decide))
  · rw [if_pos (by rw [binary]; decide), if_neg (by rw [binary]; decide),
      if_neg (by rw [binary]; decide), if_neg (by rw [binary]; decide)]
    exact handleFirst_follows listens seen stage holds (Or.inr binary)
      (ok.data (by rw [binary]; decide))
  · rw [if_neg (by rw [close]; decide), if_neg (by rw [close]; decide),
      if_neg (by rw [close]; decide), if_pos close, if_neg (by rw [close]; decide),
      if_neg (by rw [close]; decide), if_pos close]
    apply handleCloseFrame_follows
    rw [Receiver.messages_react, ← follows.messages]
    exact (List.append_nil _).symm
  · rw [if_neg (by rw [ping]; decide), if_pos ping, if_pos ping]
    have sent : Deeds 0 (fun _ => False)
        { h with handled := h.handled ++ [⟨h.conn i, h.env, frame⟩] }
        (({ h with handled := h.handled ++ [⟨h.conn i, h.env, frame⟩] } : Hub).sendFrame i .pong
          frame.payload opcodePong).2 := Deeds.single (.frame _ i .pong _ rfl)
    obtain ⟨messages, after⟩ := (sent.bystander id).follows seen
    refine ⟨?_, fun still => ?_⟩
    · rw [messages, Receiver.messages_react]
      exact (List.append_nil _).symm
    · obtain ⟨pending', same, holds'⟩ := after still
      rw [stage] at same
      exact ⟨pending', same, holds'⟩
  · rw [if_neg (by rw [pong]; decide), if_neg (by rw [pong]; decide), if_pos pong,
      if_neg (by rw [pong]; decide), if_pos pong]
    have holding : ({ h.conn i with awaitingPong := false, lastPingUsec := 0 } : Connection).Holds
        pending := by cases pending <;> exact holds
    have heard := seen.move holding
    rw [← stage] at heard
    exact heard

end Hub

/-! ## One connection -/

/-- Octets that begin with an acceptable opening request and go on with frames. -/
structure Conversation (server : Server) (octets head : Bytes)
    (frames : List (AcceptedFrame server.options.maxMessageSize)) (rest : Bytes) : Prop where
  opening : ∃ upgrade, parseUpgrade server.lib server.subprotocols head = .ok upgrade ∧
    upgrade.bytesConsumed = head.length
  stream : octets = head ++ frames.flatMap AcceptedFrame.octets ++ rest

/-- Where a connection stands in the octets that have been taken off its socket. -/
structure Inbound (server : Server) (i : ConnId) (octets : Bytes) (w : World) : Prop where
  fresh : (w.conn i).upgraded = false → w.trace.messages i = [] ∧
    ((w.conn i).isOpen = true → octets = w.buffer i ∧ (w.conn i).Holds none)
  going : (w.conn i).upgraded = true → ∃ head frames rest,
    Conversation server octets head frames rest ∧ Follows i w.toHub (Receiver.run frames) ∧
      ((w.conn i).Reading → rest = w.buffer i)

namespace Inbound

variable {server : Server} {i : ConnId} {octets : Bytes} {w w' : World}

/-- Nothing has changed for the connection, unless it has been closed. -/
theorem settle (inbound : Inbound server i octets w)
    (upgraded : (w'.conn i).upgraded = (w.conn i).upgraded)
    (isOpen : (w'.conn i).isOpen = true → (w.conn i).isOpen = true)
    (reading : (w'.conn i).Reading → (w.conn i).Reading)
    (fragment : (w'.conn i).isOpen = true → (w'.conn i).fragment = (w.conn i).fragment)
    (messages : w'.trace.messages i = w.trace.messages i) (buffer : w'.buffer i = w.buffer i) :
    Inbound server i octets w' where
  fresh unasked := by
    obtain ⟨none, start⟩ := inbound.fresh (upgraded.symm.trans unasked)
    refine ⟨messages.trans none, fun opened => ?_⟩
    obtain ⟨same, holds⟩ := start (isOpen opened)
    exact ⟨same.trans buffer.symm, holds.of_fragment (fragment opened)⟩
  going asked := by
    obtain ⟨head, frames, rest, conversation, follows, left⟩ := inbound.going (upgraded.symm.trans asked)
    refine ⟨head, frames, rest, conversation, ⟨messages.trans follows.messages, ?_⟩, ?_⟩
    · intro still
      obtain ⟨pending, stage, holds⟩ := follows.stage (reading still)
      exact ⟨pending, stage, holds.of_fragment (fragment still.1)⟩
    · intro still
      exact (left (reading still)).trans buffer.symm

theorem bystander (inbound : Inbound server i octets w) (bystander : Bystander i w.toHub w'.toHub)
    (buffer : w'.buffer i = w.buffer i) : Inbound server i octets w' :=
  inbound.settle bystander.keeps.upgraded bystander.keeps.isOpen bystander.reading bystander.fragment
    bystander.messages buffer

theorem of_same (inbound : Inbound server i octets w) (conn : w'.conn = w.conn) (trace : w'.trace = w.trace)
    (reads : w'.reads = w.reads) : Inbound server i octets w' :=
  inbound.bystander (.of_same (congrFun conn i) (congrArg (Trace.messages · i) trace))
    (congrArg (fun reads => (reads i).buffer) reads)

theorem ceased (inbound : Inbound server i octets w) (more : Bytes)
    (upgraded : (w'.conn i).upgraded = (w.conn i).upgraded)
    (closed : (w'.conn i).upgraded = false → (w'.conn i).isOpen = false)
    (ended : ¬ (w'.conn i).Reading) (messages : w'.trace.messages i = w.trace.messages i) :
    Inbound server i (octets ++ more) w' where
  fresh unasked := by
    refine ⟨messages.trans (inbound.fresh (upgraded.symm.trans unasked)).1, fun opened => ?_⟩
    exact absurd ((closed unasked).symm.trans opened) Bool.false_ne_true
  going asked := by
    obtain ⟨head, frames, rest, ⟨opening, stream⟩, follows, -⟩ :=
      inbound.going (upgraded.symm.trans asked)
    refine ⟨head, frames, rest ++ more, ⟨opening, ?_⟩, .ceased ended (messages.trans follows.messages),
      fun still => absurd still ended⟩
    rw [stream, List.append_assoc]

theorem hear (inbound : Inbound server i octets w) (chunk : Bytes)
    (upgraded : (w'.conn i).upgraded = (w.conn i).upgraded)
    (isOpen : (w'.conn i).isOpen = (w.conn i).isOpen)
    (reading : (w'.conn i).Reading ↔ (w.conn i).Reading)
    (fragment : (w'.conn i).fragment = (w.conn i).fragment)
    (trace : w'.trace = w.trace) (buffer : w'.buffer i = w.buffer i ++ chunk) :
    Inbound server i (octets ++ chunk) w' where
  fresh unasked := by
    rw [trace]
    obtain ⟨none, start⟩ := inbound.fresh (upgraded.symm.trans unasked)
    refine ⟨none, fun opened => ?_⟩
    obtain ⟨same, holds⟩ := start (isOpen.symm.trans opened)
    refine ⟨?_, holds.of_fragment fragment⟩
    rw [same, buffer]
  going asked := by
    obtain ⟨head, frames, rest, ⟨opening, stream⟩, follows, left⟩ :=
      inbound.going (upgraded.symm.trans asked)
    refine ⟨head, frames, rest ++ chunk, ⟨opening, ?_⟩, ⟨?_, ?_⟩, ?_⟩
    · rw [stream, List.append_assoc]
    · rw [trace]
      exact follows.messages
    · intro still
      obtain ⟨pending, stage, holds⟩ := follows.stage (reading.mp still)
      exact ⟨pending, stage, holds.of_fragment fragment⟩
    · intro still
      rw [left (reading.mp still), buffer]

theorem take (listens : server.Listens) (inbound : Inbound server i octets w)
    (reading : (w.conn i).Reading) {frame : ServerFrame}
    (parsed : parseFrame (w.buffer i) server.options.maxMessageSize = .ok frame) :
    Inbound server i octets { (w.discard i frame.bytesConsumed) with
      toHub := (w.handleFrame server i frame).2 } := by
  obtain ⟨head, frames, rest, ⟨opening, stream⟩, follows, left⟩ := inbound.going reading.2.2
  obtain ⟨accepted, rfl, front⟩ := exists_acceptedFrame parsed
  have upgraded := ((w.handleFrame_ops server i accepted.frame).steady.conns i).upgraded
  have buffer : ({ (w.discard i accepted.frame.bytesConsumed) with
      toHub := (w.handleFrame server i accepted.frame).2 } : World).buffer i =
        (w.buffer i).drop accepted.frame.bytesConsumed :=
    (congrArg (World.buffer · i) (World.discard_eq w i _)).trans (World.buffer_setBuffer ..)
  constructor
  · intro fresh
    exact absurd (fresh.symm.trans (upgraded.trans reading.2.2)) Bool.false_ne_true
  · intro _
    refine ⟨head, frames ++ [accepted], (w.buffer i).drop accepted.frame.bytesConsumed, ⟨opening, ?_⟩,
      ?_, fun _ => buffer.symm⟩
    · rw [stream, left reading, List.flatMap_append, List.flatMap_singleton]
      simp only [List.append_assoc, ← front]
    · have acceptable := (clientFrame_of_parseFrame accepted.parsed).1
      have moved := Hub.handleFrame_follows listens follows reading acceptable
      simpa only [Receiver.run, List.foldl_append, List.foldl_cons, List.foldl_nil] using moved

end Inbound

namespace World

variable {server : Server} {i : ConnId} {octets : Bytes} {w : World}

/-- The loop over buffered frames. -/
theorem framesLoop_inbound (listens : server.Listens) (fuel : Nat)
    (upgraded : (w.conn i).upgraded = true) (inbound : Inbound server i octets w) :
    Inbound server i octets (w.framesLoop server i fuel).2 := by
  induction fuel generalizing w with
  | zero => exact inbound
  | succ fuel ih =>
      have refused (code : Int) (reason : String) :
          Inbound server i octets { w with toHub := (w.refuseFrames i code reason).2 } := by
        have still := (((w.clearFragment i).closeWithCode_calm i code reason).ops.steady.conns i).upgraded
        have same : ((w.refuseFrames i code reason).2.conn i).upgraded = (w.conn i).upgraded := by
          rw [show (w.refuseFrames i code reason).2 = ((w.clearFragment i).closeWithCode i code reason).2
            from rfl, still]
          simp [Hub.clearFragment, Connection.clearFragment]
        rw [← List.append_nil octets]
        apply inbound.ceased [] same
        · intro fresh
          exact absurd (fresh.symm.trans (same.trans upgraded)) Bool.false_ne_true
        · exact closeWithCode_not_reading _ i code reason
        · exact Hub.closeWithCode_messages (w.clearFragment i) i code reason
      simp only [framesLoop]
      split
      · exact inbound
      · rename_i going
        simp only [Bool.not_eq_true', Bool.and_eq_true, Bool.not_eq_false] at going
        have reading : (w.conn i).Reading := ⟨going.1.1.1, going.1.1.2, upgraded⟩
        split
        · exact inbound
        · exact refused _ _
        · exact refused _ _
        · exact refused _ _
        · rename_i frame parsed
          have taken := inbound.take listens reading parsed
          have upgraded' := ((w.handleFrame_ops server i frame).steady.conns i).upgraded.trans upgraded
          split
          · exact ih upgraded' taken
          · exact taken

theorem processBufferedFrames_inbound (listens : server.Listens) (upgraded : (w.conn i).upgraded = true)
    (inbound : Inbound server i octets w) :
    Inbound server i octets (w.processBufferedFrames server i).2 :=
  framesLoop_inbound listens _ upgraded inbound

end World

/-! ## The upgrade -/

theorem parseUpgrade_take {lib : PhpLib} {supported : List Bytes} {buffer : Bytes}
    {upgrade : HttpUpgrade} (accepted : parseUpgrade lib supported buffer = .ok upgrade) :
    upgrade.bytesConsumed ≤ buffer.length ∧
      parseUpgrade lib supported (buffer.take upgrade.bytesConsumed) = .ok upgrade := by
  obtain ⟨h, consumed, room, ends⟩ := parseUpgrade_ends accepted
  have within : buffer.length ≤ httpMaxRequestSize := by
    by_contra long
    rw [parseUpgrade, if_pos (Nat.lt_of_not_le long)] at accepted
    cases accepted
  have short : (buffer.take (h + 4)).length ≤ httpMaxRequestSize :=
    Nat.le_trans (List.length_take_le' ..) within
  have first := findHeaderEnd_eq_some.mp ends
  have whole : findHeaderEnd buffer = some h := by
    have grown := findHeaderEnd_append ends (buffer.drop (h + 4))
    rwa [List.take_append_drop] at grown
  rw [consumed]
  refine ⟨room, ?_⟩
  rw [parseUpgrade_eq_parseHead lib supported short first, List.take_take,
    Nat.min_eq_left (Nat.le_add_right h 4)]
  rw [parseUpgrade_eq_parseHead lib supported within (findHeaderEnd_eq_some.mp whole)] at accepted
  exact accepted

theorem Hub.callHandshakeHandler_accepted {h : Hub} {i : ConnId} {request : Request} {script : Script}
    (fresh : (h.conn i).upgraded = false)
    (accepted : (h.callHandshakeHandler i request script).1 = .accepted) :
    (h.callHandshakeHandler i request script).2.conn i = h.conn i := by
  have spared := (Hub.runScript_spares script (h.emit (.handshake i request))).waiting i fresh
  have same : (Hub.runScript script (h.emit (.handshake i request))).2.conn i = h.conn i :=
    congrArg Life.conn spared
  simp only [Hub.callHandshakeHandler] at accepted ⊢
  split at accepted <;> try cases accepted
  exact same

namespace World

variable {server : Server} {i : ConnId} {octets : Bytes} {w : World} {upgrade : HttpUpgrade}

theorem switchToFrames_inbound (inbound : Inbound server i octets w)
    (fresh : (w.conn i).upgraded = false) (opened : (w.conn i).isOpen = true)
    (accepted : parseUpgrade server.lib server.subprotocols (w.buffer i) = .ok upgrade) :
    Inbound server i octets (w.switchToFrames i upgrade) := by
  obtain ⟨none, start⟩ := inbound.fresh fresh
  obtain ⟨same, holds⟩ := start opened
  obtain ⟨room, alone⟩ := parseUpgrade_take accepted
  have conn : (w.switchToFrames i upgrade).conn i =
      { w.conn i with selectedSubprotocol := upgrade.selectedSubprotocol, upgraded := true } := by
    simp [switchToFrames, discard, setReads, Hub.emit]
  have buffer : (w.switchToFrames i upgrade).buffer i = (w.buffer i).drop upgrade.bytesConsumed :=
    (congrArg (World.buffer · i) (discard_eq _ i _)).trans (buffer_setBuffer ..)
  have messages : (w.switchToFrames i upgrade).trace.messages i = [] := by
    simp only [switchToFrames, Trace.messages_emit]
    exact (List.append_nil _).trans none
  constructor
  · intro still
    rw [conn] at still
    cases still
  · intro _
    refine ⟨(w.buffer i).take upgrade.bytesConsumed, [], (w.buffer i).drop upgrade.bytesConsumed,
      ⟨⟨upgrade, alone, (List.length_take_of_le room).symm⟩, ?_⟩, ⟨messages, ?_⟩, fun _ => buffer.symm⟩
    · rw [List.flatMap_nil, List.append_nil, List.take_append_drop, same]
    · intro _
      refine ⟨Option.none, rfl, ?_⟩
      rw [conn]
      exact holds.of_fragment rfl

theorem finishUpgrade_inbound (listens : server.Listens) (inbound : Inbound server i octets w)
    (fresh : (w.conn i).upgraded = false) (opened : (w.conn i).isOpen = true)
    (accepted : parseUpgrade server.lib server.subprotocols (w.buffer i) = .ok upgrade) :
    Inbound server i octets (w.finishUpgrade server i upgrade).2 := by
  have shuts {w' : World} (before : Inbound server i octets w') :
      Inbound server i octets { w' with toHub := w'.shut i } := by
    have shut : Deed 0 (fun _ => False) w'.toHub (w'.shut i) := w'.shut_deed i
    exact before.bystander (shut.bystander id) rfl
  have told {w' : World} (before : Inbound server i octets w') :
      Inbound server i octets { w' with toHub := (w'.callOpenHandler server i).2 } := by
    have called : Deeds 0 (fun _ => False) w'.toHub (w'.callOpenHandler server i).2 :=
      w'.callOpenHandler_deeds server i
    exact before.bystander (called.bystander id) rfl
  have answered : Deeds 0 (fun _ => False) w.toHub (w.respond i 101
      (upgradeResponse (upgrade.acceptKey.getD []) upgrade.selectedSubprotocol)).2 :=
    w.respond_deeds i 101 _
  have sent : Inbound server i octets { w with toHub := (w.respond i 101
      (upgradeResponse (upgrade.acceptKey.getD []) upgrade.selectedSubprotocol)).2 } :=
    inbound.bystander (answered.bystander id) rfl
  have going {w' : World} (before : Inbound server i octets w')
      (upgraded : (w'.conn i).upgraded = true) :
      Inbound server i octets (if !(w'.conn i).isOpen then w'.onHub (w'.notifyConnectionClosed server i)
        else w'.processBufferedFrames server i).2 := by
    split
    · have notified : Deeds 0 (fun _ => False) w'.toHub (w'.notifyConnectionClosed server i).2 :=
        w'.notifyConnectionClosed_deeds server i
      exact before.bystander (notified.bystander id) rfl
    · exact processBufferedFrames_inbound listens upgraded before
  simp only [finishUpgrade]
  split
  · exact shuts sent
  · have switched := switchToFrames_inbound sent fresh opened accepted
    have entered := told switched
    generalize atSwitched : World.switchToFrames _ i upgrade = w' at switched entered ⊢
    have upgraded : (w'.conn i).upgraded = true := by
      rw [← atSwitched]
      simp [switchToFrames, discard, setReads, Hub.emit]
    have called : Deeds 0 (fun _ => False) w'.toHub (w'.callOpenHandler server i).2 :=
      w'.callOpenHandler_deeds server i
    have still := (called.bystander (i := i) id).keeps.upgraded.trans upgraded
    split
    · exact shuts entered
    · split
      · apply going (shuts entered)
        simpa [Hub.shut] using still
      · exact going entered still

/-- An acceptable request, with the handshake callback before the answer. -/
theorem beginUpgrade_inbound (listens : server.Listens) (inbound : Inbound server i octets w)
    (fresh : (w.conn i).upgraded = false) (opened : (w.conn i).isOpen = true)
    (accepted : parseUpgrade server.lib server.subprotocols (w.buffer i) = .ok upgrade) :
    Inbound server i octets (w.beginUpgrade server i upgrade).2 := by
  have emits {w' : World} (before : Inbound server i octets w') {e : Event} (nobody : e.receiver = none) :
      Inbound server i octets { w' with toHub := w'.emit e } := by
    have aside : Bystander i w'.toHub (w'.emit e) := by
      apply Bystander.emit
      rw [nobody]
      exact nofun
    exact before.bystander aside rfl
  have parsed : Inbound server i octets { w with toHub := w.emit (.parsed i (w.buffer i) upgrade) } :=
    emits inbound rfl
  have asked (request : Request) (script : Script) : Inbound server i octets { w with
      toHub := ((w.emit (.parsed i (w.buffer i) upgrade)).callHandshakeHandler i request script).2 } := by
    have deeds : Deeds 0 (fun _ => False) (w.emit (.parsed i (w.buffer i) upgrade))
        ((w.emit (.parsed i (w.buffer i) upgrade)).callHandshakeHandler i request script).2 :=
      Hub.callHandshakeHandler_deeds _ i request script
    exact parsed.bystander (deeds.bystander id) rfl
  simp only [beginUpgrade]
  split
  · exact finishUpgrade_inbound listens (emits parsed rfl) fresh opened accepted
  · split
    · exact asked _ _
    · exact asked _ _
    · rename_i approved
      have conn := Hub.callHandshakeHandler_accepted (h := w.emit (.parsed i (w.buffer i) upgrade)) fresh approved
      apply finishUpgrade_inbound listens (emits (asked _ _) rfl) _ _ accepted
      · exact (congrArg Connection.upgraded conn).trans fresh
      · exact (congrArg Connection.isOpen conn).trans opened

end World

/-! ## The loops over `recv` -/

/-- A loop has used some of the answers `recvs`, and the connection stands behind them. -/
def Consumes (server : Server) (i : ConnId) (octets : Bytes) (recvs : List RecvResult) (w : World) :
    Prop :=
  ∃ used, recvs = used ++ w.env.recvs ∧ Inbound server i (octets ++ octetsOf used) w

namespace Consumes

variable {server : Server} {i : ConnId} {octets : Bytes} {w w' : World} {rest : List RecvResult}

theorem nothing (inbound : Inbound server i octets w) (left : w.env.recvs = rest) :
    Consumes server i octets rest w := by
  refine ⟨[], left.symm, ?_⟩
  rw [octetsOf, List.append_nil]
  exact inbound

theorem chunk {chunk : Chunk} (later : Consumes server i (octets ++ chunk.octets) rest w) :
    Consumes server i octets (.data chunk :: rest) w := by
  obtain ⟨used, left, inbound⟩ := later
  refine ⟨.data chunk :: used, by rw [left, List.cons_append], ?_⟩
  rw [octetsOf, ← List.append_assoc]
  exact inbound

theorem silent {answer : RecvResult} (empty : ∀ rest, octetsOf (answer :: rest) = octetsOf rest)
    (later : Consumes server i octets rest w) : Consumes server i octets (answer :: rest) w := by
  obtain ⟨used, left, inbound⟩ := later
  refine ⟨answer :: used, by rw [left, List.cons_append], ?_⟩
  rw [empty]
  exact inbound

end Consumes

namespace World

variable {server : Server} {i : ConnId} {octets : Bytes} {w : World}

theorem fill_inbound (inbound : Inbound server i octets w) (rest : List RecvResult) {chunk : Bytes}
    {limit : Nat} {side : ReadSide}
    (room : (((w.setRecvs rest).touch i).reads i).ensureCapacity chunk.length limit = some side) :
    Inbound server i (octets ++ chunk) (((w.setRecvs rest).touch i).setReads i (side.append chunk)) := by
  have same : (((w.setRecvs rest).touch i).setReads i (side.append chunk)).conn i =
      { w.conn i with lastActivityUsec := (w.setRecvs rest).now.1 } := (w.setRecvs rest).touch_conn i
  apply inbound.hear chunk
  · rw [same]
  · rw [same]
  · rw [same]
    exact Iff.rfl
  · rw [same]
    rfl
  · rfl
  · exact buffer_append room

theorem shut_inbound (inbound : Inbound server i octets w) (more : Bytes) {w' : World}
    (upgraded : (w'.conn i).upgraded = (w.conn i).upgraded) (shut : (w'.conn i).isOpen = false)
    (messages : w'.trace.messages i = w.trace.messages i) :
    Inbound server i (octets ++ more) w' := by
  apply inbound.ceased more upgraded (fun _ => shut) _ messages
  intro reading
  exact Bool.false_ne_true (shut.symm.trans reading.1)

theorem failRecv_consumes (inbound : Inbound server i octets w) {rest : List RecvResult}
    (left : w.env.recvs = rest) : Consumes server i octets rest (w.failRecv i).2 := by
  refine ⟨[], left.symm, ?_⟩
  apply shut_inbound inbound
  · simp [failRecv, Hub.shut]
  · simp [failRecv, Hub.shut]
  · rfl

theorem reject_consumes (inbound : Inbound server i octets w) {w' : World} {rest : List RecvResult}
    {chunk : Chunk} (left : w'.env.recvs = rest) (upgraded : (w'.conn i).upgraded = (w.conn i).upgraded)
    (trace : w'.trace = w.trace) (status : Int) (text : Bytes) :
    Consumes server i octets (.data chunk :: rest) { w' with toHub := w'.reject i status text } := by
  apply Consumes.chunk
  refine ⟨[], ?_, ?_⟩
  · have untouched := (w'.reject_calm i status text).ops.steady.env
    exact left.symm.trans untouched.recvs.symm
  · rw [octetsOf, List.append_nil]
    apply shut_inbound inbound
    · have still := ((w'.reject_calm i status text).ops.steady.conns i).upgraded
      exact still.trans upgraded
    · simp [Hub.reject, Hub.shut]
    · have deeds : Deeds 0 (fun _ => False) w'.toHub (w'.reject i status text) :=
        w'.reject_deeds i status text
      exact ((deeds.bystander id).messages).trans (congrArg (Trace.messages · i) trace)

theorem frameReadsLoop_inbound (listens : server.Listens) (recvs : List RecvResult) {w : World}
    {octets : Bytes} (delivered : w.env.recvs = recvs) (upgraded : (w.conn i).upgraded = true)
    (inbound : Inbound server i octets w) :
    Consumes server i octets recvs (w.frameReadsLoop server i recvs).2 := by
  have processed {w : World} {octets : Bytes} {rest : List RecvResult} (left : w.env.recvs = rest)
      (upgraded : (w.conn i).upgraded = true) (inbound : Inbound server i octets w) :
      Consumes server i octets rest (w.processBufferedFrames server i).2 :=
    .nothing (processBufferedFrames_inbound listens upgraded inbound)
      ((processBufferedFrames_recvs server w).trans left)
  induction recvs generalizing w octets with
  | nil =>
      rw [frameReadsLoop.eq_def]
      dsimp only
      split
      · exact .nothing inbound delivered
      · exact @processed (w.setErrno .eagain) octets [] delivered upgraded
          (inbound.of_same rfl rfl rfl)
  | cons answer rest ih =>
      rw [frameReadsLoop.eq_def]
      dsimp only
      by_cases ended : (!((w.conn i).isOpen && !(w.conn i).closeAfterWrite && (w.conn i).upgraded)) = true
      · rw [if_pos ended]
        exact .nothing inbound delivered
      · rw [if_neg ended]
        have quiet (e : Errno) : Inbound server i octets ((w.setRecvs rest).setErrno e) :=
          (inbound.of_same rfl rfl rfl)
        cases answer with
        | eof =>
            apply Consumes.silent fun _ => rfl
            exact failRecv_consumes (w := w.setRecvs rest) (inbound.of_same rfl rfl rfl) rfl
        | failed e =>
            apply Consumes.silent fun _ => rfl
            cases e with
            | eintr => exact ih rfl upgraded (quiet .eintr)
            | eagain | ewouldblock => exact processed rfl upgraded (quiet _)
            | enobufs | epipe | econnreset | ebadf | other => exact failRecv_consumes (quiet _) rfl
        | data chunk =>
            have still : (((w.setRecvs rest).touch i).conn i).upgraded = true :=
              (Heed.touch (i := i) (w.setRecvs rest)).tends.upgraded upgraded
            apply Consumes.chunk
            dsimp only
            split
            · have closes := ((w.setRecvs rest).touch i).closeWithCode_calm i closeMessageTooBig
                "message too big"
              have same := (closes.ops.steady.conns i).upgraded
              refine ⟨[], (closes.ops.steady.env.recvs.trans (touch_recvs _)).symm, ?_⟩
              rw [octetsOf, List.append_nil]
              apply inbound.ceased chunk.octets (same.trans (still.trans upgraded.symm))
              · intro fresh
                exact absurd (fresh.symm.trans (same.trans still)) Bool.false_ne_true
              · exact closeWithCode_not_reading _ i _ _
              · exact Hub.closeWithCode_messages ((w.setRecvs rest).touch i).toHub i _ _
            · rename_i side room
              have filled := fill_inbound inbound rest room
              generalize atFilled : ((w.setRecvs rest).touch i).setReads i (side.append chunk.octets) =
                filling at filled
              have left : filling.env.recvs = rest := by
                rw [← atFilled]
                exact touch_recvs _
              have asked : (filling.conn i).upgraded = true := by
                rw [← atFilled]
                exact still
              split
              · have again := (processBufferedFrames_turns server (i := i) filling).tends.upgraded asked
                exact ih ((processBufferedFrames_recvs server filling).trans left) again
                  (processBufferedFrames_inbound listens asked filled)
              · exact processed left asked filled

/-- The loop over the opening request. -/
theorem handshakeLoop_inbound (listens : server.Listens) (recvs : List RecvResult) {w : World}
    {octets : Bytes} (delivered : w.env.recvs = recvs) (inbound : Inbound server i octets w) :
    Consumes server i octets recvs (w.handshakeLoop server i recvs).2 := by
  induction recvs generalizing w octets with
  | nil =>
      rw [handshakeLoop.eq_def]
      dsimp only
      split
      · exact .nothing inbound delivered
      · exact .nothing (inbound.of_same rfl rfl rfl) delivered
  | cons answer rest ih =>
      rw [handshakeLoop.eq_def]
      dsimp only
      by_cases ended : (!((w.conn i).isOpen && !(w.conn i).upgraded)) = true
      · rw [if_pos ended]
        exact .nothing inbound delivered
      · rw [if_neg ended]
        simp only [Bool.not_eq_true', Bool.and_eq_true, Bool.not_eq_false] at ended
        obtain ⟨opened, fresh⟩ := ended
        have quiet (e : Errno) : Inbound server i octets ((w.setRecvs rest).setErrno e) :=
          inbound.of_same rfl rfl rfl
        cases answer with
        | eof =>
            apply Consumes.silent fun _ => rfl
            exact failRecv_consumes (w := w.setRecvs rest) (inbound.of_same rfl rfl rfl) rfl
        | failed e =>
            apply Consumes.silent fun _ => rfl
            cases e with
            | eintr => exact ih rfl (quiet .eintr)
            | eagain | ewouldblock => exact .nothing (quiet _) rfl
            | enobufs | epipe | econnreset | ebadf | other => exact failRecv_consumes (quiet _) rfl
        | data chunk =>
            have conn : ((w.setRecvs rest).touch i).conn i =
                { w.conn i with lastActivityUsec := (w.setRecvs rest).now.1 } :=
              (w.setRecvs rest).touch_conn i
            have upgraded := congrArg Connection.upgraded conn
            dsimp only
            split
            · exact reject_consumes inbound (touch_recvs _) upgraded rfl _ _
            · rename_i side room
              have filled := fill_inbound inbound rest room
              split
              · exact .chunk (ih (touch_recvs _) filled)
              · exact @reject_consumes server i octets w inbound
                  (((w.setRecvs rest).touch i).setReads i (side.append chunk.octets)) rest chunk
                  (touch_recvs _) upgraded rfl _ _
              · rename_i upgrade accepted
                apply Consumes.chunk
                apply Consumes.nothing
                · exact beginUpgrade_inbound listens filled (upgraded.trans fresh)
                    ((congrArg Connection.isOpen conn).trans opened) accepted
                · exact (beginUpgrade_untouched server _ upgrade).trans (touch_recvs _)

end World

/-! ## What does not serve the connection -/

/-- `Inbound`, also for a connection that is yet to come. -/
structure Received (server : Server) (i : ConnId) (octets : Bytes) (w : World) : Prop where
  unborn : w.nextConnectionId ≤ i → (w.conn i).upgraded = false ∧ octets = []
  inbound : Inbound server i octets w

namespace Received

variable {server : Server} {i : ConnId} {octets : Bytes} {w w' : World} {h : Hub}

theorem of_born (born : i < w.nextConnectionId) (inbound : Inbound server i octets w) :
    Received server i octets w := ⟨fun before => absurd born (Nat.not_lt.mpr before), inbound⟩

theorem of_same (received : Received server i octets w) (conn : w'.conn = w.conn)
    (trace : w'.trace = w.trace) (reads : w'.reads = w.reads)
    (next : w'.nextConnectionId = w.nextConnectionId) : Received server i octets w' := by
  refine ⟨?_, received.inbound.of_same conn trace reads⟩
  rw [next, conn]
  exact received.unborn

theorem bystander (received : Received server i octets w) (bystander : Bystander i w.toHub w'.toHub)
    (next : w'.nextConnectionId = w.nextConnectionId) (buffer : w'.buffer i = w.buffer i) :
    Received server i octets w' := by
  refine ⟨fun before => ?_, received.inbound.bystander bystander buffer⟩
  obtain ⟨fresh, empty⟩ := received.unborn (next ▸ before)
  exact ⟨bystander.keeps.upgraded.trans fresh, empty⟩

theorem mark (received : Received server i octets w) {j : ConnId} {conn : Connection}
    (upgraded : conn.upgraded = (w.conn j).upgraded) (isOpen : conn.isOpen = (w.conn j).isOpen)
    (closing : conn.closeAfterWrite = (w.conn j).closeAfterWrite)
    (fragment : conn.fragment = (w.conn j).fragment) :
    Received server i octets { w with toHub := w.setConn j conn } := by
  by_cases same : i = j
  · subst same
    have self : (w.setConn i conn).conn i = conn := w.conn_setConn i conn
    have reading : conn.Reading ↔ (w.conn i).Reading := by
      rw [Connection.Reading, isOpen, closing, upgraded]
      exact Iff.rfl
    refine ⟨fun before => ?_, received.inbound.settle ?_ ?_ ?_ ?_ rfl rfl⟩
    · rw [self, upgraded]
      exact received.unborn before
    · rw [self, upgraded]
    · rw [self, isOpen]
      exact id
    · rw [self]
      exact reading.mp
    · rw [self]
      exact fun _ => fragment
  · exact received.bystander (.of_same (Function.update_of_ne same ..) rfl) rfl rfl

theorem deeds {most : Nat} {served : ConnId → Prop} (received : Received server i octets w) (idle : ¬ served i)
    (deeds : Deeds most served w.toHub h) : Received server i octets { w with toHub := h } :=
  received.bystander (deeds.bystander idle) deeds.ops.steady.next rfl

theorem newcomer (received : Received server i octets w) (fd : Nat) :
    Received server i octets
      ({ w with toHub := w.newcomer server fd }.setReads w.nextConnectionId {}) := by
  by_cases same : i = w.nextConnectionId
  · obtain ⟨fresh, empty⟩ := received.unborn (Nat.le_of_eq same.symm)
    have silent := (received.inbound.fresh fresh).1
    subst same
    have conn : (w.newcomer server fd).conn w.nextConnectionId = { Connection.opened fd with
        acceptedAtUsec := w.env.now.1
        lastActivityUsec := w.env.now.1
        maxQueuedBytes := server.options.maxQueuedBytes } := Function.update_self ..
    have buffer : ({ w with toHub := w.newcomer server fd }.setReads w.nextConnectionId {}).buffer
        w.nextConnectionId = [] := by
      simp [World.buffer, World.setReads]
    apply of_born (Nat.lt_succ_self _)
    refine ⟨fun _ => ⟨silent, fun _ => ⟨empty.trans buffer.symm, ?_⟩⟩, fun asked => ?_⟩
    · change ((w.newcomer server fd).conn w.nextConnectionId).Holds none
      rw [conn]
      exact ⟨rfl, rfl⟩
    · exact absurd ((congrArg Connection.upgraded conn).symm.trans asked) Bool.false_ne_true
  · have conn : (w.newcomer server fd).conn i = w.conn i := Function.update_of_ne same ..
    refine ⟨fun before => ?_, received.inbound.bystander (.of_same conn rfl)
      (congrArg ReadSide.buffer (Function.update_of_ne same ..))⟩
    have fresh := received.unborn (Nat.le_of_succ_le before)
    rw [← conn] at fresh
    exact fresh

theorem admission (received : Received server i octets w) (fd : Nat) :
    Received server i octets (w.openConnection server fd).2 := by
  have entered := received.newcomer fd
  have reads : (w.openConnection server fd).2.reads = Function.update w.reads w.nextConnectionId {} := by
    simp only [World.openConnection]
    split <;> rfl
  have buffer := congrArg (fun reads => (reads i).buffer) reads
  cases watched : (w.env.now.2.watchRead fd).1 with
  | true =>
      have told : Bystander i (w.newcomer server fd) (w.openConnection server fd).2.toHub := by
        rw [World.openConnection_watched watched]
        exact .emit _ (Option.some_ne_none i).symm
      apply entered.bystander told _ buffer
      rw [World.openConnection_watched watched]
      rfl
  | false =>
      have closed : Bystander i (w.newcomer server fd) (w.openConnection server fd).2.toHub := by
        rw [World.openConnection_unwatched watched]
        have deed : Deed 0 (fun _ => False) (w.newcomer server fd)
            ((w.newcomer server fd).closeSocket w.nextConnectionId) := .closeSocket _ _
        exact (deed.bystander id).trans (.of_same rfl rfl)
      apply entered.bystander closed _ buffer
      rw [World.openConnection_unwatched watched]
      rfl

end Received

theorem Effect.received {server : Server} {served : ConnId → Prop} {w w' : World} {i : ConnId}
    {octets : Bytes} (effect : Effect server served w w') (idle : ¬ served i)
    (received : Received server i octets w) : Received server i octets w' := by
  cases effect with
  | deed deed => exact received.deeds idle (Deeds.single deed)
  | answered => exact received.of_same rfl rfl rfl rfl
  | stamp => exact received.mark rfl rfl rfl rfl
  | beat j time => exact received.mark rfl rfl rfl rfl
  | @upgrade j acting protocol =>
      have other : i ≠ j := fun same => idle (same ▸ acting)
      exact received.bystander (.of_same (Function.update_of_ne other ..) rfl) rfl rfl
  | @approve j upgrade h _ _ heard =>
      have told : Bystander i h (h.emit (.approved j)) := .emit h (Option.some_ne_none i).symm
      exact (received.deeds idle heard).bystander told rfl rfl
  | @fill j acting chunk limit side limited grown =>
      have other : i ≠ j := fun same => idle (same ▸ acting)
      exact ⟨received.unborn, received.inbound.bystander (.refl _)
        (congrArg ReadSide.buffer (Function.update_of_ne other ..))⟩
  | @discard j acting bytes =>
      have other : i ≠ j := fun same => idle (same ▸ acting)
      exact ⟨received.unborn, received.inbound.bystander (.refl _)
        (congrArg ReadSide.buffer (Function.update_of_ne other ..))⟩
  | admission fd => exact received.admission fd
  | @remove index j h here told =>
      have shut : Deed 0 served w.toHub (w.shut j) := w.shut_deed j
      have down : Received server i octets { w with
          toHub := { w.shutDown j with connections := w.connections.eraseIdx index } } :=
        (received.deeds idle (Deeds.single shut)).of_same rfl rfl rfl rfl
      have closed : Deed server.options.maxMessageSize served h (h.closeSocket j) := .closeSocket h j
      exact down.deeds idle (told.tail closed)
  | listen fd => exact received.of_same rfl rfl rfl rfl
  | unlisten =>
      simp only [Hub.unlistened]
      split <;> exact received.of_same rfl rfl rfl rfl

theorem Effects.received {server : Server} {served : ConnId → Prop} {w w' : World} {i : ConnId}
    {octets : Bytes} (effects : Effects server served w w') (idle : ¬ served i)
    (received : Received server i octets w) : Received server i octets w' :=
  effects.invariant (fun effect => effect.received idle) received

/-! ## One turn of a connection -/

namespace World

variable {server : Server} {i : ConnId} {octets : Bytes} {w : World}

theorem attend_inbound (born : i < w.nextConnectionId) (inbound : Inbound server i octets w) (now : Nat) :
    Inbound server i octets (w.attend server i now).2 := by
  have effects : Effects server (fun _ => False) w (w.attend server i now).2 :=
    attend_effects server w i now
  exact (effects.received id (.of_born born inbound)).inbound

theorem serveReady_inbound (listens : server.Listens) (born : i < w.nextConnectionId)
    (inbound : Inbound server i octets w) (now : Nat) :
    Consumes server i octets w.env.recvs (w.serveReady server i now).2 := by
  have untouched := (attend_turns server (i := i) w now).untouched
  have attended := attend_inbound born inbound now
  unfold serveReady
  split
  · exact .nothing inbound rfl
  · dsimp only
    generalize w.attend server i now = attention at untouched attended ⊢
    rw [← untouched.recvs]
    split
    · exact .nothing attended rfl
    · exact .nothing attended rfl
    · split
      · exact handshakeLoop_inbound listens _ rfl attended
      · rename_i asked
        simp only [Bool.not_eq_true', Bool.not_eq_false] at asked
        exact frameReadsLoop_inbound listens _ rfl asked attended

theorem processLeftover_inbound (listens : server.Listens) {shaken : Bool × World} {recvs : List RecvResult}
    (consumes : Consumes server i octets recvs shaken.2) :
    Consumes server i octets recvs (processLeftover server i shaken).2 := by
  unfold processLeftover
  split
  · exact consumes
  · split
    · rename_i buffered
      simp only [Bool.and_eq_true] at buffered
      obtain ⟨used, taken, inbound⟩ := consumes
      refine ⟨used, ?_, processBufferedFrames_inbound listens buffered.1 inbound⟩
      rw [taken, processBufferedFrames_recvs]
    · exact consumes

theorem processConnection_inbound (listens : server.Listens) (born : i < w.nextConnectionId)
    (inbound : Inbound server i octets w) (now : Nat) :
    Consumes server i octets w.env.recvs (w.processConnection server i now).2 := by
  have untouched := (attend_turns server (i := i) w now).untouched
  have attended := attend_inbound born inbound now
  rw [processConnection_eq]
  dsimp only
  split
  · exact .nothing inbound rfl
  · generalize w.attend server i now = attention at untouched attended ⊢
    rw [← untouched.recvs]
    split
    · exact .nothing attended rfl
    · exact .nothing attended rfl
    · apply processLeftover_inbound listens
      split
      · exact handshakeLoop_inbound listens _ rfl attended
      · exact .nothing attended rfl

end World

end PhpWebSocket
