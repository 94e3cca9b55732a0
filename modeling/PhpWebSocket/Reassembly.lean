import PhpWebSocket.Lib.Assembler
import PhpWebSocket.Reached

/-! # Reassembly

What the server owes a client for its frames, as a machine of its own: messages are put
together by `Lib.Assembler`, control frames are answered at once, and the first frame out
of place closes the connection. While sends succeed and the user only reads and writes,
the loop over buffered frames keeps step with that machine.
-/

namespace PhpWebSocket

open Lib

/-! ## The receiver -/

/-- An answer to the frames of a client: a message for the user, or a frame back. -/
inductive Reaction where
  | deliver (opcode : UInt8) (payload : Bytes)
  | pong (payload : Bytes)
  | echo (payload : Bytes)
  | fail (code : Int) (reason : Bytes)
  deriving DecidableEq

/-- The octets that go out for a reaction. -/
def Reaction.wireLength : Reaction → Nat
  | .deliver _ _ => 0
  | .pong payload | .echo payload => 2 + payload.length
  | .fail _ reason => 4 + reason.length

inductive Stage where
  | reading (pending : Pending UInt8 UInt8)
  | closed
  deriving DecidableEq

/-- What has been answered so far, and what comes next. -/
structure Receiver where
  reactions : List Reaction := []
  stage : Stage := .reading none
  deriving DecidableEq

/-- Messages of at most `maxMessageSize` octets, of which a Text is valid UTF-8. -/
def messages (maxMessageSize : Nat) : Assembler UInt8 UInt8 where
  limit := maxMessageSize
  wellFormed opcode payload := opcode ≠ opcodeText || isValidUtf8 payload

/-- A data frame as a part of a message. -/
def ServerFrame.part (frame : ServerFrame) : Part UInt8 UInt8 :=
  if frame.opcode = opcodeContinuation then .next frame.payload frame.final
  else .first frame.opcode frame.payload frame.final

namespace Receiver

def react (m : Receiver) (reaction : Reaction) (stage : Stage) : Receiver :=
  ⟨m.reactions ++ [reaction], stage⟩

def assembled (m : Receiver) : Assembled UInt8 UInt8 → Receiver
  | .waiting pending => { m with stage := .reading pending }
  | .message opcode payload => m.react (.deliver opcode payload) (.reading none)
  | .misplaced => m.react (.fail closeProtocolError (ascii "protocol error")) .closed
  | .tooLong => m.react (.fail closeMessageTooBig (ascii "message too big")) .closed
  | .malformed => m.react (.fail closeInvalidPayload (ascii "invalid utf-8")) .closed

theorem mem_react {m : Receiver} {reaction : Reaction} {stage : Stage} :
    reaction ∈ (m.react reaction stage).reactions :=
  List.mem_append_right _ (List.mem_singleton_self _)

/-- The next frame. -/
def step (maxMessageSize : Nat) (m : Receiver) (frame : ServerFrame) : Receiver :=
  match m.stage with
  | .closed => m
  | .reading pending =>
      if frame.opcode = opcodePing then m.react (.pong frame.payload) (.reading pending)
      else if frame.opcode = opcodePong then m
      else if frame.opcode = opcodeClose then m.react (.echo frame.payload) .closed
      else m.assembled ((messages maxMessageSize).take pending frame.part)

theorem assembled_prefix (m : Receiver) (outcome : Assembled UInt8 UInt8) :
    m.reactions <+: (m.assembled outcome).reactions := by
  cases outcome with
  | waiting => exact List.prefix_rfl
  | message | misplaced | tooLong | malformed => exact List.prefix_append _ _

theorem step_prefix (maxMessageSize : Nat) (m : Receiver) (frame : ServerFrame) :
    m.reactions <+: (m.step maxMessageSize frame).reactions := by
  unfold step
  split
  · exact List.prefix_rfl
  · split
    · exact List.prefix_append _ _
    · split
      · exact List.prefix_rfl
      · split
        · exact List.prefix_append _ _
        · exact m.assembled_prefix _

theorem step_closed (m : Receiver) (closed : m.stage = .closed) (maxMessageSize : Nat)
    (frame : ServerFrame) : m.step maxMessageSize frame = m := by
  rw [step, closed]

end Receiver

/-- The receiver after a sequence of frames. -/
def Receiver.run {maxMessageSize : Nat} (frames : List (AcceptedFrame maxMessageSize)) : Receiver :=
  frames.foldl (fun m accepted => m.step maxMessageSize accepted.frame) {}

/-- What an event is to the client of connection `i`. -/
def Event.reaction? (i : ConnId) : Event → Option Reaction
  | .message j type payload _ => if j = i then some (.deliver type.opcode payload) else none
  | .frame j .pong opcode payload =>
      if j = i ∧ opcode = opcodePong then some (.pong payload) else none
  | .frame j .echo opcode payload =>
      if j = i ∧ opcode = opcodeClose then some (.echo payload) else none
  | .frame j .server opcode payload =>
      if j = i ∧ opcode = opcodeClose then some (.fail (closeCodeOf payload) (payload.drop 2))
      else none
  | _ => none

/-! ## User code that only reads and writes -/

/-- A script that closes no connection and returns. -/
inductive Script.Calm : Script → Prop
  | finish (value : ReturnValue) : Calm (.finish (.returned value))
  | call {c : ApiCall} {next : ApiResult → Script} (keeps : ∀ i arguments, c ≠ .close i arguments)
      (rest : ∀ answer, Calm (next answer)) : Calm (.call c next)

/-- What may happen on the side: octets on the wire of connection `i`, and events that are
    no reactions to its frames. -/
structure Aside (i : ConnId) (h h' : Hub) : Prop where
  conn : ∃ wire, h'.conn i = { h.conn i with wire }
  sends : h'.env.sends = []
  exception : h'.env.exception = h.env.exception
  trace : ∃ more, h'.trace = h.trace ++ more ∧ more.filterMap (Event.reaction? i) = []

namespace Aside

variable {i : ConnId} {h h' h'' : Hub}

theorem refl (sends : h.env.sends = []) : Aside i h h :=
  ⟨⟨_, rfl⟩, sends, rfl, [], by simp, rfl⟩

theorem trans (first : Aside i h h') (next : Aside i h' h'') : Aside i h h'' := by
  obtain ⟨wire, conn⟩ := first.conn
  obtain ⟨wire', conn'⟩ := next.conn
  obtain ⟨more, trace, none⟩ := first.trace
  obtain ⟨more', trace', none'⟩ := next.trace
  refine ⟨⟨wire', by rw [conn', conn]⟩, next.sends, next.exception.trans first.exception,
    more ++ more', ?_, ?_⟩
  · rw [trace', trace, List.append_assoc]
  · rw [List.filterMap_append, none, none', List.nil_append]

theorem emit {e : Event} (sends : h.env.sends = []) (none : e.reaction? i = none) :
    Aside i h (h.emit e) :=
  ⟨⟨_, rfl⟩, sends, rfl, [e], rfl, by simp [none]⟩

end Aside

namespace Hub

variable {i : ConnId} {h : Hub}

theorem sendFrame_aside (sends : h.env.sends = []) (idle : (h.conn i).writeQueue = []) (j : ConnId)
    (payload : Bytes) (opcode : UInt8) : Aside i h (h.sendFrame j .send payload opcode).2 := by
  have after : Aside i h (h.relink j ((h.link j).sendFrame payload opcode).2) := by
    refine ⟨?_, Link.sendFrame_sends sends payload opcode,
      Link.sendFrame_exception (h.link j) payload opcode, [], by simp [relink], rfl⟩
    by_cases same : i = j
    · subst same
      rw [conn_relink]
      exact Link.sendFrame_idle sends idle payload opcode
    · have untouched : (h.relink j ((h.link j).sendFrame payload opcode).2).conn i = h.conn i :=
        Function.update_of_ne same ..
      exact ⟨_, untouched⟩
  simp only [sendFrame]
  split
  · exact after.trans (Aside.emit after.sends rfl)
  · exact after

theorem perform_aside (sends : h.env.sends = []) (idle : (h.conn i).writeQueue = []) {c : ApiCall}
    (keeps : ∀ j arguments, c ≠ .close j arguments) : Aside i h (h.perform c).2 := by
  cases c with
  | close j arguments => exact absurd rfl (keeps j arguments)
  | stop => exact ⟨⟨_, rfl⟩, sends, rfl, [], by simp [perform], rfl⟩
  | isOpen j =>
      simp only [perform]
      split <;> exact Aside.refl sends
  | send j payload type =>
      simp only [perform]
      split
      · exact Aside.refl sends
      · rcases connectionSend_cases h j payload type with same | ⟨opcode, -, -, sent⟩
        · rw [same]
          exact Aside.refl sends
        · rw [sent]
          have submitted : Aside i h (h.emit (.submit j opcode payload)) := Aside.emit sends rfl
          exact submitted.trans (sendFrame_aside submitted.sends idle j payload opcode)

theorem runScript_aside {script : Script} (calm : script.Calm) (sends : h.env.sends = [])
    (idle : (h.conn i).writeQueue = []) :
    (∃ value, (runScript script h).1 = .returned value) ∧ Aside i h (runScript script h).2 := by
  induction calm generalizing h with
  | finish value => exact ⟨⟨value, rfl⟩, Aside.refl sends⟩
  | @call c next keeps rest ih =>
      have performed := perform_aside sends idle keeps
      obtain ⟨wire, conn⟩ := performed.conn
      obtain ⟨returned, later⟩ := ih (h.perform c).1 performed.sends (by rw [conn]; exact idle)
      exact ⟨returned, performed.trans later⟩

end Hub

/-! ## Keeping step -/

/-- The message under way, as a connection holds it. -/
def Connection.Holds (conn : Connection) : Pending UInt8 UInt8 → Prop
  | none => conn.fragmented = false ∧ conn.fragmentedPayload = none
  | some (opcode, payload) =>
      conn.fragmented = true ∧ conn.fragmentedOpcode = opcode ∧
        conn.fragmentedPayload = some payload ∧ (opcode = opcodeText ∨ opcode = opcodeBinary)

/-- A connection that can be read from, with nothing in its write queue. -/
structure Connection.Ready (maxQueuedBytes : Nat) (conn : Connection) : Prop where
  reading : conn.Reading
  fd : conn.fd ≠ none
  idle : conn.writeQueue = []
  limit : conn.maxQueuedBytes = maxQueuedBytes

def Stage.Matches (maxQueuedBytes : Nat) (conn : Connection) : Stage → Prop
  | .reading pending => conn.Ready maxQueuedBytes ∧ conn.Holds pending
  | .closed => conn.isOpen = false ∧ conn.Holds none

/-- The hub and the receiver have reacted alike since the trace was `start`. -/
structure Tracks (i : ConnId) (start : Trace) (maxQueuedBytes : Nat) (h : Hub) (m : Receiver) :
    Prop where
  reactions : ∃ more, h.trace = start ++ more ∧
    more.filterMap (Event.reaction? i) = m.reactions
  sends : h.env.sends = []
  quiet : h.Quiet
  stage : m.stage.Matches maxQueuedBytes (h.conn i)

/-- The user has a message callback, and it only reads and writes. -/
def Server.Calm (server : Server) : Prop :=
  ∀ trace, ∃ onMessage, (server.handlers trace).onMessage = some onMessage ∧
    ∀ i payload type, (onMessage i payload type).Calm

namespace Connection

variable {conn : Connection} {pending : Pending UInt8 UInt8} {maxQueuedBytes : Nat}

theorem Holds.wire (holds : conn.Holds pending) (wire : Bytes) :
    ({ conn with wire } : Connection).Holds pending := by
  cases pending <;> exact holds

theorem Ready.wire (ready : conn.Ready maxQueuedBytes) (wire : Bytes) :
    ({ conn with wire } : Connection).Ready maxQueuedBytes :=
  ⟨ready.reading, ready.fd, ready.idle, ready.limit⟩

end Connection

namespace Hub

variable {i : ConnId} {h : Hub} {maxQueuedBytes : Nat}

theorem sendFrame_ready (sends : h.env.sends = []) (ready : (h.conn i).Ready maxQueuedBytes)
    (source : FrameSource) {payload : Bytes} (short : payload.length ≤ 125) (opcode : UInt8)
    (fits : 2 + payload.length ≤ maxQueuedBytes) :
    ∃ wire, let after := h.sendFrame i source payload opcode
      after.1 = true ∧ after.2.conn i = { h.conn i with wire } ∧ after.2.env.sends = [] ∧
        after.2.env.exception = h.env.exception ∧
        after.2.trace = h.trace ++ [.frame i source opcode payload] := by
  have length : (serverFrame payload opcode).length = 2 + payload.length := by
    simp only [serverFrame, lengthField, show payload.length < 126 by omega, if_true,
      List.length_cons, List.length_append, List.length_nil]
    omega
  have accepts : Accepts (h.link i).conn (h.link i).env (serverFrame payload opcode).length := by
    refine ⟨ready.reading, ready.fd, ?_, fun busy => absurd ready.idle busy, ?_⟩
    · rw [length]
      exact Nat.le_trans fits (Nat.le_of_eq ready.limit.symm)
    · intro _
      refine ⟨(serverFrame payload opcode).length, ?_, fun partly => absurd partly (Nat.lt_irrefl _)⟩
      rw [show (h.link i).env.sends = [] from sends, Link.socketTakes_willing]
  have sent := (Link.sendFrame_iff (h.link i) payload opcode).mpr accepts
  obtain ⟨wire, conn⟩ := @Link.sendFrame_idle (h.link i) sends ready.idle payload opcode
  refine ⟨wire, ?_⟩
  simp only [sendFrame, sent, if_true]
  refine ⟨trivial, ?_, Link.sendFrame_sends sends payload opcode,
    Link.sendFrame_exception (h.link i) payload opcode, rfl⟩
  exact (conn_relink ..).trans conn

theorem closeAfterWrite_idle (isOpen : (h.conn i).isOpen = true)
    (idle : (h.conn i).writeQueue = []) : h.closeAfterWrite i = h.closeSocket i := by
  have pending : (h.link i).conn.hasPendingWrites = false := by
    simp [Connection.hasPendingWrites, link, idle]
  rw [closeAfterWrite, closeSocket, Link.closeAfterWrite, if_neg (by simp [link, isOpen]),
    if_pos (by rw [pending]; rfl)]

theorem closeSocket_closed (h : Hub) (i : ConnId) :
    Stage.closed.Matches maxQueuedBytes ((h.closeSocket i).conn i) ∧
      (h.closeSocket i).env.sends = h.env.sends ∧
      (h.closeSocket i).env.exception = h.env.exception ∧ (h.closeSocket i).trace = h.trace := by
  refine ⟨?_, (h.link i).closeSocket_sends, (h.link i).closeSocket_exception, rfl⟩
  rw [closeSocket, conn_relink]
  exact ⟨rfl, rfl, rfl⟩

end Hub

namespace Tracks

variable {i : ConnId} {start : Trace} {maxQueuedBytes : Nat} {h h' : Hub} {m : Receiver}

/-- The hub has reacted, and the receiver with it. -/
theorem react (tracks : Tracks i start maxQueuedBytes h m) {e : Event} {reaction : Reaction}
    {stage : Stage} (trace : h'.trace = h.trace ++ [e]) (same : e.reaction? i = some reaction)
    (sends : h'.env.sends = []) (exception : h'.env.exception = h.env.exception)
    (matched : stage.Matches maxQueuedBytes (h'.conn i)) :
    Tracks i start maxQueuedBytes h' (m.react reaction stage) := by
  obtain ⟨more, grown, reactions⟩ := tracks.reactions
  refine ⟨⟨more ++ [e], by rw [trace, grown, List.append_assoc], ?_⟩, sends,
    exception.trans tracks.quiet, matched⟩
  simp [Receiver.react, reactions, same]

theorem move (tracks : Tracks i start maxQueuedBytes h m) {stage : Stage}
    (trace : h'.trace = h.trace) (env : h'.env = h.env)
    (matched : stage.Matches maxQueuedBytes (h'.conn i)) :
    Tracks i start maxQueuedBytes h' { m with stage } := by
  obtain ⟨more, grown, reactions⟩ := tracks.reactions
  have quiet : h'.env.exception = none := by rw [env]; exact tracks.quiet
  exact ⟨⟨more, trace.trans grown, reactions⟩, by rw [env]; exact tracks.sends, quiet, matched⟩

theorem aside (tracks : Tracks i start maxQueuedBytes h m) (aside : Aside i h h') :
    Tracks i start maxQueuedBytes h' m := by
  obtain ⟨more, grown, reactions⟩ := tracks.reactions
  obtain ⟨later, trace, none⟩ := aside.trace
  obtain ⟨wire, conn⟩ := aside.conn
  refine ⟨⟨more ++ later, by rw [trace, grown, List.append_assoc], ?_⟩, aside.sends,
    aside.exception.trans tracks.quiet, ?_⟩
  · rw [List.filterMap_append, none, List.append_nil, reactions]
  · have matched := tracks.stage
    rw [conn]
    cases atStage : m.stage with
    | closed =>
        rw [atStage] at matched
        exact matched
    | reading pending =>
        rw [atStage] at matched
        exact ⟨matched.1.wire wire, matched.2.wire wire⟩

end Tracks

namespace Hub

variable {server : Server} {i : ConnId} {start : Trace} {maxQueuedBytes : Nat} {h : Hub}
  {m : Receiver} {pending : Pending UInt8 UInt8}

/-- A Close frame that fits goes out, and the connection is closed behind it. -/
theorem bye_tracks (tracks : Tracks i start maxQueuedBytes h m)
    (ready : (h.conn i).Ready maxQueuedBytes) {source : FrameSource} {payload : Bytes}
    (short : payload.length ≤ 125) (fits : 2 + payload.length ≤ maxQueuedBytes) {reaction : Reaction}
    (same : (Event.frame i source opcodeClose payload).reaction? i = some reaction) :
    (h.sendFrame i source payload opcodeClose).1 = true ∧
      Tracks i start maxQueuedBytes ((h.sendFrame i source payload opcodeClose).2.closeAfterWrite i)
        (m.react reaction .closed) := by
  obtain ⟨wire, sent, conn, sends, exception, trace⟩ :=
    sendFrame_ready tracks.sends ready source short opcodeClose fits
  have isOpen : ((h.sendFrame i source payload opcodeClose).2.conn i).isOpen = true := by
    rw [conn]
    exact ready.reading.1
  have idle : ((h.sendFrame i source payload opcodeClose).2.conn i).writeQueue = [] := by
    rw [conn]
    exact ready.idle
  rw [closeAfterWrite_idle isOpen idle]
  obtain ⟨closed, sends', exception', trace'⟩ := closeSocket_closed
    (h.sendFrame i source payload opcodeClose).2 i
  exact ⟨sent, tracks.react (trace'.trans trace) same (sends'.trans sends)
    (exception'.trans exception) closed⟩

theorem closeWithCode_tracks (tracks : Tracks i start maxQueuedBytes h m)
    (ready : (h.conn i).Ready maxQueuedBytes) {code : Int} {reason : String}
    (known : (code, reason) ∈ serverReasons)
    (fits : (Reaction.fail code (ascii reason)).wireLength ≤ maxQueuedBytes) :
    ∃ h', h.closeWithCode i code reason = (true, h') ∧
      Tracks i start maxQueuedBytes h' (m.react (.fail code (ascii reason)) .closed) := by
  obtain ⟨payload, ok⟩ := serverReasons_ok _ known
  obtain ⟨-, short, atCode, atReason⟩ := closePayload_ok ok
  have length : payload.length = 2 + (ascii reason).length := length_closePayload ok
  have same : (Event.frame i .server opcodeClose payload).reaction? i =
      some (.fail code (ascii reason)) := by
    simp [Event.reaction?, atCode, atReason]
  have wire : 2 + payload.length ≤ maxQueuedBytes := by
    simp only [Reaction.wireLength] at fits
    omega
  obtain ⟨sent, closed⟩ := bye_tracks tracks ready short wire same
  have able : (!(h.conn i).isOpen || !(h.conn i).upgraded || (h.conn i).fd.isNone) = false := by
    simp [ready.reading.1, ready.reading.2.2, Option.isSome_iff_ne_none.mpr ready.fd]
  refine ⟨_, ?_, closed⟩
  simp only [closeWithCode, sendCloseFrame_eq h i .server ok, able, Bool.false_eq_true, if_false,
    sent, if_true]

theorem handleCloseFrame_tracks (tracks : Tracks i start maxQueuedBytes h m)
    (ready : (h.conn i).Ready maxQueuedBytes) {payload : Bytes} (short : payload.length ≤ 125)
    (fits : (Reaction.echo payload).wireLength ≤ maxQueuedBytes) :
    ∃ h', h.handleCloseFrame i payload = (true, h') ∧
      Tracks i start maxQueuedBytes h' (m.react (.echo payload) .closed) := by
  have same : (Event.frame i .echo opcodeClose payload).reaction? i = some (.echo payload) := by
    simp [Event.reaction?]
  obtain ⟨sent, closed⟩ := bye_tracks tracks ready short fits same
  refine ⟨((h.sendFrame i .echo payload opcodeClose).2.closeAfterWrite i).clearFragment i, ?_, ?_⟩
  · simp only [handleCloseFrame, ready.reading.1, ready.reading.2.2, Bool.and_self, if_true, sent,
      closeAfterWrite_clearFragment]
  · refine closed.move rfl rfl ?_
    rw [clearFragment, conn_setConn]
    exact ⟨closed.stage.1, rfl, rfl⟩

theorem callMessageHandler_aside (calm : server.Calm) (quiet : h.Quiet) (sends : h.env.sends = [])
    (idle : (h.conn i).writeQueue = []) (payload : Bytes) {opcode : UInt8}
    (kind : opcode = opcodeText ∨ opcode = opcodeBinary) :
    ∃ type h', type.opcode = opcode ∧ h.callMessageHandler server i payload opcode = (true, h') ∧
      Aside i (h.emit (.message i type payload (h.conn i))) h' := by
  obtain ⟨onMessage, registered, scripts⟩ := calm h.trace
  obtain ⟨type, known, same⟩ : ∃ type, MessageType.fromOpcode opcode = some type ∧
      type.opcode = opcode := by
    rcases kind with rfl | rfl
    · exact ⟨.text, rfl, rfl⟩
    · exact ⟨.binary, rfl, rfl⟩
  obtain ⟨⟨value, returned⟩, ran⟩ := runScript_aside (i := i)
    (h := h.emit (.message i type payload (h.conn i))) (scripts i payload type) sends idle
  have clean : (runScript (onMessage i payload type)
      (h.emit (.message i type payload (h.conn i)))).2.env.exception = none :=
    ran.exception.trans quiet
  refine ⟨type, _, same, ?_, ran⟩
  simp only [callMessageHandler, registered, known, callUser, returned, clean, Option.isNone_none]

theorem callMessageHandler_tracks (calm : server.Calm) (tracks : Tracks i start maxQueuedBytes h m)
    (ready : (h.conn i).Ready maxQueuedBytes) (payload : Bytes) {opcode : UInt8}
    (kind : opcode = opcodeText ∨ opcode = opcodeBinary) :
    ∃ h', h.callMessageHandler server i payload opcode = (true, h') ∧
      Tracks i start maxQueuedBytes h' (m.react (.deliver opcode payload) m.stage) := by
  obtain ⟨type, h', same, called, aside⟩ :=
    callMessageHandler_aside calm tracks.quiet tracks.sends ready.idle payload kind
  have delivered : Tracks i start maxQueuedBytes (h.emit (.message i type payload (h.conn i)))
      (m.react (.deliver opcode payload) m.stage) :=
    tracks.react rfl (by simp [Event.reaction?, same]) tracks.sends rfl tracks.stage
  exact ⟨h', called, delivered.aside aside⟩

theorem clearFragment_tracks (tracks : Tracks i start maxQueuedBytes h m)
    (ready : (h.conn i).Ready maxQueuedBytes) :
    Tracks i start maxQueuedBytes (h.clearFragment i) { m with stage := .reading none } ∧
      ((h.clearFragment i).conn i).Ready maxQueuedBytes := by
  have still : ((h.clearFragment i).conn i).Ready maxQueuedBytes := by
    rw [clearFragment, conn_setConn]
    exact ⟨ready.reading, ready.fd, ready.idle, ready.limit⟩
  refine ⟨tracks.move rfl rfl ⟨still, ?_⟩, still⟩
  rw [clearFragment, conn_setConn]
  exact ⟨rfl, rfl⟩

theorem refuseFrames_tracks (tracks : Tracks i start maxQueuedBytes h m)
    (ready : (h.conn i).Ready maxQueuedBytes) {code : Int} {reason : String}
    (known : (code, reason) ∈ serverReasons)
    (fits : (Reaction.fail code (ascii reason)).wireLength ≤ maxQueuedBytes) :
    ∃ h', (h.clearFragment i).closeWithCode i code reason = (true, h') ∧
      Tracks i start maxQueuedBytes h' (m.react (.fail code (ascii reason)) .closed) := by
  obtain ⟨cleared, still⟩ := clearFragment_tracks tracks ready
  exact closeWithCode_tracks cleared still known fits

/-- The two size tests of `append_fragment` are one on the sum. -/
theorem appendFragment_spec {conn : Connection} {opcode : UInt8} {sofar : Bytes}
    (ready : conn.Ready maxQueuedBytes) (holds : conn.Holds (some (opcode, sofar)))
    (payload : Bytes) (maxMessageSize : Nat) :
    if maxMessageSize < (sofar ++ payload).length then
      conn.appendFragment payload maxMessageSize = none
    else
      ∃ grown, conn.appendFragment payload maxMessageSize = some grown ∧
        grown.Ready maxQueuedBytes ∧ grown.Holds (some (opcode, sofar ++ payload)) := by
  obtain ⟨fragmented, atOpcode, present, kind⟩ := holds
  simp only [Connection.appendFragment, present, Option.getD_some, List.length_append]
  by_cases long : maxMessageSize < sofar.length + payload.length
  · rw [if_pos long, if_pos (by simp only [Bool.or_eq_true, decide_eq_true_eq]; omega)]
  · rw [if_neg long, if_neg (by simp only [Bool.or_eq_true, decide_eq_true_eq]; omega)]
    exact ⟨_, rfl, ⟨ready.reading, ready.fd, ready.idle, ready.limit⟩, fragmented, atOpcode, rfl, kind⟩

theorem handleContinuation_tracks (calm : server.Calm) (tracks : Tracks i start maxQueuedBytes h m)
    (stage : m.stage = .reading pending) {frame : ServerFrame}
    (continuation : frame.opcode = opcodeContinuation)
    (fits : ∀ r ∈ (m.assembled ((messages server.options.maxMessageSize).take pending
      frame.part)).reactions, r.wireLength ≤ maxQueuedBytes) :
    ∃ h', h.handleDataFrame server i frame = (true, h') ∧
      Tracks i start maxQueuedBytes h'
        (m.assembled ((messages server.options.maxMessageSize).take pending frame.part)) := by
  have matched := tracks.stage
  rw [stage] at matched
  obtain ⟨ready, holds⟩ := matched
  have part : frame.part = .next frame.payload frame.final := by
    rw [ServerFrame.part, if_pos continuation]
  rw [part] at fits ⊢
  unfold handleDataFrame
  dsimp only
  rw [if_pos continuation]
  cases pending with
  | none =>
      rw [if_pos (by simp [holds.1])]
      exact closeWithCode_tracks tracks ready (by decide) (fits _ Receiver.mem_react)
  | some pending =>
      obtain ⟨opcode, sofar⟩ := pending
      have appended := appendFragment_spec ready holds frame.payload server.options.maxMessageSize
      rw [if_neg (by simp [holds.1])]
      rw [Assembler.take] at fits ⊢
      generalize sofar ++ frame.payload = whole at fits appended ⊢
      by_cases long : server.options.maxMessageSize < whole.length
      · rw [Assembler.weigh_tooLong (by exact long)] at fits ⊢
        rw [if_pos long] at appended
        rw [appended]
        exact refuseFrames_tracks tracks ready (by decide) (fits _ Receiver.mem_react)
      · rw [if_neg long] at appended
        obtain ⟨grown, appended, grownReady, grownHolds⟩ := appended
        rw [appended]
        dsimp only
        have after : Tracks i start maxQueuedBytes (h.setConn i grown)
            { m with stage := .reading (some (opcode, whole)) } :=
          tracks.move rfl rfl (by rw [conn_setConn]; exact ⟨grownReady, grownHolds⟩)
        rw [grownHolds.2.1, grownHolds.2.2.1, Option.getD_some]
        cases final : frame.final with
        | false =>
            rw [Assembler.weigh_waiting (by exact long)]
            exact ⟨_, rfl, after⟩
        | true =>
            rw [if_neg (by decide)]
            rw [final] at fits
            cases valid : decide (opcode ≠ opcodeText) || isValidUtf8 whole with
            | false =>
                rw [Assembler.weigh_malformed (by exact long) valid] at fits ⊢
                rw [if_pos (by simpa using valid)]
                exact refuseFrames_tracks after after.stage.1 (by decide)
                  (fits _ Receiver.mem_react)
            | true =>
                rw [Assembler.weigh_message (by exact long) valid] at fits ⊢
                rw [if_neg (by simpa [or_iff_not_imp_left] using valid)]
                obtain ⟨h', called, delivered⟩ :=
                  callMessageHandler_tracks calm after after.stage.1 whole grownHolds.2.2.2
                rw [called]
                exact ⟨_, rfl, (clearFragment_tracks delivered delivered.stage.1).1⟩

theorem handleFirst_tracks (calm : server.Calm) (tracks : Tracks i start maxQueuedBytes h m)
    (stage : m.stage = .reading pending) {frame : ServerFrame}
    (kind : frame.opcode = opcodeText ∨ frame.opcode = opcodeBinary)
    (within : frame.payload.length ≤ server.options.maxMessageSize)
    (fits : ∀ r ∈ (m.assembled ((messages server.options.maxMessageSize).take pending
      frame.part)).reactions, r.wireLength ≤ maxQueuedBytes) :
    ∃ h', h.handleDataFrame server i frame = (true, h') ∧
      Tracks i start maxQueuedBytes h'
        (m.assembled ((messages server.options.maxMessageSize).take pending frame.part)) := by
  have matched := tracks.stage
  rw [stage] at matched
  obtain ⟨ready, holds⟩ := matched
  have notContinuation : frame.opcode ≠ opcodeContinuation := by
    rcases kind with text | binary
    · rw [text]
      decide
    · rw [binary]
      decide
  have part : frame.part = .first frame.opcode frame.payload frame.final := by
    rw [ServerFrame.part, if_neg notContinuation]
  rw [part] at fits ⊢
  unfold handleDataFrame
  dsimp only
  rw [if_neg notContinuation]
  cases pending with
  | some pending =>
      rw [if_pos holds.1]
      exact refuseFrames_tracks tracks ready (by decide) (fits _ Receiver.mem_react)
  | none =>
      have short : ¬ (messages server.options.maxMessageSize).limit < frame.payload.length :=
        Nat.not_lt.mpr within
      rw [if_neg (by simp [holds.1])]
      rw [Assembler.take] at fits ⊢
      cases final : frame.final with
      | false =>
          rw [if_neg (by decide), Assembler.weigh_waiting short]
          refine ⟨_, rfl, tracks.move rfl rfl ?_⟩
          rw [conn_setConn]
          exact ⟨⟨ready.reading, ready.fd, ready.idle, ready.limit⟩, rfl, rfl, rfl, kind⟩
      | true =>
          rw [if_pos rfl]
          rw [final] at fits
          cases valid : decide (frame.opcode ≠ opcodeText) || isValidUtf8 frame.payload with
          | false =>
              rw [Assembler.weigh_malformed short valid] at fits ⊢
              rw [if_pos (by simpa using valid)]
              exact closeWithCode_tracks tracks ready (by decide) (fits _ Receiver.mem_react)
          | true =>
              rw [Assembler.weigh_message short valid]
              rw [if_neg (by simpa [or_iff_not_imp_left] using valid)]
              have delivered := callMessageHandler_tracks calm tracks ready frame.payload kind
              rw [stage] at delivered
              exact delivered

theorem dispatchFrame_tracks (calm : server.Calm) (tracks : Tracks i start maxQueuedBytes h m)
    (stage : m.stage = .reading pending) {frame : ServerFrame}
    (ok : Acceptable server.options.maxMessageSize frame)
    (fits : ∀ r ∈ (m.step server.options.maxMessageSize frame).reactions,
      r.wireLength ≤ maxQueuedBytes) :
    ∃ h', h.dispatchFrame server i frame = (true, h') ∧
      Tracks i start maxQueuedBytes h' (m.step server.options.maxMessageSize frame) := by
  have matched := tracks.stage
  rw [stage] at matched
  obtain ⟨ready, holds⟩ := matched
  have within : ¬ opcodeIsControl frame.opcode →
      frame.payload.length ≤ server.options.maxMessageSize := ok.data
  have short : opcodeIsControl frame.opcode → frame.payload.length ≤ 125 := fun control =>
    (ok.control control).2
  rw [Receiver.step, stage] at fits ⊢
  dsimp only at fits ⊢
  unfold dispatchFrame
  rcases valid_opcodes ok.opcode with continuation | text | binary | close | ping | pong
  · rw [if_pos (by rw [continuation]; decide)]
    rw [if_neg (by rw [continuation]; decide), if_neg (by rw [continuation]; decide),
      if_neg (by rw [continuation]; decide)] at fits ⊢
    exact handleContinuation_tracks calm tracks stage continuation fits
  · rw [if_pos (by rw [text]; decide)]
    rw [if_neg (by rw [text]; decide), if_neg (by rw [text]; decide),
      if_neg (by rw [text]; decide)] at fits ⊢
    exact handleFirst_tracks calm tracks stage (Or.inl text) (within (by rw [text]; decide)) fits
  · rw [if_pos (by rw [binary]; decide)]
    rw [if_neg (by rw [binary]; decide), if_neg (by rw [binary]; decide),
      if_neg (by rw [binary]; decide)] at fits ⊢
    exact handleFirst_tracks calm tracks stage (Or.inr binary) (within (by rw [binary]; decide)) fits
  · rw [if_neg (by rw [close]; decide), if_neg (by rw [close]; decide),
      if_neg (by rw [close]; decide), if_pos close]
    rw [if_neg (by rw [close]; decide), if_neg (by rw [close]; decide), if_pos close] at fits ⊢
    exact handleCloseFrame_tracks tracks ready (short (by rw [close]; decide))
      (fits _ Receiver.mem_react)
  · rw [if_neg (by rw [ping]; decide), if_pos ping]
    rw [if_pos ping] at fits ⊢
    obtain ⟨wire, sent, conn, sends, exception, trace⟩ := sendFrame_ready tracks.sends ready .pong
      (short (by rw [ping]; decide)) opcodePong (fits _ Receiver.mem_react)
    refine ⟨_, Prod.ext sent rfl, tracks.react trace (by simp [Event.reaction?]) sends exception ?_⟩
    rw [conn]
    exact ⟨ready.wire wire, holds.wire wire⟩
  · rw [if_neg (by rw [pong]; decide), if_neg (by rw [pong]; decide), if_pos pong]
    rw [if_neg (by rw [pong]; decide), if_pos pong]
    refine ⟨_, rfl, ?_⟩
    have after : Tracks i start maxQueuedBytes
        (h.setConn i { h.conn i with awaitingPong := false, lastPingUsec := 0 })
        { m with stage := .reading pending } := by
      refine tracks.move rfl rfl ?_
      rw [conn_setConn]
      exact ⟨⟨ready.reading, ready.fd, ready.idle, ready.limit⟩, by cases pending <;> exact holds⟩
    rw [← stage] at after
    exact after

/-- The server handles a frame as the receiver does. -/
theorem handleFrame_tracks (calm : server.Calm) (tracks : Tracks i start maxQueuedBytes h m)
    (stage : m.stage = .reading pending) {frame : ServerFrame}
    (ok : Acceptable server.options.maxMessageSize frame)
    (fits : ∀ r ∈ (m.step server.options.maxMessageSize frame).reactions,
      r.wireLength ≤ maxQueuedBytes) :
    ∃ h', h.handleFrame server i frame = (true, h') ∧
      Tracks i start maxQueuedBytes h' (m.step server.options.maxMessageSize frame) := by
  have seen : Tracks i start maxQueuedBytes
      { h with handled := h.handled ++ [⟨h.conn i, h.env, frame⟩] } m :=
    ⟨tracks.reactions, tracks.sends, tracks.quiet, tracks.stage⟩
  obtain ⟨h', dispatched, after⟩ := dispatchFrame_tracks calm seen stage ok fits
  have quiet : h'.env.exception = none := after.quiet
  refine ⟨h', ?_, after⟩
  rw [handleFrame, dispatched, quiet]
  rfl

end Hub

/-! ## The loop -/

/-- The loop over buffered frames keeps step with the receiver. -/
theorem frameConsumer_simulates {server : Server} (calm : server.Calm) (i : ConnId) (start : Trace)
    (maxQueuedBytes : Nat) :
    (frameConsumer server i).Simulates
      (@AcceptedFrame.octets server.options.maxMessageSize)
      (fun m accepted => m.step server.options.maxMessageSize accepted.frame)
      (fun m => m.stage = .closed) (fun m => ∀ r ∈ m.reactions, r.wireLength ≤ maxQueuedBytes)
      (Tracks i start maxQueuedBytes) (fun h => (true, h)) where
  takes {h m} accepted rest tracks going fair := by
    cases stage : m.stage with
    | closed => exact absurd stage going
    | reading pending =>
        have matched := tracks.stage
        rw [stage] at matched
        have acceptable := (clientFrame_of_parseFrame accepted.parsed).1
        obtain ⟨h', handled, after⟩ := Hub.handleFrame_tracks calm tracks stage acceptable fair
        refine ⟨h', ?_, after⟩
        change frameBite server i h (accepted.octets ++ rest) = _
        rw [frameBite, if_neg (not_not.mpr matched.1.reading), accepted.parsed_append]
        simp only [handled, if_true, accepted.whole]
  waits {h m} tracks going := by
    cases stage : m.stage with
    | closed => exact absurd stage going
    | reading pending =>
        have matched := tracks.stage
        rw [stage] at matched
        change frameBite server i h [] = _
        rw [frameBite, if_neg (not_not.mpr matched.1.reading)]
        rfl
  stops {h m} b tracks closed := by
    have matched := tracks.stage
    rw [closed] at matched
    have ended : ¬ (h.conn i).Reading := by
      simp [Connection.Reading, matched.1]
    change frameBite server i h b = _
    rw [frameBite, if_pos ended]
  still {m} accepted closed := m.step_closed closed _ _
  earlier {m} accepted fair r mem := fair r ((m.step_prefix _ _).subset mem)

/-- A connection that has just been upgraded, with a socket that takes everything. -/
structure World.Upgraded (w : World) (i : ConnId) : Prop where
  ready : (w.conn i).Ready (w.conn i).maxQueuedBytes
  whole : (w.conn i).Holds none
  buffer : w.buffer i = []
  sends : w.env.sends = []
  quiet : w.Quiet

/-- What the server has come to, from `before`, for the frames of a receiver. -/
structure Answered (i : ConnId) (before after : World) (receiver : Receiver) : Prop where
  reactions : ∃ more, after.trace = before.trace ++ more ∧
    more.filterMap (Event.reaction? i) = receiver.reactions
  stage : receiver.stage.Matches (before.conn i).maxQueuedBytes (after.conn i)
  buffer : receiver.stage ≠ .closed → after.buffer i = []

theorem World.land_answered {server : Server} (calm : server.Calm) {w : World} {i : ConnId}
    (upgraded : w.Upgraded i) (frames : List (AcceptedFrame server.options.maxMessageSize))
    (fits : ∀ r ∈ (Receiver.run frames).reactions, r.wireLength ≤ (w.conn i).maxQueuedBytes) :
    let done := w.land i
      ((frameConsumer server i).drain w.toHub (frames.flatMap AcceptedFrame.octets))
    done.1 = true ∧ Answered i w done.2 (Receiver.run frames) := by
  have start : Tracks i w.trace (w.conn i).maxQueuedBytes w.toHub {} :=
    ⟨⟨[], by simp, rfl⟩, upgraded.sends, upgraded.quiet, upgraded.ready, upgraded.whole⟩
  obtain ⟨h', tracks, ⟨going, drained⟩ | ⟨closed, left, drained⟩⟩ :=
    (frameConsumer_simulates calm i w.trace (w.conn i).maxQueuedBytes).drain frames start fits
  · rw [drained]
    exact ⟨rfl, tracks.reactions, tracks.stage, fun _ => buffer_setBuffer _ _ _⟩
  · rw [drained]
    exact ⟨rfl, tracks.reactions, tracks.stage, fun going => absurd closed going⟩

/-! ## Fragments in any state -/

/-- The fragment state is right, now and whenever a message was delivered. -/
def FragmentsOk (maxMessageSize : Nat) (life : Life) : Prop :=
  FragmentOk maxMessageSize life.conn ∧
    ∀ i type payload conn, .message i type payload conn ∈ life.log → FragmentOk maxMessageSize conn

namespace FragmentsOk

variable {maxMessageSize : Nat} {c c' : Connection} {log more : Trace}

theorem start : FragmentsOk maxMessageSize ⟨{}, []⟩ :=
  ⟨.cleared _ rfl rfl, fun _ _ _ _ mem => absurd mem List.not_mem_nil⟩

theorem silent (before : FragmentsOk maxMessageSize ⟨c, log⟩) (after : FragmentOk maxMessageSize c')
    (none : ∀ i type payload conn, .message i type payload conn ∉ more) :
    FragmentsOk maxMessageSize ⟨c', log ++ more⟩ :=
  ⟨after, fun i type payload conn mem =>
    before.2 i type payload conn ((List.mem_append.mp mem).resolve_right (none i type payload conn))⟩

end FragmentsOk

theorem Life.Step.fragments {server : Server} {i : ConnId} {quiet listed : Prop} {a b : Life}
    (step : Life.Step server i quiet listed a b)
    (before : FragmentsOk server.options.maxMessageSize a) :
    FragmentsOk server.options.maxMessageSize b := by
  cases step with
  | create => exact ⟨.cleared _ rfl rfl, before.2⟩
  | yield yields => exact ⟨yields.fragment before.1, before.2⟩
  | accepted | submit | parsed | ask | approve => exact before.silent before.1 (by simp)
  | reject | notify => exact before.silent (before.1.congr rfl rfl rfl) (by simp)
  | send _ _ _ yields => exact before.silent (yields.fragment before.1) (by simp)
  | bye _ _ _ _ _ yields => exact before.silent (yields.fragment before.1) (by simp)
  | @upgrade c log subprotocol left isOpen fresh parsed approved defer opened called =>
      rw [List.append_assoc]
      refine before.silent (before.1.congr rfl rfl rfl) ?_
      cases opened <;> simp
  | @deliver c log type payload noException reading =>
      refine ⟨before.1, fun j type' payload' conn mem => ?_⟩
      rcases List.mem_append.mp mem with old | new
      · exact before.2 _ _ _ _ old
      · cases List.mem_singleton.mp new
        exact before.1

/-- However a sequence of accepted frames is cut, the loop answers it as the receiver
    does: the messages it delivers, the frames it sends back, how it closes, and the
    message it leaves under way are the receiver's. And at any time of any run the
    fragment state of every connection is right. -/
theorem messages_reassembled (server : Server) :
    (server.Calm → ∀ (w : World) (i : ConnId), w.Upgraded i →
      ∀ (frames : List (AcceptedFrame server.options.maxMessageSize)) (pieces : List Bytes),
        pieces.flatten = frames.flatMap AcceptedFrame.octets →
        (∀ r ∈ (Receiver.run frames).reactions, r.wireLength ≤ (w.conn i).maxQueuedBytes) →
          (w.feed server i pieces).1 = true ∧
            Answered i w (w.feed server i pieces).2 (Receiver.run frames)) ∧
      ∀ env waits i,
        FragmentsOk server.options.maxMessageSize
          (((World.start env).runtimeRun server waits).world.toHub.life i) := by
  refine ⟨?_, ?_⟩
  · intro calm w i upgraded frames pieces same fits
    have whole := World.land_answered calm upgraded frames fits
    cases pieces with
    | nil =>
        have none : frames.flatMap AcceptedFrame.octets = [] := same.symm
        have waits : (frameConsumer server i).bite w.toHub [] = .wait := by
          change frameBite server i w.toHub [] = _
          rw [frameBite, if_neg (not_not.mpr upgraded.ready.reading)]
          rfl
        have rest : w.setBuffer i [] = w := by rw [← upgraded.buffer, World.setBuffer_buffer]
        rw [none, Lib.Consumer.drain_wait waits, World.land, rest] at whole
        exact whole
    | cons p rest =>
        obtain ⟨-, -, atOnce⟩ := feed_eq server i w p rest
        rw [upgraded.buffer, List.nil_append, same] at atOnce
        rw [atOnce whole.1]
        exact whole
  · intro env waits i
    exact run_invariant FragmentsOk.start (fun step before => step.fragments before) env waits

/-- A Text message in two fragments, a Ping between them, and a user who echoes. -/
theorem messages_reassembled_around_ping :
    let echo : ConnId → Bytes → MessageType → Script := fun i payload type =>
      .call (.send i payload (some type)) fun _ => .finish (.returned .null)
    let server : Server :=
      { options := .array fun _ => none
        handlers := fun _ => { onMessage := some echo }
        lib := sampleLib }
    let w : World := { conn := fun _ => { Connection.opened 7 with upgraded := true } }
    let frames : List (AcceptedFrame server.options.maxMessageSize) :=
      [⟨[0x01, 0x81, 0, 0, 0, 0, 0x61], ⟨opcodeText, false, 7, [0x61]⟩, by decide +kernel, rfl⟩,
        ⟨[0x89, 0x80, 1, 2, 3, 4], ⟨opcodePing, true, 6, []⟩, by decide +kernel, rfl⟩,
        ⟨[0x80, 0x81, 0, 0, 0, 0, 0x62], ⟨opcodeContinuation, true, 7, [0x62]⟩, by decide +kernel,
          rfl⟩]
    let pieces : List Bytes :=
      [[0x01, 0x81, 0, 0, 0, 0, 0x61, 0x89], [0x80, 1, 2, 3, 4, 0x80, 0x81, 0, 0, 0, 0, 0x62]]
    server.Calm ∧ w.Upgraded 0 ∧ pieces.flatten = frames.flatMap AcceptedFrame.octets ∧
      (w.feed server 0 pieces).1 = true ∧
      (w.feed server 0 pieces).2.trace.filterMap (Event.reaction? 0) =
        [.pong [], .deliver opcodeText (ascii "ab")] := by
  intro echo server w frames pieces
  have calm : server.Calm := fun _ => ⟨echo, rfl, fun i payload type =>
    .call (by simp) fun _ => .finish .null⟩
  have upgraded : w.Upgraded 0 :=
    ⟨⟨by decide, by decide, rfl, rfl⟩, ⟨rfl, rfl⟩, rfl, rfl, rfl⟩
  have same : pieces.flatten = frames.flatMap AcceptedFrame.octets := by decide +kernel
  have run : (Receiver.run frames).reactions = [.pong [], .deliver opcodeText (ascii "ab")] := by
    decide +kernel
  have fits : ∀ r ∈ (Receiver.run frames).reactions, r.wireLength ≤ (w.conn 0).maxQueuedBytes := by
    rw [run]
    decide
  obtain ⟨ok, answered⟩ :=
    (messages_reassembled server).1 calm w 0 upgraded frames pieces same fits
  obtain ⟨more, trace, reactions⟩ := answered.reactions
  refine ⟨calm, upgraded, same, ok, ?_⟩
  rw [trace, show w.trace = [] from rfl, List.nil_append, reactions, run]

end PhpWebSocket
