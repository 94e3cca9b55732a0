import PhpWebSocket.Runtime
import PhpWebSocket.WriteQueue

/-! # The life of one connection

What can happen to a connection object and to what is seen of it, one step at a
time, whoever takes the step: the reading loops, the timeouts, the driver's scans or
user code in any callback. A step says in which state it can be taken; the theorems
about whole runs are invariants of these steps.
-/

namespace PhpWebSocket

open Lib

/-- The connection an event belongs to. -/
def Event.about : Event → Option ConnId
  | .unavailable _ => none
  | .accepted i | .parsed i _ _ | .handshake i _ | .approved i | .response i _ _ | .upgraded i _
  | .opened i | .message i _ _ _ | .closed i | .submit i _ _ | .frame i _ _ _ => some i

/-- The events of one connection. -/
def Trace.of (trace : Trace) (i : ConnId) : Trace := trace.filter fun e => e.about = some i

/-- A connection and its events. -/
structure Life where
  conn : Connection
  log : Trace

/-- The fragment state of a connection: it is open exactly if there is a payload, its
    opcode is then that of a message, and it is within the limit. -/
structure FragmentOk (maxMessageSize : Nat) (conn : Connection) : Prop where
  present : conn.fragmented = true ↔ conn.fragmentedPayload ≠ none
  opcode : conn.fragmented = true →
    conn.fragmentedOpcode = opcodeText ∨ conn.fragmentedOpcode = opcodeBinary
  bounded : ∀ payload, conn.fragmentedPayload = some payload → payload.length ≤ maxMessageSize

/-- A change that gives nothing back: what is closed or closing stays so. Times,
    fragments, the write queue and the subprotocol may change with it. -/
structure Yields (maxMessageSize : Nat) (before after : Connection) : Prop where
  upgraded : after.upgraded = before.upgraded
  closeNotified : after.closeNotified = before.closeNotified
  maxQueuedBytes : after.maxQueuedBytes = before.maxQueuedBytes
  isOpen : after.isOpen = true → before.isOpen = true
  closing : after.isOpen = true → before.closeAfterWrite = true → after.closeAfterWrite = true
  fragment : FragmentOk maxMessageSize before → FragmentOk maxMessageSize after

/-- What `Connection::send` has checked of its arguments. -/
structure Submission (opcode : UInt8) (payload : Bytes) : Prop where
  type : opcode = opcodeText ∨ opcode = opcodeBinary ∨ opcode = opcodeClose ∨
    opcode = opcodePing ∨ opcode = opcodePong
  control : opcodeIsControl opcode → payload.length ≤ 125
  text : opcode = opcodeText → isValidUtf8 payload

/-- What is known of a frame when it is handed to `send_frame`, by its source; the
    Close frames of the server itself are a step of their own. -/
def Offered (i : ConnId) (log : Trace) (opcode : UInt8) (payload : Bytes) : FrameSource → Prop
  | .send => Submission opcode payload ∧ .submit i opcode payload ∈ log
  | .pong => opcode = opcodePong ∧ payload.length ≤ 125
  | .heartbeat => opcode = opcodePing ∧ payload = []
  | .close | .echo | .server => False

/-- One step of a connection's life. `quiet` says that no exception is pending, and
    `listed` that the connection is in the server's table. -/
inductive Life.Step (server : Server) (i : ConnId) (quiet listed : Prop) : Life → Life → Prop
  | create {fd time : Nat} (here : listed) :
      Step server i quiet listed ⟨{}, []⟩
        ⟨{ Connection.opened fd with
            acceptedAtUsec := time
            lastActivityUsec := time
            maxQueuedBytes := server.options.maxQueuedBytes }, []⟩
  | accepted {c log} : Step server i quiet listed ⟨c, log⟩ ⟨c, log ++ [.accepted i]⟩
  | yield {c c' log} (yields : Yields server.options.maxMessageSize c c') :
      Step server i quiet listed ⟨c, log⟩ ⟨c', log⟩
  | submit {c log opcode payload} (reading : c.Reading) (checked : Submission opcode payload) :
      Step server i quiet listed ⟨c, log⟩ ⟨c, log ++ [.submit i opcode payload]⟩
  | send {c c' log source payload opcode} (offered : Offered i log opcode payload source)
      (reading : c.Reading) (fits : (serverFrame payload opcode).length ≤ c.maxQueuedBytes)
      (yields : Yields server.options.maxMessageSize c c') :
      Step server i quiet listed ⟨c, log⟩ ⟨c', log ++ [.frame i source opcode payload]⟩
  /-- A Close frame of the server's own, with the close behind it. -/
  | bye {c c' log source payload} (own : source ≠ .send) (valid : ClosePayload payload)
      (short : payload.length ≤ 125) (reading : c.Reading)
      (fits : (serverFrame payload opcodeClose).length ≤ c.maxQueuedBytes)
      (yields : Yields server.options.maxMessageSize c c') (closing : ¬ c'.Reading) :
      Step server i quiet listed ⟨c, log⟩ ⟨c', log ++ [.frame i source opcodeClose payload]⟩
  | parsed {c log buffer upgrade} (isOpen : c.isOpen) (fresh : c.upgraded = false) :
      Step server i quiet listed ⟨c, log⟩ ⟨c, log ++ [.parsed i buffer upgrade]⟩
  | ask {c log request} (noException : quiet) (isOpen : c.isOpen) (fresh : c.upgraded = false)
      (parsed : ∃ buffer upgrade, .parsed i buffer upgrade ∈ log) (first : ∀ r, .handshake i r ∉ log) :
      Step server i quiet listed ⟨c, log⟩ ⟨c, log ++ [.handshake i request]⟩
  | approve {c log} (isOpen : c.isOpen) (fresh : c.upgraded = false)
      (parsed : ∃ buffer upgrade, .parsed i buffer upgrade ∈ log)
      (asked : (∀ t, (server.handlers t).onHandshake.isSome) → ∃ r, .handshake i r ∈ log) :
      Step server i quiet listed ⟨c, log⟩ ⟨c, log ++ [.approved i]⟩
  | reject {c log status complete} (isOpen : c.isOpen) (fresh : c.upgraded = false)
      (notUpgrade : status = 101 → complete = false) :
      Step server i quiet listed ⟨c, log⟩
        ⟨{ c with isOpen := false }, log ++ [.response i status complete]⟩
  | upgrade {c log subprotocol left} (isOpen : c.isOpen) (fresh : c.upgraded = false)
      (parsed : ∃ buffer upgrade, .parsed i buffer upgrade ∈ log) (approved : .approved i ∈ log)
      (defer opened : Bool) (called : (∀ t, (server.handlers t).onOpen.isSome) → opened = true) :
      Step server i quiet listed ⟨c, log⟩
        ⟨{ c with selectedSubprotocol := subprotocol, upgraded := true, deferClose := defer },
          log ++ [.response i 101 true, .upgraded i left] ++ if opened then [.opened i] else []⟩
  | deliver {c log type payload} (noException : quiet) (reading : c.Reading) :
      Step server i quiet listed ⟨c, log⟩ ⟨c, log ++ [.message i type payload c]⟩
  | notify {c log} (noException : quiet) (closed : c.isOpen = false) (upgraded : c.upgraded)
      (first : c.closeNotified = false) :
      Step server i quiet listed ⟨c, log⟩
        ⟨{ c with closeNotified := true }, log ++ [.closed i]⟩

theorem Life.Step.prefix_of {server : Server} {i : ConnId} {quiet listed : Prop} {a b : Life}
    (step : Life.Step server i quiet listed a b) : a.log <+: b.log := by
  cases step with
  | create | yield => exact List.prefix_rfl
  | upgrade =>
      rw [List.append_assoc]
      exact List.prefix_append _ _
  | accepted | submit | send | bye | parsed | ask | approve | reject | deliver | notify =>
      exact List.prefix_append _ _

/-- A step opens no connection but one that is in the table. -/
theorem Life.Step.opens {server : Server} {i : ConnId} {quiet listed : Prop} {a b : Life}
    (step : Life.Step server i quiet listed a b) (isOpen : b.conn.isOpen = true) :
    a.conn.isOpen = true ∨ listed := by
  cases step with
  | create here => exact Or.inr here
  | accepted | submit | parsed | ask | approve | deliver | notify => exact Or.inl isOpen
  | yield yields => exact Or.inl (yields.isOpen isOpen)
  | send _ _ _ yields => exact Or.inl (yields.isOpen isOpen)
  | bye _ _ _ _ _ yields => exact Or.inl (yields.isOpen isOpen)
  | reject => cases isOpen
  | upgrade wasOpen => exact Or.inl wasOpen

/-- A connection that waits for its upgrade was waiting before, or is new. -/
theorem Life.Step.backward {server : Server} {i : ConnId} {quiet listed : Prop} {a b : Life}
    (step : Life.Step server i quiet listed a b) (isOpen : b.conn.isOpen = true)
    (fresh : b.conn.upgraded = false) :
    (a.conn.isOpen = true ∧ a.conn.upgraded = false) ∨ b.log = [] := by
  cases step with
  | create => exact Or.inr rfl
  | accepted | submit | parsed | ask | approve | deliver => exact Or.inl ⟨isOpen, fresh⟩
  | yield yields => exact Or.inl ⟨yields.isOpen isOpen, yields.upgraded ▸ fresh⟩
  | send _ _ _ yields => exact Or.inl ⟨yields.isOpen isOpen, yields.upgraded ▸ fresh⟩
  | bye _ _ _ _ _ yields => exact Or.inl ⟨yields.isOpen isOpen, yields.upgraded ▸ fresh⟩
  | reject => cases isOpen
  | upgrade => cases fresh
  | notify => exact Or.inl ⟨isOpen, fresh⟩

/-! ## What the functions of a connection do to its life -/

theorem FragmentOk.cleared (maxMessageSize : Nat) {conn : Connection}
    (fragmented : conn.fragmented = false) (payload : conn.fragmentedPayload = none) :
    FragmentOk maxMessageSize conn :=
  ⟨by simp [fragmented, payload], by simp [fragmented], by simp [payload]⟩

theorem FragmentOk.congr {maxMessageSize : Nat} {a b : Connection} (ok : FragmentOk maxMessageSize a)
    (fragmented : b.fragmented = a.fragmented) (opcode : b.fragmentedOpcode = a.fragmentedOpcode)
    (payload : b.fragmentedPayload = a.fragmentedPayload) : FragmentOk maxMessageSize b := by
  obtain ⟨present, known, bounded⟩ := ok
  constructor
  · rw [fragmented, payload]
    exact present
  · rw [fragmented, opcode]
    exact known
  · rw [payload]
    exact bounded

namespace Yields

variable {maxMessageSize : Nat} {a b c : Connection}

theorem refl (a : Connection) : Yields maxMessageSize a a :=
  ⟨rfl, rfl, rfl, id, fun _ => id, id⟩

theorem trans (first : Yields maxMessageSize a b) (next : Yields maxMessageSize b c) :
    Yields maxMessageSize a c :=
  ⟨next.upgraded.trans first.upgraded, next.closeNotified.trans first.closeNotified,
    next.maxQueuedBytes.trans first.maxQueuedBytes, fun h => first.isOpen (next.isOpen h),
    fun h closing => next.closing h (first.closing (next.isOpen h) closing),
    fun h => next.fragment (first.fragment h)⟩

theorem shut (a : Connection) : Yields maxMessageSize a { a with isOpen := false } :=
  ⟨rfl, rfl, rfl, fun h => absurd h Bool.false_ne_true, fun h => absurd h Bool.false_ne_true,
    fun ok => ok.congr rfl rfl rfl⟩

theorem closeSocket (a : Connection) : Yields maxMessageSize a a.closeSocket :=
  ⟨rfl, rfl, rfl, fun h => absurd h Bool.false_ne_true, fun h => absurd h Bool.false_ne_true,
    fun _ => .cleared _ rfl rfl⟩

theorem clearFragment (a : Connection) : Yields maxMessageSize a a.clearFragment :=
  ⟨rfl, rfl, rfl, id, fun _ => id, fun _ => .cleared _ rfl rfl⟩

theorem marks (a : Connection) (lastActivityUsec lastPingUsec : Nat)
    (awaitingPong deferClose : Bool) :
    Yields maxMessageSize a { a with lastActivityUsec, lastPingUsec, awaitingPong, deferClose } :=
  ⟨rfl, rfl, rfl, id, fun _ => id, fun ok => ok.congr rfl rfl rfl⟩

theorem write (a : Connection) {isOpen : Bool} (closes : isOpen = true → a.isOpen = true)
    (writeQueue : List Bytes) (writeQueueOffset queuedBytes : Nat) (writeWatched : Bool)
    (wire : Bytes) :
    Yields maxMessageSize a
      { a with isOpen, writeQueue, writeQueueOffset, queuedBytes, writeWatched, wire } :=
  ⟨rfl, rfl, rfl, closes, fun _ => id, fun ok => ok.congr rfl rfl rfl⟩

end Yields

namespace Link

variable (maxMessageSize : Nat)

theorem queueFrame_yields (link : Link) (frame : Bytes) (offset : Nat) :
    Yields maxMessageSize link.conn (link.queueFrame frame offset).2.conn := by
  simp only [queueFrame]
  split
  · exact Yields.refl _
  · split
    · split <;> exact Yields.write link.conn id _ _ _ _ _
    · exact Yields.write link.conn id _ _ _ _ _

theorem settle_yields (result : Bool × Link) :
    Yields maxMessageSize result.2.conn (settle result).2.conn := by
  unfold settle
  split
  · exact Yields.shut _
  · exact Yields.refl _

theorem sendFrame_yields (link : Link) (payload : Bytes) (opcode : UInt8) :
    Yields maxMessageSize link.conn (link.sendFrame payload opcode).2.conn := by
  simp only [sendFrame, packPayload_server]
  split
  · exact Yields.refl _
  · split
    · exact Yields.refl _
    · split
      · exact (queueFrame_yields maxMessageSize link _ _).trans (settle_yields maxMessageSize _)
      · have sent : Yields maxMessageSize link.conn (link.wrote (serverFrame payload opcode) 0
            (writeSome link.env.sends link.env.errno (serverFrame payload opcode).length)).conn :=
          Yields.write link.conn id _ _ _ _ _
        split
        · exact (sent.trans (queueFrame_yields maxMessageSize _ _ _)).trans
            (settle_yields maxMessageSize _)
        · exact sent.trans (settle_yields maxMessageSize (_, _))

/-- A frame is accepted only on a connection that reads, and only if it fits. -/
theorem sendFrame_accepts {link : Link} {payload : Bytes} {opcode : UInt8}
    (sent : (link.sendFrame payload opcode).1 = true) :
    link.conn.Reading ∧ (serverFrame payload opcode).length ≤ link.conn.maxQueuedBytes := by
  simp only [sendFrame, packPayload_server] at sent
  split at sent
  · cases sent
  · rename_i reading
    split at sent
    · cases sent
    · rename_i fits
      simp only [Bool.or_eq_true, Bool.not_eq_true', not_or, Bool.not_eq_false,
        Bool.not_eq_true] at reading
      exact ⟨⟨reading.1.1.1, reading.1.1.2, reading.1.2⟩, Nat.le_of_not_lt fits⟩

theorem flushLoop_yields (queue : List Bytes) (link : Link) :
    Yields maxMessageSize link.conn (flushLoop queue link).2.conn := by
  induction queue generalizing link with
  | nil => exact Yields.refl _
  | cons frame rest ih =>
      simp only [flushLoop]
      split
      · exact Yields.write link.conn (fun h => absurd h Bool.false_ne_true) _ _ _ _ _
      · split
        · exact Yields.write link.conn id _ _ _ _ _
        · refine Yields.trans ?_ (ih _)
          exact Yields.write link.conn id _ _ _ _ _

theorem flush_yields (link : Link) : Yields maxMessageSize link.conn link.flush.2.conn := by
  have looped := flushLoop_yields maxMessageSize link.conn.writeQueue link
  simp only [flush]
  split
  · exact Yields.refl _
  · cases (flushLoop link.conn.writeQueue link).1 with
    | broken | blocked => exact looped
    | drained =>
        apply looped.trans
        dsimp only
        split <;> split
        · exact (Yields.write _ id _ _ _ false _).trans (Yields.closeSocket _)
        · exact Yields.write _ id _ _ _ false _
        · exact Yields.closeSocket _
        · exact Yields.refl _

theorem closeAfterWrite_yields (link : Link) :
    Yields maxMessageSize link.conn link.closeAfterWrite.conn := by
  unfold closeAfterWrite
  split
  · exact Yields.refl _
  · split
    · exact Yields.closeSocket _
    · exact ⟨rfl, rfl, rfl, id, fun _ _ => rfl, fun ok => ok.congr rfl rfl rfl⟩

end Link

end PhpWebSocket
