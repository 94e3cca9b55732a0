import PhpWebSocket.Lib.Question
import PhpWebSocket.Steady
import PhpWebSocket.TimeUnits

/-! # The heartbeat

A Ping is a question and the next Pong its answer. Whatever else happens to a connection,
its own frames and timeouts, user code in the callbacks of any connection, closes and the
service of others, the server asks again only when the client has answered, and gives up
only on a question that has waited long enough.
-/

namespace PhpWebSocket

open Lib

/-! ## What a check comes to -/

/-- A Ping is due on a connection that reads, waits for no Pong and has been silent. -/
structure PingDue (options : Options) (conn : Connection) (now : Nat) : Prop where
  reading : conn.Reading
  heard : conn.awaitingPong = false
  clock : 0 < now
  silent : conn.lastSeenUsec + options.pingIntervalUsec ≤ now

/-- A Pong is overdue if the Ping has waited for the whole timeout. -/
structure PongOverdue (options : Options) (conn : Connection) (now : Nat) : Prop where
  enabled : options.pingIntervalUsec ≠ 0
  reading : conn.Reading
  awaiting : conn.awaitingPong = true
  pinged : 0 < conn.lastPingUsec
  waited : conn.lastPingUsec + options.pongTimeoutUsec ≤ now

section

variable {server : Server} {h : Hub} {i : ConnId} {now : Nat}

theorem Hub.processHeartbeat_cases (server : Server) (h : Hub) (i : ConnId) (now : Nat) :
    h.processHeartbeat server i now = (true, h) ∨
      h.processHeartbeat server i now = h.heartbeatPing i now ∧
        PingDue server.options (h.conn i) now ∨
      h.processHeartbeat server i now = h.closeWithCode i closeNormal "pong timeout" ∧
        PongOverdue server.options (h.conn i) now := by
  rw [processHeartbeat]
  dsimp only
  split
  · exact .inl rfl
  · rename_i going
    simp only [Bool.or_eq_true, decide_eq_true_eq, Bool.not_eq_true', not_or,
      Bool.not_eq_false, Bool.not_eq_true] at going
    have reading : (h.conn i).Reading := ⟨going.1.1.2, going.2, going.1.2⟩
    split
    · rename_i awaiting
      split
      · rename_i late
        simp only [Bool.and_eq_true, decide_eq_true_eq] at late
        exact .inr (.inr ⟨rfl, going.1.1.1.1, reading, awaiting, late.1.1, by omega⟩)
      · exact .inl rfl
    · rename_i heard
      split
      · exact .inl rfl
      · rename_i silent
        simp only [Bool.or_eq_true, decide_eq_true_eq, not_or] at silent
        refine .inr (.inl ⟨rfl, reading, Bool.eq_false_iff.mpr heard, ?_, ?_⟩) <;> omega

theorem PongOverdue.closes (overdue : PongOverdue server.options (h.conn i) now) :
    h.processHeartbeat server i now = h.closeWithCode i closeNormal "pong timeout" := by
  obtain ⟨enabled, ⟨opened, lingering, upgraded⟩, awaiting, pinged, waited⟩ := overdue
  rw [Hub.processHeartbeat]
  dsimp only
  rw [if_neg, if_pos awaiting, if_pos]
  · simp only [Bool.and_eq_true, decide_eq_true_eq]
    omega
  · simp only [enabled, opened, lingering, upgraded, Bool.or_eq_true, decide_eq_true_eq,
      Bool.not_true, Bool.false_eq_true, decide_false, Bool.false_or, or_false]
    omega

/-! ## What a check writes -/

/-- What the frames of the server have said from one hub to the next. -/
def Hub.told (before after : Hub) : Trace := after.trace.drop before.trace.length

theorem Hub.told_of_trace {before after : Hub} {news : Trace}
    (trace : after.trace = before.trace ++ news) : before.told after = news := by
  rw [told, trace, List.drop_left]

/-- The server writes a Close frame with this reason. -/
def closeTold (i : ConnId) (reason : String) : Event :=
  .frame i .server opcodeClose ((closePayload closeNormal (ascii reason)).toOption.getD [])

theorem Hub.sendFrame_trace (h : Hub) (i : ConnId) (source : FrameSource) (payload : Bytes)
    (opcode : UInt8) : (h.sendFrame i source payload opcode).2.trace =
      h.trace ++ if (h.sendFrame i source payload opcode).1 then [.frame i source opcode payload]
        else [] := by
  unfold sendFrame
  generalize (h.link i).sendFrame payload opcode = sent
  obtain ⟨accepted, link⟩ := sent
  cases accepted with
  | true => rfl
  | false => exact (List.append_nil _).symm

theorem Hub.closeWithCode_told (h : Hub) (i : ConnId) (reason : String) :
    h.told (h.closeWithCode i closeNormal reason).2 = [] ∨
      h.told (h.closeWithCode i closeNormal reason).2 = [closeTold i reason] := by
  simp only [closeWithCode, sendCloseFrame]
  split
  · exact .inr (told_of_trace rfl)
  · exact .inl (told_of_trace (List.append_nil _).symm)

/-- The Ping is written and waited for, or the connection is closed without a word of a Pong. -/
theorem Hub.heartbeatPing_cases (h : Hub) (i : ConnId) (now : Nat) :
    (h.told (h.heartbeatPing i now).2 = [.frame i .heartbeat opcodePing []] ∧
        ((h.heartbeatPing i now).2.conn i).awaitingPong = true ∧
        ((h.heartbeatPing i now).2.conn i).lastPingUsec = now) ∨
      Calms h (h.heartbeatPing i now).2 ∧
        (h.told (h.heartbeatPing i now).2 = [] ∨
          h.told (h.heartbeatPing i now).2 = [closeTold i "heartbeat failed"]) := by
  have calms := h.sendFrame_calm i .heartbeat [] opcodePing
  have trace := h.sendFrame_trace i .heartbeat [] opcodePing
  generalize sent : h.sendFrame i .heartbeat [] opcodePing = result at calms trace
  rw [heartbeatPing, sent]
  dsimp only
  split
  · rename_i refused
    rw [Bool.not_eq_true'] at refused
    rw [refused, if_neg Bool.false_ne_true, List.append_nil] at trace
    refine .inr ⟨calms.trans (closeWithCode_calm _ i _ _), ?_⟩
    rw [told, ← trace]
    exact closeWithCode_told result.2 i "heartbeat failed"
  · rename_i accepted
    rw [Bool.not_eq_true', Bool.not_eq_false] at accepted
    rw [accepted, if_pos rfl] at trace
    exact .inl ⟨told_of_trace trace, by simp, by simp⟩

/-- A heartbeat Ping is written. -/
def Pings (i : ConnId) (before after : Hub) : Prop :=
  .frame i .heartbeat opcodePing [] ∈ before.told after

instance (i : ConnId) (before after : Hub) : Decidable (Pings i before after) :=
  inferInstanceAs (Decidable (_ ∈ _))

/-- The connection is closed for its Pong: the Close frame says so, or, where it cannot be
    written, a connection that waits for a Pong is closed without one. -/
def GivesUp (i : ConnId) (before after : Hub) : Prop :=
  closeTold i "pong timeout" ∈ before.told after ∨
    (before.conn i).awaitingPong = true ∧ (before.conn i).Live ∧ ¬ (after.conn i).Live

/-- A check that writes a Ping found it due, and waits for the Pong. -/
theorem Hub.processHeartbeat_pings (pings : Pings i h (h.processHeartbeat server i now).2) :
    PingDue server.options (h.conn i) now ∧
      ((h.processHeartbeat server i now).2.conn i).awaitingPong = true ∧
      ((h.processHeartbeat server i now).2.conn i).lastPingUsec = now := by
  unfold Pings at pings
  rcases h.processHeartbeat_cases server i now with rest | ⟨ping, due⟩ | ⟨close, -⟩
  · rw [rest, told, List.drop_length] at pings
    cases pings
  · rw [ping] at pings ⊢
    rcases h.heartbeatPing_cases i now with ⟨-, awaiting, pinged⟩ | ⟨-, nothing | told⟩
    · exact ⟨due, awaiting, pinged⟩
    · rw [nothing] at pings
      cases pings
    · rw [told, List.mem_singleton] at pings
      cases pings
  · rw [close] at pings
    rcases h.closeWithCode_told i "pong timeout" with nothing | told
    · rw [nothing] at pings
      cases pings
    · rw [told, List.mem_singleton] at pings
      cases pings

theorem Hub.processHeartbeat_rests (quiet : ¬ Pings i h (h.processHeartbeat server i now).2) :
    Calms h (h.processHeartbeat server i now).2 := by
  unfold Pings at quiet
  rcases h.processHeartbeat_cases server i now with rest | ⟨ping, -⟩ | ⟨close, -⟩
  · rw [rest]
    exact .refl h
  · rw [ping] at quiet ⊢
    rcases h.heartbeatPing_cases i now with ⟨told, -⟩ | ⟨calms, -⟩
    · rw [told, List.mem_singleton] at quiet
      exact absurd rfl quiet
    · exact calms
  · rw [close]
    exact h.closeWithCode_calm i _ _

theorem Hub.processHeartbeat_gives_up (given : GivesUp i h (h.processHeartbeat server i now).2) :
    PongOverdue server.options (h.conn i) now := by
  have other : closeTold i "pong timeout" ≠ closeTold i "heartbeat failed" := by
    rw [closeTold, closeTold]
    intro same
    injection same with _ _ _ payload
    exact absurd payload (by decide)
  unfold GivesUp at given
  rcases h.processHeartbeat_cases server i now with rest | ⟨ping, due⟩ | ⟨-, overdue⟩
  · rw [rest, told, List.drop_length] at given
    rcases given with told | ⟨-, live, closed⟩
    · cases told
    · exact absurd live closed
  · rw [ping] at given
    rcases given with told | ⟨awaiting, -⟩
    · rcases h.heartbeatPing_cases i now with ⟨news, -⟩ | ⟨-, nothing | news⟩
      · rw [news, List.mem_singleton] at told
        cases told
      · rw [nothing] at told
        cases told
      · rw [news, List.mem_singleton] at told
        exact absurd told other
    · exact absurd (due.heard.symm.trans awaiting) Bool.false_ne_true
  · exact overdue

/-- A check closes no connection that waits for no Pong, but one that cannot be asked. -/
theorem Hub.processHeartbeat_refused (live : (h.conn i).Live)
    (heard : (h.conn i).awaitingPong = false)
    (closed : ¬ ((h.processHeartbeat server i now).2.conn i).Live) :
    PingDue server.options (h.conn i) now ∧
      h.processHeartbeat server i now = h.heartbeatPing i now := by
  rcases h.processHeartbeat_cases server i now with rest | ⟨ping, due⟩ | ⟨-, overdue⟩
  · rw [rest] at closed
    exact absurd live closed
  · exact ⟨due, ping⟩
  · exact absurd (heard.symm.trans overdue.awaiting) Bool.false_ne_true

end

/-! ## What is remembered of a Ping -/

/-- The fields that the heartbeat writes. -/
def Connection.ping (conn : Connection) : Bool × Nat := (conn.awaitingPong, conn.lastPingUsec)

/-- A change that asks nothing and hears no answer. -/
structure Connection.Drifts (a b : Connection) : Prop where
  live : b.Live → a.Live
  ping : b.ping = a.ping ∨ ¬ b.Live ∧ b.ping = (false, 0)

namespace Connection

variable {a b c : Connection}

theorem Drifts.refl (a : Connection) : a.Drifts a := ⟨id, .inl rfl⟩

theorem Drifts.trans (first : a.Drifts b) (next : b.Drifts c) : a.Drifts c where
  live after := first.live (next.live after)
  ping := by
    rcases next.ping with same | forgotten
    · rcases first.ping with before | ⟨closed, forgot⟩
      · exact .inl (same.trans before)
      · exact .inr ⟨fun after => closed (next.live after), same.trans forgot⟩
    · exact .inr forgotten

theorem Drifts.forgotten (drifts : a.Drifts b) (before : a.ping = (false, 0)) :
    b.ping = (false, 0) := drifts.ping.elim (fun same => same.trans before) fun closed => closed.2

theorem closeSocket_ping (conn : Connection) :
    ¬ conn.closeSocket.Live ∧ conn.closeSocket.ping = (false, 0) := ⟨nofun, rfl⟩

end Connection

namespace Link

theorem queueFrame_ping (link : Link) (frame : Bytes) (offset : Nat) :
    (link.queueFrame frame offset).2.conn.ping = link.conn.ping := by
  simp only [queueFrame]
  split
  · rfl
  · split
    · split <;> rfl
    · rfl

theorem settle_ping (result : Bool × Link) : (settle result).2.conn.ping = result.2.conn.ping := by
  unfold settle
  split <;> rfl

theorem sendFrame_ping (link : Link) (payload : Bytes) (opcode : UInt8) :
    (link.sendFrame payload opcode).2.conn.ping = link.conn.ping := by
  simp only [sendFrame, packPayload_server]
  split
  · rfl
  · split
    · rfl
    · split
      · exact (settle_ping _).trans (queueFrame_ping _ _ _)
      · split
        · exact (settle_ping _).trans (queueFrame_ping _ _ _)
        · exact settle_ping _

theorem flushLoop_ping (queue : List Bytes) (link : Link) :
    (flushLoop queue link).2.conn.ping = link.conn.ping := by
  induction queue generalizing link with
  | nil => rfl
  | cons frame rest ih =>
      simp only [flushLoop]
      split
      · rfl
      · split
        · rfl
        · exact ih _

theorem flush_ping (link : Link) :
    link.flush.2.conn.ping = link.conn.ping ∨
      ¬ link.flush.2.conn.Live ∧ link.flush.2.conn.ping = (false, 0) := by
  have looped := flushLoop_ping link.conn.writeQueue link
  simp only [flush]
  split
  · exact .inl rfl
  · cases (flushLoop link.conn.writeQueue link).1 with
    | broken | blocked => exact .inl looped
    | drained =>
        dsimp only
        split <;> split
        · exact .inr (Connection.closeSocket_ping _)
        · exact .inl looped
        · exact .inr (Connection.closeSocket_ping _)
        · exact .inl looped

theorem closeAfterWrite_ping (link : Link) :
    link.closeAfterWrite.conn.ping = link.conn.ping ∨
      ¬ link.closeAfterWrite.conn.Live ∧ link.closeAfterWrite.conn.ping = (false, 0) := by
  unfold closeAfterWrite
  split
  · exact .inl rfl
  · split
    · exact .inr (Connection.closeSocket_ping _)
    · exact .inl rfl

end Link

/-- Nothing is asked or heard on any connection. -/
def Drift (h h' : Hub) : Prop := ∀ i, (h.conn i).Drifts (h'.conn i)

theorem Drift.refl (h : Hub) : Drift h h := fun _ => .refl _

theorem Drift.trans {h h' h'' : Hub} (first : Drift h h') (next : Drift h' h'') : Drift h h'' :=
  fun i => (first i).trans (next i)

theorem Hub.relink_drift {h : Hub} {i : ConnId} {link : Link} (keeps : (h.link i).Keeps link)
    (ping : link.conn.ping = (h.conn i).ping ∨ ¬ link.conn.Live ∧ link.conn.ping = (false, 0)) :
    Drift h (h.relink i link) := by
  intro j
  by_cases same : j = i
  · rw [same, conn_relink]
    exact ⟨keeps.conn.live, ping⟩
  · rw [show (h.relink i link).conn j = h.conn j from Function.update_of_ne same ..]
    exact .refl _

theorem Calm.drift {h h' : Hub} (calm : Calm h h') : Drift h h' := by
  cases calm with
  | mark i mark awaiting ping =>
      exact Hub.relink_drift (show (h.link i).Keeps ⟨_, h.env⟩ from
        ⟨Connection.keeps_mark mark, Env.Untouched.refl _⟩) (.inl (Prod.ext awaiting ping))
  | closeSocket =>
      exact Hub.relink_drift (Link.closeSocket_keeps _) (.inr (Connection.closeSocket_ping _))
  | closeAfterWrite =>
      exact Hub.relink_drift (Link.closeAfterWrite_keeps _) (Link.closeAfterWrite_ping _)
  | flush => exact Hub.relink_drift (Link.flush_keeps _) (Link.flush_ping _)
  | send =>
      exact Hub.relink_drift (Link.sendFrame_keeps _ _ _) (.inl (Link.sendFrame_ping _ _ _))
  | respond | emit | raise | seen | stop => exact Drift.refl _

theorem Calms.drift {h h' : Hub} (calms : Calms h h') : Drift h h' := by
  induction calms with
  | refl => exact Drift.refl _
  | tail _ calm ih => exact ih.trans calm.drift

/-! ## Runs -/

/-- A step as the heartbeat of one connection sees it. -/
inductive Pulse where
  /-- A check has led from one hub to the next. -/
  | check (nowUsec : Nat) (before after : Hub)
  | frame (received : ServerFrame)
  /-- Octets have arrived. -/
  | heard (nowUsec : Nat)
  /-- The object is opened for a client. -/
  | opened (nowUsec : Nat)
  | other

/-- What the server does to the connection `i`, as far as a heartbeat comes into it. -/
inductive Pulse.Own (server : Server) (i : ConnId) : Pulse → Hub → Hub → Prop
  | check {h : Hub} (nowUsec : Nat) :
      Own server i (.check nowUsec h (h.processHeartbeat server i nowUsec).2) h
        (h.processHeartbeat server i nowUsec).2
  | frame {h : Hub} (received : ServerFrame) :
      Own server i (.frame received) h (h.handleFrame server i received).2
  | heard {h : Hub} (nowUsec : Nat) :
      Own server i (.heard nowUsec) h
        (h.setConn i { h.conn i with lastActivityUsec := nowUsec })
  | opened {h : Hub} (fd nowUsec : Nat) :
      Own server i (.opened nowUsec) h (h.setConn i { Connection.opened fd with
        acceptedAtUsec := nowUsec
        lastActivityUsec := nowUsec
        maxQueuedBytes := server.options.maxQueuedBytes })
  | upgraded {h : Hub} (selectedSubprotocol : Option Bytes) :
      Own server i .other h
        (h.setConn i { h.conn i with selectedSubprotocol, upgraded := true })

/-- A step of the server: on the connection `i`, on another one, or an operation of user code
    and of the many ways to close a connection, or outside the connections. -/
inductive Pulse.Step (server : Server) (i : ConnId) : Pulse → Hub → Hub → Prop
  | own {pulse : Pulse} {h h' : Hub} (own : Own server i pulse h h') : Step server i pulse h h'
  | elsewhere {j : ConnId} {pulse : Pulse} {h h' : Hub} (other : j ≠ i)
      (own : Own server j pulse h h') : Step server i .other h h'
  | calm {h h' : Hub} (calm : Calm h h') : Step server i .other h h'
  | aside {h h' : Hub} (same : h'.conn = h.conn) : Step server i .other h h'

inductive Pulse.Run (server : Server) (i : ConnId) (h : Hub) : List Pulse → Hub → Prop
  | start : Run server i h [] h
  | step {log : List Pulse} {pulse : Pulse} {h' h'' : Hub} (run : Run server i h log h')
      (step : Step server i pulse h' h'') : Run server i h (log ++ [pulse]) h''

/-- The Ping asks, and a Pong that is handled answers. -/
def Pulse.question (i : ConnId) : Pulse → Question Nat
  | .check nowUsec before after => if Pings i before after then .asked nowUsec else .other
  | .frame received => if received.opcode = opcodePong then .answered else .other
  | .opened _ => .dropped
  | .heard _ | .other => .other

/-- The time of the Ping that waits for its Pong, as the steps tell it. -/
def outstanding (i : ConnId) (log : List Pulse) : Option Nat :=
  Question.unanswered (log.map (Pulse.question i))

theorem outstanding_concat (i : ConnId) (log : List Pulse) (pulse : Pulse) :
    outstanding i (log ++ [pulse]) = (pulse.question i).next (outstanding i log) := by
  rw [outstanding, List.map_append]
  exact Question.unanswered_concat _ _

/-- What the fields of a connection know of its Pings. -/
structure Beats (conn : Connection) (waiting : Option Nat) : Prop where
  marked : conn.awaitingPong = true ↔ 0 < conn.lastPingUsec
  asked : conn.awaitingPong = true → waiting = some conn.lastPingUsec
  held : ∀ time, waiting = some time → conn.awaitingPong = true ∨ ¬ conn.Live

namespace Beats

variable {a b : Connection} {waiting : Option Nat}

theorem drift (beats : Beats a waiting) (drifts : a.Drifts b) : Beats b waiting := by
  rcases drifts.ping with same | ⟨closed, forgotten⟩
  · have awaiting : b.awaitingPong = a.awaitingPong := congrArg Prod.fst same
    have ping : b.lastPingUsec = a.lastPingUsec := congrArg Prod.snd same
    refine ⟨?_, ?_, ?_⟩
    · rw [awaiting, ping]
      exact beats.marked
    · rw [awaiting, ping]
      exact beats.asked
    · intro time waits
      rw [awaiting]
      exact (beats.held time waits).imp_right fun closed live => closed (drifts.live live)
  · have awaiting : b.awaitingPong = false := congrArg Prod.fst forgotten
    have ping : b.lastPingUsec = 0 := congrArg Prod.snd forgotten
    refine ⟨?_, ?_, fun _ _ => .inr closed⟩
    · simp [awaiting, ping]
    · simp [awaiting]

theorem forgotten (beats : Beats a waiting) (heard : a.awaitingPong = false) :
    a.ping = (false, 0) := by
  have none : ¬ 0 < a.lastPingUsec := by
    rw [← beats.marked, heard]
    exact Bool.false_ne_true
  exact Prod.ext heard (Nat.eq_zero_of_not_pos none)

theorem free (beats : Beats a waiting) (live : a.Live) (heard : a.awaitingPong = false) :
    waiting = none := by
  cases waits : waiting with
  | none => rfl
  | some time =>
      rcases beats.held time waits with awaiting | closed
      · rw [heard] at awaiting
        cases awaiting
      · exact absurd live closed

theorem pinged {conn : Connection} {now : Nat} (positive : 0 < now)
    (awaiting : conn.awaitingPong = true) (ping : conn.lastPingUsec = now) :
    Beats conn (some now) :=
  ⟨by simp [awaiting, ping, positive], fun _ => congrArg some ping.symm, fun _ _ => .inl awaiting⟩

theorem quiet {conn : Connection} (forgotten : conn.ping = (false, 0)) : Beats conn none := by
  have awaiting : conn.awaitingPong = false := congrArg Prod.fst forgotten
  have ping : conn.lastPingUsec = 0 := congrArg Prod.snd forgotten
  exact ⟨by simp [awaiting, ping], by simp [awaiting], nofun⟩

end Beats

section

variable {server : Server} {i : ConnId} {pulse : Pulse} {h h' : Hub} {log : List Pulse}

theorem Pulse.Own.elsewhere {j : ConnId} (own : Own server j pulse h h') (other : j ≠ i) :
    (h.conn i).Drifts (h'.conn i) := by
  have aside (h : Hub) (conn : Connection) : (h.conn i).Drifts ((h.setConn j conn).conn i) := by
    rw [show (h.setConn j conn).conn i = h.conn i from Function.update_of_ne other.symm ..]
    exact .refl _
  cases own with
  | check now =>
      rcases h.processHeartbeat_calm server j now with calms | ⟨sent, calms, -, -, marked⟩
      · exact calms.drift i
      · rw [marked]
        exact (calms.drift i).trans (aside _ _)
  | frame received =>
      rcases h.handleFrame_cases server j received with ⟨-, calms⟩ | ⟨-, seen, calms, heard⟩
      · exact calms.drift i
      · rw [heard]
        exact (calms.drift i).trans (aside _ _)
  | heard | opened | upgraded => exact aside _ _

theorem Pulse.Own.beats (own : Own server i pulse h h')
    (beats : Beats (h.conn i) (outstanding i log)) :
    Beats (h'.conn i) (outstanding i (log ++ [pulse])) := by
  rw [outstanding_concat]
  cases own with
  | check now =>
      rw [question]
      by_cases pings : Pings i h (h.processHeartbeat server i now).2
      · obtain ⟨due, awaiting, ping⟩ := Hub.processHeartbeat_pings pings
        rw [if_pos pings]
        exact Beats.pinged due.clock awaiting ping
      · rw [if_neg pings]
        exact beats.drift ((Hub.processHeartbeat_rests pings).drift i)
  | frame received =>
      rw [question]
      rcases h.handleFrame_cases server i received with ⟨other, calms⟩ | ⟨pong, seen, calms, heard⟩
      · rw [if_neg other]
        exact beats.drift (calms.drift i)
      · rw [if_pos pong, heard, Hub.conn_setConn]
        exact Beats.quiet rfl
  | heard now =>
      rw [Hub.conn_setConn]
      exact beats.drift ⟨id, .inl rfl⟩
  | opened fd now =>
      rw [Hub.conn_setConn]
      exact Beats.quiet rfl
  | upgraded selectedSubprotocol =>
      rw [Hub.conn_setConn]
      exact beats.drift ⟨id, .inl rfl⟩

theorem Pulse.Step.beats (step : Step server i pulse h h')
    (beats : Beats (h.conn i) (outstanding i log)) :
    Beats (h'.conn i) (outstanding i (log ++ [pulse])) := by
  have drifted (drifts : (h.conn i).Drifts (h'.conn i)) :
      Beats (h'.conn i) (outstanding i (log ++ [.other])) := by
    rw [outstanding_concat]
    exact beats.drift drifts
  cases step with
  | own own => exact own.beats beats
  | elsewhere other own => exact drifted (own.elsewhere other)
  | calm calm => exact drifted (calm.drift i)
  | aside same =>
      apply drifted
      rw [same]
      exact .refl _

theorem Pulse.Run.beats (start : (h.conn i).ping = (false, 0)) (run : Run server i h log h') :
    Beats (h'.conn i) (outstanding i log) := by
  induction run with
  | start => exact Beats.quiet start
  | step _ step ih => exact step.beats ih

theorem Pulse.Run.reach {first rest : List Pulse} (run : Run server i h (first ++ pulse :: rest) h') :
    ∃ before after, Run server i h first before ∧ Step server i pulse before after := by
  generalize whole : first ++ pulse :: rest = log at run
  induction run generalizing rest with
  | start => simp at whole
  | step run step ih =>
      rcases List.eq_nil_or_concat rest with rfl | ⟨rest, last, rfl⟩
      · obtain ⟨rfl, same⟩ := List.append_inj' whole rfl
        cases same
        exact ⟨_, _, run, step⟩
      · rw [List.concat_eq_append, ← List.cons_append, ← List.append_assoc] at whole
        exact ih (List.append_inj' whole rfl).1

/-- The hubs of a check are the ones that the function has led through. -/
theorem Pulse.Step.checked {now : Nat} {before after : Hub}
    (step : Step server i (.check now before after) h h') :
    before = h ∧ after = (before.processHeartbeat server i now).2 := by
  generalize check : Pulse.check now before after = pulse at step
  cases step with
  | own own =>
      cases own with
      | check _ =>
          cases check
          exact ⟨rfl, rfl⟩
      | frame | heard | opened | upgraded => cases check
  | elsewhere | calm | aside => cases check

/-- Only a Pong that is handled answers. -/
theorem Pulse.question_answered : pulse.question i = .answered ↔
    ∃ received, pulse = .frame received ∧ received.opcode = opcodePong := by
  cases pulse with
  | check now before after =>
      by_cases pings : Pings i before after <;> simp [question, pings]
  | frame received =>
      by_cases pong : received.opcode = opcodePong <;> simp [question, pong]
  | heard | opened | other => simp [question]

theorem Pulse.question_dropped : pulse.question i = .dropped ↔ ∃ time, pulse = .opened time := by
  cases pulse with
  | check now before after =>
      by_cases pings : Pings i before after <;> simp [question, pings]
  | frame received =>
      by_cases pong : received.opcode = opcodePong <;> simp [question, pong]
  | heard | opened | other => simp [question]

theorem Pulse.question_asked {now : Nat} : pulse.question i = .asked now ↔
    ∃ before after, pulse = .check now before after ∧ Pings i before after := by
  cases pulse with
  | check time before after =>
      by_cases pings : Pings i before after
      · simp [question, pings]
      · simp only [question, pings, if_false, reduceCtorEq, false_iff]
        rintro ⟨_, _, same, asked⟩
        injection same with _ first second
        exact pings (first ▸ second ▸ asked)
  | frame received =>
      by_cases pong : received.opcode = opcodePong <;> simp [question, pong]
  | heard | opened | other => simp [question]

end

/-- What the options say, before it is counted in microseconds. -/
def Options.pingIntervalMs (options : Options) : Nat :=
  options.nonnegativeOption "pingIntervalMs" ServerOptions.pingIntervalMs defaultPingIntervalMs

def Options.pongTimeoutMs (options : Options) : Nat :=
  options.positiveOption "pongTimeoutMs" ServerOptions.pongTimeoutMs defaultPongTimeoutMs

/-- A Pong of the client has been handled. -/
def Ponged (log : List Pulse) : Prop :=
  ∃ received, .frame received ∈ log ∧ received.opcode = opcodePong

/-- The object has been opened for another client. -/
def Reopened (log : List Pulse) : Prop := ∃ time, .opened time ∈ log

/-- The heartbeat of the connection `i`, after the steps of `log`. -/
structure Disciplined (server : Server) (i : ConnId) (log : List Pulse) (h : Hub) : Prop where
  marked : (h.conn i).awaitingPong = true ↔ 0 < (h.conn i).lastPingUsec
  /-- Between two Pings to a client there is a Pong. -/
  answered : ∀ first between rest earlier later a b c d,
    log = first ++ .check earlier a b :: between ++ .check later c d :: rest →
      Pings i a b → Pings i c d → Ponged between ∨ Reopened between
  /-- A Ping is written to a silent connection that reads. -/
  due : ∀ now before after, .check now before after ∈ log → Pings i before after →
    (before.conn i).Reading ∧
      (before.conn i).lastSeenUsec + server.options.pingIntervalMs * 1000 ≤ now
  /-- The server gives up on a Ping that has had its time, with no Pong since. -/
  late : ∀ first rest now before after, log = first ++ .check now before after :: rest →
    GivesUp i before after →
      ∃ past sent a b since, first = past ++ .check sent a b :: since ∧ Pings i a b ∧
        sent + server.options.pongTimeoutMs * 1000 ≤ now ∧ ¬ Ponged since ∧ ¬ Reopened since ∧
        after = (before.closeWithCode i closeNormal "pong timeout").2
  /-- No other check closes a connection, but where the Ping that is due cannot be written. -/
  refused : ∀ now before after, .check now before after ∈ log → (before.conn i).Live →
    (before.conn i).awaitingPong = false → ¬ (after.conn i).Live →
      (before.conn i).lastSeenUsec + server.options.pingIntervalMs * 1000 ≤ now ∧
        after = (before.heartbeatPing i now).2

section

variable {server : Server} {i : ConnId} {h h' : Hub} {log : List Pulse}

theorem ponged_iff : Question.answered ∈ log.map (Pulse.question i) ↔ Ponged log := by
  simp only [List.mem_map, Pulse.question_answered, Ponged]
  constructor
  · rintro ⟨_, mem, received, rfl, pong⟩
    exact ⟨received, mem, pong⟩
  · rintro ⟨received, mem, pong⟩
    exact ⟨_, mem, received, rfl, pong⟩

theorem reopened_iff : Question.dropped ∈ log.map (Pulse.question i) ↔ Reopened log := by
  simp only [List.mem_map, Pulse.question_dropped, Reopened]
  constructor
  · rintro ⟨_, mem, time, rfl⟩
    exact ⟨time, mem⟩
  · rintro ⟨time, mem⟩
    exact ⟨_, mem, time, rfl⟩

/-- The Ping that waits is in the log, with no Pong behind it. -/
theorem outstanding_sent {sent : Nat} (waits : outstanding i log = some sent) :
    ∃ past a b since, log = past ++ .check sent a b :: since ∧ Pings i a b ∧ ¬ Ponged since ∧
      ¬ Reopened since := by
  obtain ⟨asked, after, whole, unheard, kept⟩ := Question.of_unanswered waits
  obtain ⟨past, tail, rfl, rfl, tailed⟩ := List.map_eq_append_iff.mp whole
  obtain ⟨ping, since, rfl, asks, rfl⟩ := List.map_eq_cons_iff.mp tailed
  obtain ⟨a, b, rfl, pings⟩ := Pulse.question_asked.mp asks
  exact ⟨past, a, b, since, rfl, pings, mt ponged_iff.mpr unheard, mt reopened_iff.mpr kept⟩

theorem outstanding_none {first between : List Pulse} {sent : Nat} {a b : Hub} (pings : Pings i a b)
    (settled : outstanding i (first ++ .check sent a b :: between) = none) :
    Ponged between ∨ Reopened between := by
  rw [outstanding, List.map_append, List.map_cons,
    Pulse.question_asked.mpr ⟨a, b, rfl, pings⟩] at settled
  exact (Question.settled_of_unanswered settled).imp ponged_iff.mp reopened_iff.mp

/-- Whatever the clock shows, and however the steps of all connections mix, the heartbeat keeps
    its rules from the creation of the connection on. -/
theorem heartbeat_disciplined (interval : server.options.pingIntervalMs * 1000 < 2 ^ 64)
    (timeout : server.options.pongTimeoutMs * 1000 < 2 ^ 64) (created : h.conn i = {})
    (run : Pulse.Run server i h log h') : Disciplined server i log h' := by
  have fresh : (h.conn i).ping = (false, 0) := by
    rw [created]
    rfl
  have intervalUsec : server.options.pingIntervalUsec = server.options.pingIntervalMs * 1000 :=
    Nat.mod_eq_of_lt interval
  have timeoutUsec : server.options.pongTimeoutUsec = server.options.pongTimeoutMs * 1000 :=
    Nat.mod_eq_of_lt timeout
  have checked {now : Nat} {before after : Hub} (member : .check now before after ∈ log) :
      after = (before.processHeartbeat server i now).2 := by
    obtain ⟨first, rest, rfl⟩ := List.append_of_mem member
    obtain ⟨_, _, -, step⟩ := run.reach
    exact step.checked.2
  refine ⟨(run.beats fresh).marked, ?_, ?_, ?_, ?_⟩
  · rintro first between rest earlier later a b c d rfl asked pings
    obtain ⟨_, _, reached, step⟩ := run.reach
    obtain ⟨rfl, rfl⟩ := step.checked
    obtain ⟨due, -⟩ := Hub.processHeartbeat_pings pings
    exact outstanding_none asked ((reached.beats fresh).free due.reading.live due.heard)
  · rintro now before after member pings
    rw [checked member] at pings
    obtain ⟨due, -⟩ := Hub.processHeartbeat_pings pings
    exact ⟨due.reading, intervalUsec ▸ due.silent⟩
  · rintro first rest now before after rfl given
    obtain ⟨_, _, reached, step⟩ := run.reach
    obtain ⟨rfl, rfl⟩ := step.checked
    have overdue := Hub.processHeartbeat_gives_up given
    obtain ⟨past, a, b, since, whole, pings, unheard, kept⟩ :=
      outstanding_sent ((reached.beats fresh).asked overdue.awaiting)
    refine ⟨past, _, a, b, since, whole, pings, timeoutUsec ▸ overdue.waited, unheard, kept, ?_⟩
    rw [overdue.closes]
  · rintro now before after member live heard closed
    rw [checked member] at closed ⊢
    obtain ⟨due, ping⟩ := Hub.processHeartbeat_refused live heard closed
    exact ⟨intervalUsec ▸ due.silent, congrArg Prod.snd ping⟩

end

theorem heartbeat_disciplined_answered :
    let o : ServerOptions :=
      { maxMessageSize := 1, maxQueuedBytes := 64, maxConnections := 1
        handshakeTimeoutMs := 1, idleTimeoutMs := 60000, pingIntervalMs := 20000
        pongTimeoutMs := 10000
        maxMessageSize_pos := by decide, maxQueuedBytes_pos := by decide
        maxConnections_pos := by decide, handshakeTimeoutMs_pos := by decide
        idleTimeoutMs_pos := by decide, pingIntervalMs_nonneg := by decide
        pongTimeoutMs_pos := by decide }
    let server : Server := { options := .object o, lib := sampleLib }
    let pong : ServerFrame := ⟨opcodePong, true, 6, []⟩
    ∃ a b c d e f, Pings 0 a b ∧ Pings 0 c d ∧ GivesUp 0 e f ∧
      Disciplined server 0
        [.opened 1, .other, .check 20000001 a b, .frame pong, .check 40000002 c d,
          .check 50000002 e f] f := by
  intro o server pong
  have step {pulse : Pulse} {log : List Pulse} {h h' : Hub} (run : Pulse.Run server 0 {} log h)
      (own : Pulse.Own server 0 pulse h h') := run.step (.own own)
  have upgraded := step (step .start (.opened 7 1)) (.upgraded none)
  have pinged := step upgraded (.check 20000001)
  have again := step (step pinged (.frame pong)) (.check 40000002)
  have run := step again (.check 50000002)
  refine ⟨_, _, _, _, _, _, ?_, ?_, .inl ?_,
    heartbeat_disciplined (by decide +kernel) (by decide +kernel) rfl run⟩
  all_goals decide +kernel

end PhpWebSocket
