import PhpWebSocket.Heartbeat
import PhpWebSocket.Readiness

/-! # Timeouts and the socket

The timeouts are compared with what the server has processed, and both scans check them before
they read. A check that finds a timeout over is right about its peer if the socket has nothing
for it: then all that has arrived has been read in time, and no Pong has come since the Ping.
With octets in the socket the check looks past them.
-/

namespace PhpWebSocket

open Lib Relation Kernel

/-! ## What a check decides -/

inductive Timeout where
  | idle | pong
  deriving Repr, DecidableEq

/-- The check that `process_connection_fd` or `process_connections` makes of a connection before
    it reads, and the clock that it compares with. -/
inductive Checks : Site → Label → ConnId → Nat → Prop
  | served {w : World} {k mid : Kernel} {fd nowUsec : Nat} {i : ConnId} {used : List RecvResult} :
      Checks ⟨w, k, .serving fd nowUsec⟩ (.served i used mid) i nowUsec
  | checked {w : World} {k mid : Kernel} {nowUsec : Nat} {i : ConnId} {rest : List ConnId}
      {used : List RecvResult} :
      Checks ⟨w, k, .scanning nowUsec rest⟩ (.checked i used mid) i nowUsec

/-- A timeout is over for an upgraded connection. -/
def Over (options : Options) (conn : Connection) (now : Nat) : Timeout → Prop
  | .idle => connectionExpired options conn now = true
  | .pong => connectionExpired options conn now = false ∧ PongOverdue options conn now

/-- What waits to be written is written as far as the socket takes it. -/
def Hub.flushPending (h : Hub) (i : ConnId) : Hub :=
  if (h.conn i).hasPendingWrites then (h.flush i).2 else h

/-- Where the idle timeout is not over, the check is the heartbeat and a flush. -/
def Attends (server : Server) (w : World) (i : ConnId) (now : Nat) : Prop :=
  connectionExpired server.options (w.conn i) now = false ∧
    (w.attend server i now).2 =
      { w with toHub := (w.processHeartbeat server i now).2.flushPending i }

/-- The check closes the connection for a timeout. -/
def Closes (server : Server) (w : World) (i : ConnId) (now : Nat) : Timeout → Prop
  | .idle => connectionExpired server.options (w.conn i) now = true ∧
      w.attend server i now =
        (.finished, { w with toHub := (w.closeWithCode i closeNormal "idle timeout").2 })
  | .pong => Attends server w i now ∧ (w.conn i).awaitingPong = true ∧
      w.processHeartbeat server i now = w.closeWithCode i closeNormal "pong timeout"

/-- The check closes the connection for no timeout: nothing is done, or a Ping is sent. -/
def Spares (server : Server) (w : World) (i : ConnId) (now : Nat) : Prop :=
  Attends server w i now ∧
    (w.processHeartbeat server i now = (true, w.toHub) ∨
      (w.conn i).awaitingPong = false ∧
        w.processHeartbeat server i now = w.heartbeatPing i now)

section

variable {server : Server} {w : World} {i : ConnId} {now : Nat}

theorem World.attend_idle (upgraded : (w.conn i).upgraded = true)
    (ended : Over server.options (w.conn i) now .idle) : Closes server w i now .idle := by
  rw [Over] at ended
  refine ⟨ended, ?_⟩
  rw [attend, if_pos ended, Hub.closeExpiredConnection, if_pos upgraded]

theorem Hub.processHeartbeat_goes_on (server : Server) (h : Hub) (i : ConnId) (now : Nat) :
    (h.processHeartbeat server i now).1 = true := by
  rcases h.processHeartbeat_cases server i now with rest | ⟨ping, -⟩ | ⟨close, -⟩
  · rw [rest]
  · rw [ping, heartbeatPing]
    dsimp only
    split <;> rfl
  · rw [close]
    rfl

theorem World.attend_attends (early : connectionExpired server.options (w.conn i) now = false) :
    Attends server w i now := by
  have going := w.processHeartbeat_goes_on server i now
  refine ⟨early, ?_⟩
  rw [attend, if_neg (Bool.eq_false_iff.mp early)]
  generalize w.processHeartbeat server i now = beat at going
  dsimp only
  rw [going, Bool.not_true, if_neg Bool.false_ne_true, apply_ite Prod.snd, ite_self,
    apply_ite Prod.snd, Hub.flushPending]

theorem World.attend_pong (ended : Over server.options (w.conn i) now .pong) :
    Closes server w i now .pong := ⟨attend_attends ended.1, ended.2.awaiting, ended.2.closes⟩

theorem World.attend_neither (neither : ∀ timeout, ¬ Over server.options (w.conn i) now timeout) :
    Spares server w i now := by
  have early : connectionExpired server.options (w.conn i) now = false :=
    Bool.eq_false_iff.mpr (neither .idle)
  refine ⟨attend_attends early, ?_⟩
  rcases w.processHeartbeat_cases server i now with rest | ⟨ping, due⟩ | ⟨-, overdue⟩
  · exact .inl rest
  · exact .inr ⟨due.heard, ping⟩
  · exact absurd ⟨early, overdue⟩ (neither .pong)

theorem Spares.not_over (spares : Spares server w i now) (timeout : Timeout) :
    ¬ Over server.options (w.conn i) now timeout := by
  obtain ⟨⟨early, -⟩, beat⟩ := spares
  cases timeout with
  | idle =>
      intro expired
      exact Bool.false_ne_true (early.symm.trans expired)
  | pong =>
      rintro ⟨-, overdue⟩
      rcases beat with rest | ⟨heard, -⟩
      · have closed := w.closeWithCode_not_live overdue.reading.2.2 closeNormal "pong timeout"
        rw [← overdue.closes, rest] at closed
        exact closed overdue.reading.live
      · exact Bool.false_ne_true (heard.symm.trans overdue.awaiting)

/-- A check spares an upgraded connection or closes it for a timeout, and the closes are just if
    and only if what makes them so holds wherever a timeout is over. -/
theorem World.check_iff (upgraded : (w.conn i).upgraded = true) (just : Timeout → Prop) :
    (Spares server w i now ∨ ∃ timeout, Closes server w i now timeout ∧ just timeout) ↔
      ∀ timeout, Over server.options (w.conn i) now timeout → just timeout := by
  constructor
  · rintro (spares | ⟨timeout, closes, reason⟩) other ended
    · exact absurd ended (spares.not_over other)
    · cases timeout with
      | idle =>
          cases other with
          | idle => exact reason
          | pong => exact absurd (ended.1.symm.trans closes.1) Bool.false_ne_true
      | pong =>
          cases other with
          | idle => exact absurd (closes.1.1.symm.trans ended) Bool.false_ne_true
          | pong => exact reason
  · intro all
    by_cases idle : Over server.options (w.conn i) now .idle
    · exact .inr ⟨.idle, attend_idle upgraded idle, all _ idle⟩
    · by_cases pong : Over server.options (w.conn i) now .pong
      · exact .inr ⟨.pong, attend_pong pong, all _ pong⟩
      · apply Or.inl
        apply attend_neither
        intro timeout
        cases timeout with
        | idle => exact idle
        | pong => exact pong

end

/-! ## What a peer has sent -/

def octetsAt (arrivals : List Arrival) : Bytes := arrivals.map Arrival.octet

theorem octetsAt_append (a b : List Arrival) : octetsAt (a ++ b) = octetsAt a ++ octetsAt b :=
  List.map_append

theorem length_octetsAt (a : List Arrival) : (octetsAt a).length = a.length := List.length_map _

/-- What arrives begins with a request and whole frames. -/
structure Begins (maxMessageSize : Nat) (octets head : Bytes)
    (frames : List (AcceptedFrame maxMessageSize)) (rest : Bytes) : Prop where
  ends : findHeaderEnd head = some (head.length - 4)
  stream : octets = head ++ frames.flatMap AcceptedFrame.octets ++ rest

/-- Two readings of one stream begin with the same request; the frames of one are the first of
    the other, up to an unfinished one. -/
theorem Begins.front {maxMessageSize : Nat} {octets head other b c : Bytes}
    {frames others : List (AcceptedFrame maxMessageSize)}
    (begins : Begins maxMessageSize octets head frames c)
    (again : Begins maxMessageSize octets other others b)
    (part : parseFrame c maxMessageSize = .incomplete) : other = head ∧ others <+: frames := by
  have stream := begins.stream
  have same := again.stream
  rw [List.append_assoc] at stream same
  have found := findHeaderEnd_append begins.ends (frames.flatMap AcceptedFrame.octets ++ c)
  rw [← stream, same, findHeaderEnd_append again.ends] at found
  have ends := Option.some.inj found
  have long := findHeaderEnd_le begins.ends
  have long' := findHeaderEnd_le again.ends
  obtain ⟨rfl, behind⟩ := List.append_inj (same.symm.trans stream) (by omega)
  exact ⟨rfl, AcceptedFrame.prefix_of_flatMap behind part⟩

/-- The last octet of a Pong has reached the socket at `time`, behind the first `read` ones. -/
def PongReached (maxMessageSize read : Nat) (arrived : List Arrival) (time : Nat) : Prop :=
  ∃ head front, ∃ pong : AcceptedFrame maxMessageSize, ∃ rest last,
    Begins maxMessageSize (octetsAt arrived) head (front ++ [pong]) rest ∧
      pong.frame.opcode = opcodePong ∧
      arrived[(head ++ (front ++ [pong]).flatMap AcceptedFrame.octets).length - 1]? = some last ∧
      last.time = time ∧
      read ≤ (head ++ (front ++ [pong]).flatMap AcceptedFrame.octets).length - 1

/-- A Pong is among the octets that have been read, or behind them. -/
theorem PongReached.split {maxMessageSize time : Nat} {taken waiting : List Arrival}
    (reached : PongReached maxMessageSize 0 (taken ++ waiting) time) :
    PongReached maxMessageSize 0 taken time ∨
      PongReached maxMessageSize taken.length (taken ++ waiting) time := by
  obtain ⟨head, front, pong, rest, last, begins, isPong, atLast, same, -⟩ := reached
  rcases Nat.lt_or_ge ((head ++ (front ++ [pong]).flatMap AcceptedFrame.octets).length - 1)
      taken.length with inside | behind
  · left
    rw [List.getElem?_append_left inside] at atLast
    have stream := begins.stream
    rw [octetsAt_append] at stream
    obtain ⟨more, whole⟩ : head ++ (front ++ [pong]).flatMap AcceptedFrame.octets <+:
        octetsAt taken := by
      refine List.prefix_of_prefix_length_le ⟨rest, stream.symm⟩ ⟨octetsAt waiting, rfl⟩ ?_
      rw [length_octetsAt]
      omega
    exact ⟨head, front, pong, more, last, ⟨begins.ends, whole.symm⟩, isPong, atLast, same,
      Nat.zero_le _⟩
  · exact .inr ⟨head, front, pong, rest, last, begins, isPong, atLast, same, behind⟩

/-- At most `ms` milliseconds behind `seen`. -/
def Within (ms seen time : Nat) : Prop := seen < time ∧ time ≤ seen + ms * 1000

def Options.idleTimeoutMs (options : Options) : Nat :=
  options.positiveOption "idleTimeoutMs" ServerOptions.idleTimeoutMs defaultIdleTimeoutMs

/-- Behind the first `read` octets there is what resets the timeout, and it has arrived in time:
    any octet, or a Pong. -/
def HeardInTime (server : Server) (conn : Connection) (arrived : List Arrival) (read : Nat) :
    Timeout → Prop
  | .idle => ∃ a ∈ arrived.drop read, Within server.options.idleTimeoutMs conn.lastSeenUsec a.time
  | .pong => ∃ time, PongReached server.options.maxMessageSize read arrived time ∧
      Within server.options.pongTimeoutMs conn.lastPingUsec time

theorem HeardInTime.anywhere {server : Server} {conn : Connection} {arrived : List Arrival}
    {read : Nat} {timeout : Timeout} (heard : HeardInTime server conn arrived read timeout) :
    HeardInTime server conn arrived 0 timeout := by
  cases timeout with
  | idle =>
      obtain ⟨a, member, within⟩ := heard
      exact ⟨a, List.mem_of_mem_drop member, within⟩
  | pong =>
      obtain ⟨time, ⟨head, front, pong, rest, last, begins, isPong, atLast, same, -⟩, within⟩ := heard
      exact ⟨time, ⟨head, front, pong, rest, last, begins, isPong, atLast, same, Nat.zero_le _⟩,
        within⟩

theorem HeardInTime.waits {server : Server} {conn : Connection} {taken waiting : List Arrival}
    {timeout : Timeout} (empty : waiting = []) :
    ¬ HeardInTime server conn (taken ++ waiting) taken.length timeout := by
  subst empty
  rw [List.append_nil]
  cases timeout with
  | idle =>
      rintro ⟨a, member, -⟩
      rw [List.drop_length] at member
      cases member
  | pong =>
      rintro ⟨_, ⟨_, _, _, _, _, -, -, atLast, -, behind⟩, -⟩
      rw [List.getElem?_eq_none behind] at atLast
      cases atLast

/-! ## What a step decides -/

/-- Every check of the step spares the connection, or closes it for a timeout in a way that is
    just. -/
def Accounts (server : Server) (just : Site → ConnId → Timeout → Prop) (m : Site) (label : Label) :
    Prop :=
  ∀ i now, Checks m label i now → (m.world.conn i).isOpen = true →
    (m.world.conn i).upgraded = true →
      Spares server m.world i now ∨ ∃ timeout, Closes server m.world i now timeout ∧ just m i timeout

/-- Where a check of the step finds a timeout over, a condition holds. -/
def WhereOver (server : Server) (condition : Site → ConnId → Timeout → Prop) (m : Site)
    (label : Label) : Prop :=
  ∀ i now, Checks m label i now → (m.world.conn i).isOpen = true →
    (m.world.conn i).upgraded = true →
      ∀ timeout, Over server.options (m.world.conn i) now timeout → condition m i timeout

theorem accounts_iff {server : Server} {just : Site → ConnId → Timeout → Prop} {m : Site}
    {label : Label} : Accounts server just m label ↔ WhereOver server just m label := by
  refine forall₄_congr fun i now _ _ => forall_congr' fun upgraded => ?_
  exact World.check_iff upgraded (just m i)

/-- The peer of a connection that is closed has not been heard in time. -/
def Timely (server : Server) : Site → Label → Prop :=
  Accounts server fun m i timeout =>
    ¬ HeardInTime server (m.world.conn i) (m.kernel.sockets i).arrived 0 timeout

/-- Nor does anything wait in its socket. -/
def Fair (server : Server) : Site → Label → Prop :=
  Accounts server fun m i timeout =>
    ¬ HeardInTime server (m.world.conn i) (m.kernel.sockets i).arrived 0 timeout ∧
      (m.kernel.sockets i).waiting = []

/-- Where a timeout is over, what waits in the socket has not arrived in time. -/
def Late (server : Server) : Site → Label → Prop :=
  WhereOver server fun m i timeout =>
    ¬ HeardInTime server (m.world.conn i) (m.kernel.sockets i).arrived
      (m.kernel.sockets i).taken.length timeout

/-- Where a timeout is over, the socket is empty. -/
def Looks (server : Server) : Site → Label → Prop :=
  WhereOver server fun m i _ => (m.kernel.sockets i).waiting = []

/-! ## What a connection remembers -/

/-- What has been read begins with the request and the frames that have been handled, and the
    buffer is the rest. While a Pong is waited for, the frames `old` were there before the Ping,
    and among those behind them is no Pong. -/
def Heard (maxMessageSize : Nat) (conn : Connection) (buffer : Bytes) (taken : List Arrival) : Prop :=
  ∃ head old new, Begins maxMessageSize (octetsAt taken) head (old ++ new) buffer ∧
    (conn.awaitingPong = true →
      (∀ a ∈ taken.take (head ++ old.flatMap AcceptedFrame.octets).length,
        a.time ≤ conn.lastPingUsec) ∧
      ∀ frame ∈ new, frame.frame.opcode ≠ opcodePong)

structure Kept (maxMessageSize : Nat) (conn : Connection) (buffer : Bytes) (taken : List Arrival) :
    Prop where
  activity : conn.isOpen = true → ∀ a ∈ taken, a.time ≤ conn.lastActivityUsec
  fresh : conn.isOpen = true → conn.upgraded = false →
    conn.awaitingPong = false ∧ octetsAt taken = buffer
  heard : conn.Reading → Heard maxMessageSize conn buffer taken

section

variable {maxMessageSize : Nat} {a b : Connection} {buffer : Bytes} {taken fresh : List Arrival}

/-- A Pong that has been read since the Ping has been handled. -/
theorem Heard.no_pong (heard : Heard maxMessageSize a buffer taken)
    (part : parseFrame buffer maxMessageSize = .incomplete) (awaiting : a.awaitingPong = true)
    {time : Nat} (reached : PongReached maxMessageSize 0 taken time) : time ≤ a.lastPingUsec := by
  obtain ⟨head, old, new, begins, since⟩ := heard
  obtain ⟨before, silent⟩ := since awaiting
  obtain ⟨other, front, pong, rest, last, again, isPong, atLast, rfl, -⟩ := reached
  obtain ⟨rfl, more, all⟩ := begins.front again part
  -- the Pong is one of the old frames, or one of the new
  rw [List.append_assoc, List.singleton_append] at all
  rcases List.append_eq_append_iff.mp all with ⟨middle, same, later⟩ | ⟨middle, rfl, later⟩
  · cases middle with
    | nil =>
        refine absurd isPong (silent pong ?_)
        rw [List.nil_append] at later
        rw [← later]
        exact List.mem_cons_self
    | cons first middle =>
        obtain ⟨rfl, -⟩ := List.cons.inj later
        apply before last
        have inside : (other ++ (front ++ [pong]).flatMap AcceptedFrame.octets).length ≤
            (other ++ old.flatMap AcceptedFrame.octets).length := by
          rw [same]
          simp only [List.flatMap_append, List.flatMap_cons, List.flatMap_nil, List.length_append,
            List.length_nil]
          omega
        have some_octet := List.length_pos_iff.mpr pong.nonempty
        have positive : 0 < (other ++ (front ++ [pong]).flatMap AcceptedFrame.octets).length := by
          simp only [List.flatMap_append, List.flatMap_cons, List.length_append]
          omega
        rw [List.mem_iff_getElem?]
        refine ⟨_, (List.getElem?_take_of_lt ?_).trans atLast⟩
        omega
  · refine absurd isPong (silent pong ?_)
    rw [later]
    exact List.mem_append_right _ List.mem_cons_self

namespace Kept

theorem keeps (kept : Kept maxMessageSize a buffer taken) (keeps : a.Keeps b) :
    Kept maxMessageSize b buffer taken where
  activity opened := by
    rw [keeps.activity opened]
    exact kept.activity (keeps.isOpen opened)
  fresh opened upgraded := by
    obtain ⟨heard, same⟩ := kept.fresh (keeps.isOpen opened) (keeps.upgraded.symm.trans upgraded)
    refine ⟨Bool.eq_false_iff.mpr ?_, same⟩
    intro awaiting
    exact Bool.false_ne_true (heard.symm.trans (keeps.pong awaiting).1)
  heard reading := by
    have before := (keeps.live reading.live).reading (keeps.upgraded.symm.trans reading.2.2)
    obtain ⟨head, old, new, begins, since⟩ := kept.heard before
    refine ⟨head, old, new, begins, ?_⟩
    intro awaiting
    obtain ⟨waited, ping⟩ := keeps.pong awaiting
    rw [ping]
    exact since waited

theorem closed (closed : a.isOpen = false) : Kept maxMessageSize a buffer taken where
  activity opened := absurd (closed.symm.trans opened) Bool.false_ne_true
  fresh opened := absurd (closed.symm.trans opened) Bool.false_ne_true
  heard reading := absurd (closed.symm.trans reading.1) Bool.false_ne_true

theorem ping (kept : Kept maxMessageSize a buffer taken) (upgraded : a.upgraded = true) {now : Nat}
    (before : ∀ x ∈ taken, x.time ≤ now) :
    Kept maxMessageSize { a with awaitingPong := true, lastPingUsec := now } buffer taken where
  activity := kept.activity
  fresh _ still := absurd (upgraded.symm.trans still) nofun
  heard reading := by
    obtain ⟨head, old, new, begins, -⟩ := kept.heard reading
    refine ⟨head, old ++ new, [], ?_, fun _ => ⟨?_, nofun⟩⟩
    · rw [List.append_nil]
      exact begins
    · intro x member
      exact before x (List.mem_of_mem_take member)

theorem hear (kept : Kept maxMessageSize a buffer taken) {now : Nat}
    (before : ∀ x ∈ taken ++ fresh, x.time ≤ now) :
    Kept maxMessageSize { a with lastActivityUsec := now } (buffer ++ octetsAt fresh)
      (taken ++ fresh) where
  activity _ := before
  fresh opened upgraded := by
    obtain ⟨heard, same⟩ := kept.fresh opened upgraded
    exact ⟨heard, by rw [octetsAt_append, same]⟩
  heard reading := by
    obtain ⟨head, old, new, begins, since⟩ := kept.heard reading
    refine ⟨head, old, new, ⟨begins.ends, ?_⟩, ?_⟩
    · rw [octetsAt_append, begins.stream, List.append_assoc]
    · intro awaiting
      obtain ⟨times, silent⟩ := since awaiting
      refine ⟨?_, silent⟩
      have inside : (head ++ old.flatMap AcceptedFrame.octets).length ≤ taken.length := by
        rw [← length_octetsAt taken, begins.stream, List.flatMap_append]
        simp only [List.length_append]
        omega
      rw [List.take_append_of_le_length inside]
      exact times

theorem upgrade (kept : Kept maxMessageSize a buffer taken) (upgraded : a.upgraded = false)
    {h : Nat} (ends : findHeaderEnd (buffer.take (h + 4)) = some h) (room : h + 4 ≤ buffer.length)
    (selectedSubprotocol : Option Bytes) :
    Kept maxMessageSize { a with selectedSubprotocol, upgraded := true } (buffer.drop (h + 4)) taken where
  activity := kept.activity
  fresh _ still := absurd still nofun
  heard reading := by
    obtain ⟨heard, same⟩ := kept.fresh reading.1 upgraded
    refine ⟨buffer.take (h + 4), [], [], ⟨?_, ?_⟩, ?_⟩
    · rw [ends, List.length_take, Nat.min_eq_left room, Nat.add_sub_cancel]
    · rw [same, List.append_nil, List.flatMap_nil, List.append_nil, List.take_append_drop]
    · intro awaiting
      exact absurd (heard.symm.trans awaiting) Bool.false_ne_true

end Kept

end

/-! ## Along the service of a connection -/

theorem frameConsumer_waiting {server : Server} {i : ConnId} {h h' : Hub} {b left : Bytes}
    (waits : (frameConsumer server i).drain h b = .waiting h' left) :
    parseFrame left server.options.maxMessageSize = .incomplete ∧
      ∃ frames : List (AcceptedFrame server.options.maxMessageSize),
        b = frames.flatMap AcceptedFrame.octets ++ left ∧
        ((h'.conn i).awaitingPong = true →
          (h.conn i).awaitingPong = true ∧ (h'.conn i).lastPingUsec = (h.conn i).lastPingUsec ∧
            ∀ frame ∈ frames, frame.frame.opcode ≠ opcodePong) := by
  induction h, b using Consumer.drain.induct (frameConsumer server i) with
  | case1 h b atBite =>
      rw [Consumer.drain_wait atBite] at waits
      cases waits
      refine ⟨?_, [], rfl, fun awaiting => ⟨awaiting, rfl, fun _ member => absurd member List.not_mem_nil⟩⟩
      change frameBite server i h' left = .wait at atBite
      unfold frameBite at atBite
      split at atBite
      · cases atBite
      · cases parsed : parseFrame left server.options.maxMessageSize with
        | incomplete => rfl
        | messageTooBig | invalidPayload | protocolError =>
            rw [parsed] at atBite
            cases atBite
        | ok frame =>
            rw [parsed] at atBite
            dsimp only at atBite
            split at atBite <;> cases atBite
  | case2 h b n r atBite =>
      rw [Consumer.drain_stop atBite] at waits
      cases waits
  | case3 h b n h'' atBite ih =>
      rw [Consumer.drain_take atBite] at waits
      obtain ⟨part, frames, stream, silent⟩ := ih waits
      refine ⟨part, ?_⟩
      change frameBite server i h b = .take n h'' at atBite
      unfold frameBite at atBite
      split at atBite
      · cases atBite
      · cases parsed : parseFrame b server.options.maxMessageSize with
        | incomplete | messageTooBig | invalidPayload | protocolError =>
            rw [parsed] at atBite
            cases atBite
        | ok frame =>
            rw [parsed] at atBite
            dsimp only at atBite
            split at atBite <;> cases atBite
            obtain ⟨accepted, rfl, front⟩ := exists_acceptedFrame parsed
            refine ⟨accepted :: frames, ?_, ?_⟩
            · rw [List.flatMap_cons, List.append_assoc, ← stream]
              exact front
            · intro awaiting
              obtain ⟨waited, ping, others⟩ := silent awaiting
              rcases h.handleFrame_cases server i accepted.frame with
                ⟨other, calms⟩ | ⟨-, seen, -, heard⟩
              · obtain ⟨before, same⟩ := (calms.ops.steady.conns i).pong waited
                refine ⟨before, ping.trans same, ?_⟩
                intro x member
                rcases List.mem_cons.mp member with rfl | later
                · exact other
                · exact others x later
              · rw [heard, Hub.conn_setConn] at waited
                cases waited

namespace World

variable {server : Server} {i : ConnId} {w : World} {taken : List Arrival}

/-- The record of a connection, and the frames in its buffer are handled. -/
structure Ready (server : Server) (i : ConnId) (taken : List Arrival) (w : World) : Prop where
  kept : Kept server.options.maxMessageSize (w.conn i) (w.buffer i) taken
  level : (w.conn i).Reading → parseFrame (w.buffer i) server.options.maxMessageSize = .incomplete

theorem Ready.of_steady {h : Hub} (ready : Ready server i taken w) (steady : Steady w.toHub h) :
    Ready server i taken { w with toHub := h } where
  kept := ready.kept.keeps (steady.conns i)
  level reading := by
    have keeps := steady.conns i
    exact ready.level ((keeps.live reading.live).reading (keeps.upgraded.symm.trans reading.2.2))

theorem Ready.closed (closed : (w.conn i).isOpen = false) : Ready server i taken w :=
  ⟨.closed closed, fun reading => absurd (closed.symm.trans reading.1) Bool.false_ne_true⟩

theorem Ready.fresh (kept : Kept server.options.maxMessageSize (w.conn i) (w.buffer i) taken)
    (upgraded : (w.conn i).upgraded = false) : Ready server i taken w :=
  ⟨kept, fun reading => absurd (upgraded.symm.trans reading.2.2) Bool.false_ne_true⟩

theorem processBufferedFrames_ready
    (kept : Kept server.options.maxMessageSize (w.conn i) (w.buffer i) taken)
    (ok : (w.processBufferedFrames server i).1 = true) :
    Ready server i taken (w.processBufferedFrames server i).2 := by
  have steady := (processBufferedFrames_ops server (i := i) w).steady.conns i
  rw [processBufferedFrames_eq] at ok steady ⊢
  by_cases reading : (w.conn i).Reading
  · have upgraded := steady.upgraded.trans reading.2.2
    cases drained : (frameConsumer server i).drain w.toHub (w.buffer i) with
    | waiting h left =>
        rw [drained] at steady upgraded
        obtain ⟨part, frames, stream, silent⟩ := frameConsumer_waiting drained
        have buffer : (w.land i (.waiting h left)).2.buffer i = left := buffer_setBuffer ..
        refine ⟨⟨?_, ?_, ?_⟩, fun _ => buffer.symm ▸ part⟩
        · intro opened
          rw [steady.activity opened]
          exact kept.activity reading.1
        · intro _ fresh
          exact absurd (upgraded.symm.trans fresh) nofun
        · intro _
          obtain ⟨head, old, new, begins, since⟩ := kept.heard reading
          rw [buffer]
          refine ⟨head, old, new ++ frames, ⟨begins.ends, ?_⟩, ?_⟩
          · rw [begins.stream, stream]
            simp only [List.flatMap_append, List.append_assoc]
          · intro awaiting
            obtain ⟨waited, ping, others⟩ := silent awaiting
            obtain ⟨times, before⟩ := since waited
            rw [show ((w.land i (.waiting h left)).2.conn i).lastPingUsec = _ from ping]
            refine ⟨times, ?_⟩
            intro frame member
            exact (List.mem_append.mp member).elim (before frame) (others frame)
    | stopped r left =>
        rw [drained] at ok steady upgraded
        obtain ⟨fine, h⟩ := r
        obtain rfl : fine = true := ok
        have shut : ¬ ((w.land i (.stopped (true, h) left)).2.conn i).Reading :=
          frameConsumer_stopped drained
        refine ⟨⟨?_, ?_, fun reading => absurd reading shut⟩,
          fun reading => absurd reading shut⟩
        · intro opened
          rw [steady.activity opened]
          exact kept.activity reading.1
        · intro _ fresh
          exact absurd (upgraded.symm.trans fresh) nofun
  · have stops : (frameConsumer server i).bite w.toHub (w.buffer i) = .stop 0 (true, w.toHub) := by
      simp [frameConsumer, frameBite, reading]
    rw [Consumer.drain_stop stops, land, List.drop_zero, setBuffer_buffer]
    exact ⟨kept, fun still => absurd still reading⟩

end World

/-! ## The upgrade -/

theorem parseUpgrade_ends {lib : PhpLib} {supported : List Bytes} {buffer : Bytes}
    {upgrade : HttpUpgrade} (accepted : parseUpgrade lib supported buffer = .ok upgrade) :
    ∃ h, upgrade.bytesConsumed = h + 4 ∧ h + 4 ≤ buffer.length ∧
      findHeaderEnd (buffer.take (h + 4)) = some h := by
  by_cases long : buffer.length > httpMaxRequestSize
  · rw [parseUpgrade, if_pos long] at accepted
    cases accepted
  cases found : findHeaderEnd buffer with
  | none =>
      rw [parseUpgrade, if_neg long, found] at accepted
      cases accepted
  | some h =>
      have empty := findHeaderEnd_eq_some.mp found
      have room := findHeaderEnd_le found
      rw [parseUpgrade_eq_parseHead lib supported (Nat.le_of_not_lt long) empty] at accepted
      refine ⟨h, ?_, room, findHeaderEnd_eq_some.mpr ⟨?_, ?_⟩⟩
      · rw [parseHead_consumed accepted, List.length_take_of_le (by omega)]
      · rw [List.drop_take, Nat.add_sub_cancel_left, List.prefix_take_iff]
        exact ⟨empty.here, le_rfl⟩
      · intro j before first
        rw [List.drop_take, List.prefix_take_iff] at first
        exact empty.first j before first.1

namespace World

variable {server : Server} {i : ConnId} {w : World} {taken : List Arrival} {upgrade : HttpUpgrade}

theorem switchToFrames_kept
    (kept : Kept server.options.maxMessageSize (w.conn i) (w.buffer i) taken)
    (upgraded : (w.conn i).upgraded = false)
    (accepted : parseUpgrade server.lib server.subprotocols (w.buffer i) = .ok upgrade) :
    Kept server.options.maxMessageSize ((w.switchToFrames i upgrade).conn i)
      ((w.switchToFrames i upgrade).buffer i) taken := by
  obtain ⟨h, consumed, room, ends⟩ := parseUpgrade_ends accepted
  have after := kept.upgrade upgraded ends room upgrade.selectedSubprotocol
  have conn : (w.switchToFrames i upgrade).conn i =
      { w.conn i with selectedSubprotocol := upgrade.selectedSubprotocol, upgraded := true } := by
    simp [switchToFrames, discard, setReads, Hub.emit]
  have buffer : (w.switchToFrames i upgrade).buffer i = (w.buffer i).drop (h + 4) := by
    rw [← consumed]
    exact (congrArg (World.buffer · i) (discard_eq _ i _)).trans (buffer_setBuffer ..)
  rw [conn, buffer]
  exact after

theorem finishUpgrade_ready
    (kept : Kept server.options.maxMessageSize (w.conn i) (w.buffer i) taken)
    (upgraded : (w.conn i).upgraded = false)
    (accepted : parseUpgrade server.lib server.subprotocols (w.buffer i) = .ok upgrade)
    (ok : (w.finishUpgrade server i upgrade).1 = true) :
    Ready server i taken (w.finishUpgrade server i upgrade).2 := by
  have responded := (w.respond_calm i 101
    (upgradeResponse (upgrade.acceptKey.getD []) upgrade.selectedSubprotocol)).ops.steady.conns i
  simp only [finishUpgrade] at ok ⊢
  generalize Hub.respond _ i 101 _ = sent at responded ok ⊢
  have told := kept.keeps responded
  split
  · exact .closed (by rw [Hub.shut, Hub.conn_setConn])
  · rename_i answered
    rw [if_neg answered] at ok
    have switched := switchToFrames_kept (w := { w with toHub := sent.2 }) told
      (responded.upgraded.trans upgraded) accepted
    generalize { w with toHub := sent.2 }.switchToFrames i upgrade = w' at switched ok ⊢
    have opened := switched.keeps ((w'.callOpenHandler_calm server i).ops.steady.conns i)
    generalize w'.callOpenHandler server i = asked at opened ok ⊢
    split
    · rename_i threw
      rw [if_pos threw] at ok
      cases ok
    · rename_i quiet
      rw [if_neg quiet] at ok
      have closing {w : World}
          (kept : Kept server.options.maxMessageSize (w.conn i) (w.buffer i) taken)
          (ok : (if !(w.conn i).isOpen then w.onHub (w.notifyConnectionClosed server i)
            else w.processBufferedFrames server i).1 = true) :
          Ready server i taken (if !(w.conn i).isOpen then w.onHub (w.notifyConnectionClosed server i)
            else w.processBufferedFrames server i).2 := by
        split
        · rename_i shut
          simp only [Bool.not_eq_true'] at shut
          exact Ready.of_steady (.closed shut) (w.notifyConnectionClosed_calm server i).ops.steady
        · rename_i going
          rw [if_neg going] at ok
          exact processBufferedFrames_ready kept ok
      split
      · rename_i asks
        rw [if_pos asks] at ok
        refine closing (.closed ?_) ok
        rw [Hub.shut, Hub.conn_setConn]
      · rename_i stays
        rw [if_neg stays] at ok
        exact closing opened ok

theorem beginUpgrade_ready
    (kept : Kept server.options.maxMessageSize (w.conn i) (w.buffer i) taken)
    (upgraded : (w.conn i).upgraded = false)
    (accepted : parseUpgrade server.lib server.subprotocols (w.buffer i) = .ok upgrade)
    (ok : (w.beginUpgrade server i upgrade).1 = true) :
    Ready server i taken (w.beginUpgrade server i upgrade).2 := by
  simp only [beginUpgrade] at ok ⊢
  split
  · rename_i handler
    rw [handler] at ok
    exact finishUpgrade_ready kept upgraded accepted ok
  · rename_i onHandshake handler
    rw [handler] at ok
    dsimp only at ok
    generalize (⟨upgrade.method, upgrade.target, requestHeaders upgrade.headers⟩ : Request) = request
      at ok ⊢
    have asked := ((w.emit (.parsed i (w.buffer i) upgrade)).callHandshakeHandler_calm i request
      (onHandshake request)).ops.steady.conns i
    generalize Hub.callHandshakeHandler _ i _ _ = answer at asked ok ⊢
    have told := kept.keeps asked
    have still := asked.upgraded.trans upgraded
    split
    · rename_i failed
      rw [failed] at ok
      cases ok
    · exact .fresh told still
    · rename_i approved
      rw [approved] at ok
      exact finishUpgrade_ready told still accepted ok

end World

/-! ## The kernel's answers -/

/-- What has arrived has arrived by now. -/
def Kernel.Past (k : Kernel) (i : ConnId) : Prop := ∀ a ∈ (k.sockets i).arrived, a.time ≤ k.time

namespace Kernel

variable {k k' : Kernel} {i j : ConnId} {used : List RecvResult} {ticks : List Nat}

theorem Past.taken (past : k.Past i) : ∀ a ∈ (k.sockets i).taken, a.time ≤ k.time :=
  fun a member => past a (List.mem_append_left _ member)

theorem Past.grows (past : k.Past i)
    (grows : (k.sockets i).Grows (fun a => k.time ≤ a.time ∧ a.time ≤ k'.time) (k'.sockets i))
    (time : k.time ≤ k'.time) : k'.Past i := by
  obtain ⟨fresh, fair, same⟩ := grows
  intro a member
  rw [same, Inbox.arrived, Inbox.arrive, ← List.append_assoc] at member
  rcases List.mem_append.mp member with old | new
  · exact (past a old).trans time
  · exact (fair a new).2

theorem Past.take (past : k.Past j) (n : Nat) :
    (k.setSocket i ((k.sockets i).take n)).Past j := by
  intro a member
  apply past a
  by_cases same : j = i
  · subst same
    rwa [setSocket_self, Inbox.arrived_take] at member
  · rwa [setSocket_other _ same] at member

theorem Serves.past (serves : k.Serves i used ticks k') (past : k.Past j) : k'.Past j := by
  induction serves with
  | done => exact past
  | @data k k₁ k₂ k' chunk used ticks grows front later serves ih =>
      exact ih (((past.grows (grows.sockets j) grows.time).take _).grows (later.sockets j) later.time)
  | eof grows _ serves ih | failed grows _ serves ih =>
      exact ih (past.grows (grows.sockets j) grows.time)

theorem Serves.delivered {chunk : Chunk}
    (serves : k.Serves i (.data chunk :: used) ticks k') (past : k.Past i) :
    ∃ k₁ : Kernel, ∃ fresh later, ticks = k₁.time :: later ∧ k₁.Serves i used later k' ∧ k₁.Past i ∧
      (k₁.sockets i).taken = (k.sockets i).taken ++ fresh ∧ octetsAt fresh = chunk.octets := by
  cases serves with
  | @data _ k₁ k₂ _ _ _ more grows front later serves =>
      have grown := (past.grows (grows.sockets i) grows.time).take (i := i) chunk.octets.length
      have taken := (later.sockets i).taken
      rw [setSocket_self, Inbox.take, (grows.sockets i).taken] at taken
      exact ⟨k₂, _, more, rfl, serves, grown.grows (later.sockets i) later.time, taken, front⟩

theorem Serves.silent {answer : RecvResult} (serves : k.Serves i (answer :: used) ticks k')
    (other : ∀ chunk, answer ≠ .data chunk) (past : k.Past i) :
    ∃ k₁ : Kernel, k₁.Serves i used ticks k' ∧ k₁.Past i ∧ (k₁.sockets i).taken = (k.sockets i).taken := by
  cases serves with
  | data => exact absurd rfl (other _)
  | eof grows _ serves | failed grows _ serves =>
      exact ⟨_, serves, past.grows (grows.sockets i) grows.time, (grows.sockets i).taken⟩

end Kernel

theorem exists_used {answer : RecvResult} {rest used left : List RecvResult}
    (taken : answer :: rest = used ++ left) (behind : left <:+ rest) :
    ∃ later, used = answer :: later ∧ rest = later ++ left := by
  obtain ⟨later, rfl⟩ := behind
  refine ⟨later, ?_, rfl⟩
  rw [← List.cons_append] at taken
  exact (List.append_cancel_right taken).symm

namespace World

variable {server : Server} {i : ConnId} {w : World} {k k' : Kernel} {used : List RecvResult}
  {ticks : List Nat}

/-- What a loop over `recv` does with the answers of a kernel. -/
structure Reads (i : ConnId) (w w' : World) (recvs used : List RecvResult) (ticks : List Nat)
    (k k' : Kernel) : Prop where
  taken : recvs = used ++ w'.env.recvs
  clock : w.env.clock = ticks ++ w'.env.clock
  serves : k.Serves i used ticks k'

theorem Reads.still {w' : World} {recvs : List RecvResult} (reads : Reads i w w' recvs used ticks k k')
    (left : w'.env.recvs = recvs) : k' = k := by
  have none := reads.taken
  rw [left] at none
  obtain rfl : used = [] := List.self_eq_append_left.mp none
  cases reads.serves
  rfl

theorem touch_clock {now : Nat} {clock : List Nat} (atClock : w.env.clock = now :: clock) :
    (w.touch i).conn i = { w.conn i with lastActivityUsec := now } ∧ (w.touch i).env.clock = clock ∧
      (w.touch i).reads = w.reads := by
  simp only [touch, Hub.now, Env.now, atClock, and_true]
  exact ⟨Hub.conn_setConn .., rfl⟩

theorem Reads.hear {w' : World} {chunk : Chunk} {rest : List RecvResult} {limit : Nat}
    (reads : Reads i w w' (.data chunk :: rest) used ticks k k') (past : k.Past i)
    (kept : Kept limit (w.conn i) (w.buffer i) (k.sockets i).taken)
    (behind : w'.env.recvs <:+ rest) :
    ∃ k₁ : Kernel, ∃ used later, k₁.Past i ∧ Reads i ((w.setRecvs rest).touch i) w' rest used later k₁ k' ∧
      Kept limit (((w.setRecvs rest).touch i).conn i)
        (((w.setRecvs rest).touch i).buffer i ++ chunk.octets) (k₁.sockets i).taken := by
  obtain ⟨later, rfl, left⟩ := exists_used reads.taken behind
  obtain ⟨k₁, fresh, more, rfl, serves, past₁, taken, octets⟩ := reads.serves.delivered past
  obtain ⟨conn, clock, -⟩ := touch_clock (w := w.setRecvs rest) (i := i) reads.clock
  refine ⟨k₁, later, more, past₁, ⟨left, clock, serves⟩, ?_⟩
  have before := past₁.taken
  rw [taken] at before ⊢
  rw [conn, ← octets]
  exact kept.hear before

theorem failed_ne_data (e : Errno) (chunk : Chunk) : RecvResult.failed e ≠ .data chunk := by
  intro same
  cases same

theorem Reads.pass {w' : World} {answer : RecvResult} {rest : List RecvResult} {limit : Nat}
    (reads : Reads i w w' (answer :: rest) used ticks k k') (other : ∀ chunk, answer ≠ .data chunk)
    (past : k.Past i) (kept : Kept limit (w.conn i) (w.buffer i) (k.sockets i).taken)
    (behind : w'.env.recvs <:+ rest) :
    ∃ k₁ : Kernel, ∃ used, k₁.Past i ∧ Reads i w w' rest used ticks k₁ k' ∧
      Kept limit (w.conn i) (w.buffer i) (k₁.sockets i).taken := by
  obtain ⟨later, rfl, left⟩ := exists_used reads.taken behind
  obtain ⟨k₁, serves, past₁, taken⟩ := reads.serves.silent other past
  exact ⟨k₁, later, past₁, ⟨left, reads.clock, serves⟩, taken ▸ kept⟩

theorem Stops.suffix {recvs : List RecvResult} {r : Bool × World} {or : Prop}
    (stops : Stops i recvs r or) : r.2.env.recvs <:+ recvs := by
  obtain ⟨used, taken, -⟩ := stops
  exact ⟨used, taken.symm⟩

end World

namespace World

variable {server : Server} {i : ConnId} {k k' : Kernel}

theorem Ready.setErrno {w : World} {taken : List Arrival} (ready : Ready server i taken w) (e : Errno) :
    Ready server i taken (w.setErrno e) := ⟨ready.kept, ready.level⟩

theorem failRecv_ready (w : World) (taken : List Arrival) :
    Ready server i taken (w.failRecv i).2 := .closed (by simp [failRecv, Hub.shut])

theorem reject_ready (w : World) (taken : List Arrival) (status : Int) (text : Bytes) :
    Ready server i taken { w with toHub := w.reject i status text } :=
  .closed (by simp [Hub.reject, Hub.shut])

theorem Ready.ended {w : World} {taken : List Arrival}
    (kept : Kept server.options.maxMessageSize (w.conn i) (w.buffer i) taken)
    (ended : (!((w.conn i).isOpen && !(w.conn i).closeAfterWrite && (w.conn i).upgraded)) = true) :
    Ready server i taken w := by
  refine ⟨kept, ?_⟩
  intro reading
  simp [reading.1, reading.2.1, reading.2.2] at ended

theorem Reads.dry {w : World} {k : Kernel} {used rest : List RecvResult} {ticks : List Nat} {e : Errno}
    (reads : Reads i w (((w.setRecvs rest).setErrno e).processBufferedFrames server i).2
      (.failed e :: rest) used ticks k k') (past : k.Past i)
    (kept : Kept server.options.maxMessageSize (w.conn i) (w.buffer i) (k.sockets i).taken)
    (ok : (((w.setRecvs rest).setErrno e).processBufferedFrames server i).1 = true) :
    Ready server i (k'.sockets i).taken
      (((w.setRecvs rest).setErrno e).processBufferedFrames server i).2 := by
  have left := processBufferedFrames_recvs server (i := i) ((w.setRecvs rest).setErrno e)
  obtain ⟨k₁, later, past₁, after, told⟩ := reads.pass (failed_ne_data _) past kept ⟨[], left⟩
  rw [after.still left]
  exact processBufferedFrames_ready (w := (w.setRecvs rest).setErrno e) told ok

theorem Reads.tooBig {w : World} {k : Kernel} {used rest : List RecvResult} {ticks : List Nat}
    {chunk : Chunk}
    (reads : Reads i w (((w.setRecvs rest).touch i).onHub
      (((w.setRecvs rest).touch i).closeWithCode i closeMessageTooBig "message too big")).2
      (.data chunk :: rest) used ticks k k') (past : k.Past i)
    (kept : Kept server.options.maxMessageSize (w.conn i) (w.buffer i) (k.sockets i).taken)
    (upgraded : (((w.setRecvs rest).touch i).conn i).upgraded = true) :
    Ready server i (k'.sockets i).taken (((w.setRecvs rest).touch i).onHub
      (((w.setRecvs rest).touch i).closeWithCode i closeMessageTooBig "message too big")).2 := by
  have steady := (((w.setRecvs rest).touch i).closeWithCode_calm i closeMessageTooBig
    "message too big").ops.steady
  have left : (((w.setRecvs rest).touch i).closeWithCode i closeMessageTooBig
      "message too big").2.env.recvs = rest := steady.env.recvs.trans (touch_recvs _)
  obtain ⟨k₁, later, more, past₁, after, heard⟩ := reads.hear past kept ⟨[], left⟩
  rw [after.still left]
  have shut := Hub.closeWithCode_not_live ((w.setRecvs rest).touch i).toHub upgraded
    closeMessageTooBig "message too big"
  have told := heard.keeps (steady.conns i)
  refine ⟨⟨told.activity, ?_, ?_⟩, ?_⟩
  · intro _ fresh
    exact absurd (fresh.symm.trans ((steady.conns i).upgraded.trans upgraded)) Bool.false_ne_true
  · intro reading
    exact absurd reading.live shut
  · intro reading
    exact absurd reading.live shut

/-- The loop over frames keeps the record, whatever the kernel answers. -/
theorem frameReadsLoop_ready (recvs : List RecvResult) {w : World} {k : Kernel}
    {used : List RecvResult} {ticks : List Nat} (delivered : w.env.recvs = recvs)
    (upgraded : (w.conn i).upgraded = true) (past : k.Past i)
    (kept : Kept server.options.maxMessageSize (w.conn i) (w.buffer i) (k.sockets i).taken)
    (reads : Reads i w (w.frameReadsLoop server i recvs).2 recvs used ticks k k')
    (ok : (w.frameReadsLoop server i recvs).1 = true) :
    Ready server i (k'.sockets i).taken (w.frameReadsLoop server i recvs).2 := by
  induction recvs generalizing w k used ticks with
  | nil =>
      rw [frameReadsLoop.eq_def] at reads ok ⊢
      dsimp only at reads ok ⊢
      split
      · rename_i ended
        rw [if_pos ended] at reads
        rw [reads.still delivered]
        exact .ended kept ended
      · rename_i going
        rw [if_neg going] at reads ok
        rw [reads.still ((processBufferedFrames_recvs server _).trans delivered)]
        exact processBufferedFrames_ready (w := w.setErrno .eagain) kept ok
  | cons answer rest ih =>
      rw [frameReadsLoop.eq_def] at reads ok ⊢
      dsimp only at reads ok ⊢
      by_cases ended : (!((w.conn i).isOpen && !(w.conn i).closeAfterWrite && (w.conn i).upgraded)) = true
      · rw [if_pos ended] at reads ⊢
        rw [reads.still delivered]
        exact .ended kept ended
      · rw [if_neg ended] at reads ok ⊢
        cases answer with
        | eof => exact failRecv_ready _ _
        | data chunk =>
            have still : (((w.setRecvs rest).touch i).conn i).upgraded = true :=
              (Heed.touch (i := i) (w.setRecvs rest)).tends.upgraded upgraded
            dsimp only at reads ok ⊢
            split
            · rename_i full
              rw [full] at reads ok
              exact reads.tooBig past kept still
            · rename_i side room
              rw [room] at reads ok
              dsimp only at reads ok
              split
              · rename_i processed
                rw [if_pos processed] at reads ok
                have filled := processBufferedFrames_turns server (i := i)
                  (((w.setRecvs rest).touch i).setReads i (side.append chunk.octets))
                have left : (((((w.setRecvs rest).touch i).setReads i
                    (side.append chunk.octets)).processBufferedFrames server i).2).env.recvs = rest :=
                  filled.untouched.recvs.trans (touch_recvs _)
                have again := filled.tends.upgraded still
                obtain ⟨k₁, later, more, past₁, after, heard⟩ :=
                  reads.hear past kept (frameReadsLoop_stops server rest left again).suffix
                rw [← buffer_append room] at heard
                have ready := processBufferedFrames_ready
                  (w := ((w.setRecvs rest).touch i).setReads i (side.append chunk.octets)) heard processed
                refine ih left again past₁ ready.kept ⟨after.taken, ?_, after.serves⟩ ok
                exact filled.untouched.clock.trans after.clock
              · rename_i failed
                rw [if_neg failed] at ok
                cases ok
        | failed e =>
            cases e with
            | eintr =>
                obtain ⟨k₁, later, past₁, after, told⟩ := reads.pass (failed_ne_data _) past kept
                  (frameReadsLoop_stops server (w := (w.setRecvs rest).setErrno .eintr) rest rfl
                    upgraded).suffix
                exact ih (w := (w.setRecvs rest).setErrno .eintr) rfl upgraded past₁ told
                  ⟨after.taken, after.clock, after.serves⟩ ok
            | eagain | ewouldblock => exact reads.dry past kept ok
            | enobufs | epipe | econnreset | ebadf | other => exact failRecv_ready _ _

end World

namespace World

variable {server : Server} {i : ConnId} {k k' : Kernel}

theorem Reads.begun {w heard : World} {k : Kernel} {used rest : List RecvResult} {ticks : List Nat}
    {chunk : Chunk} {upgrade : HttpUpgrade}
    (reads : Reads i w (heard.beginUpgrade server i upgrade).2 (.data chunk :: rest) used ticks k k')
    (past : k.Past i)
    (kept : Kept server.options.maxMessageSize (w.conn i) (w.buffer i) (k.sockets i).taken)
    (left : heard.env.recvs = rest) (conn : heard.conn = ((w.setRecvs rest).touch i).conn)
    (filled : heard.buffer i = ((w.setRecvs rest).touch i).buffer i ++ chunk.octets)
    (unasked : (heard.conn i).upgraded = false)
    (accepted : parseUpgrade server.lib server.subprotocols (heard.buffer i) = .ok upgrade)
    (ok : (heard.beginUpgrade server i upgrade).1 = true) :
    Ready server i (k'.sockets i).taken (heard.beginUpgrade server i upgrade).2 := by
  have behind : (heard.beginUpgrade server i upgrade).2.env.recvs = rest :=
    (beginUpgrade_untouched server _ upgrade).trans left
  obtain ⟨k₁, later, more, past₁, after, told⟩ := reads.hear past kept ⟨[], behind⟩
  rw [← filled, ← conn] at told
  rw [after.still behind]
  exact beginUpgrade_ready told unasked accepted ok

theorem handshakeLoop_ready (recvs : List RecvResult) {w : World} {k : Kernel}
    {used : List RecvResult} {ticks : List Nat} (delivered : w.env.recvs = recvs)
    (fresh : (w.conn i).upgraded = false) (past : k.Past i)
    (kept : Kept server.options.maxMessageSize (w.conn i) (w.buffer i) (k.sockets i).taken)
    (reads : Reads i w (w.handshakeLoop server i recvs).2 recvs used ticks k k')
    (ok : (w.handshakeLoop server i recvs).1 = true) :
    Ready server i (k'.sockets i).taken (w.handshakeLoop server i recvs).2 := by
  induction recvs generalizing w k used ticks with
  | nil =>
      rw [handshakeLoop.eq_def] at reads ⊢
      dsimp only at reads ⊢
      split
      · rename_i ended
        rw [if_pos ended] at reads
        rw [reads.still delivered]
        exact .fresh kept fresh
      · rename_i going
        rw [if_neg going] at reads
        rw [reads.still delivered]
        exact .fresh kept fresh
  | cons answer rest ih =>
      rw [handshakeLoop.eq_def] at reads ok ⊢
      dsimp only at reads ok ⊢
      by_cases ended : (!((w.conn i).isOpen && !(w.conn i).upgraded)) = true
      · rw [if_pos ended] at reads ⊢
        rw [reads.still delivered]
        exact .fresh kept fresh
      · rw [if_neg ended] at reads ok ⊢
        cases answer with
        | eof => exact failRecv_ready _ _
        | data chunk =>
            have still : (((w.setRecvs rest).touch i).conn i).upgraded = false :=
              (congrArg Connection.upgraded (Hub.conn_setConn ..)).trans fresh
            dsimp only at reads ok ⊢
            split
            · exact reject_ready _ _ _ _
            · rename_i side room
              rw [room] at reads ok
              dsimp only at reads ok
              have filled := buffer_append room
              generalize atHeard : ((w.setRecvs rest).touch i).setReads i (side.append chunk.octets) =
                heard at reads ok filled ⊢
              have left : heard.env.recvs = rest := by
                rw [← atHeard]
                exact touch_recvs _
              have same : heard.conn = ((w.setRecvs rest).touch i).conn ∧
                  heard.env = ((w.setRecvs rest).touch i).env := by
                rw [← atHeard]
                exact ⟨rfl, rfl⟩
              have unasked : (heard.conn i).upgraded = false := by rw [same.1, still]
              split
              · rename_i incomplete
                rw [incomplete] at reads ok
                obtain ⟨k₁, later, more, past₁, after, told⟩ :=
                  reads.hear past kept (handshakeLoop_stops server rest left).suffix
                rw [← filled, ← same.1] at told
                refine ih left unasked past₁ told ⟨after.taken, ?_, after.serves⟩ ok
                rw [same.2]
                exact after.clock
              · exact reject_ready _ _ _ _
              · rename_i upgrade accepted
                rw [accepted] at reads ok
                exact reads.begun past kept left same.1 filled unasked accepted ok
        | failed e =>
            cases e with
            | eintr =>
                obtain ⟨k₁, later, past₁, after, told⟩ := reads.pass (failed_ne_data _) past kept
                  (handshakeLoop_stops server (w := (w.setRecvs rest).setErrno .eintr) rest rfl).suffix
                exact ih (w := (w.setRecvs rest).setErrno .eintr) rfl fresh past₁ told
                  ⟨after.taken, after.clock, after.serves⟩ ok
            | eagain | ewouldblock =>
                obtain ⟨k₁, later, past₁, after, told⟩ :=
                  reads.pass (failed_ne_data _) past kept (List.suffix_refl _)
                rw [after.still rfl]
                exact .fresh told fresh
            | enobufs | epipe | econnreset | ebadf | other => exact failRecv_ready _ _

/-- The checks keep the record; a Ping is sent behind what has been read by `now`. -/
theorem attend_ready {w : World} {taken : List Arrival} {now : Nat} (ready : Ready server i taken w)
    (before : ∀ a ∈ taken, a.time ≤ now) : Ready server i taken (w.attend server i now).2 := by
  simp only [attend]
  split
  · exact ready.of_steady (w.closeExpiredConnection_calm i).ops.steady
  · have beaten : Ready server i taken { w with toHub := (w.processHeartbeat server i now).2 } := by
      rcases w.processHeartbeat_calm server i now with calms | ⟨sent, calms, -, reading, marked⟩
      · exact ready.of_steady calms.ops.steady
      · have asked := ready.of_steady calms.ops.steady
        have upgraded := ((calms.ops.steady.conns i).upgraded).trans reading.2.2
        have pinged := asked.kept.ping upgraded before
        have conn : ((w.processHeartbeat server i now).2.conn i) =
            { sent.conn i with awaitingPong := true, lastPingUsec := now } := by
          rw [marked]
          exact Hub.conn_setConn ..
        refine ⟨?_, fun still => asked.level ?_⟩
        · rw [conn]
          exact pinged
        · rw [conn] at still
          exact still
    generalize w.processHeartbeat server i now = beat at beaten ⊢
    split
    · exact beaten
    · have flushed : Ready server i taken { w with toHub :=
          (if (beat.2.conn i).hasPendingWrites then beat.2.flush i else (true, beat.2)).2 } := by
        split
        · exact beaten.of_steady (Op.flush beat.2 i).steady
        · exact beaten
      have either {flushed : Bool × Hub} (ready : Ready server i taken { w with toHub := flushed.2 }) :
          Ready server i taken
            (if !flushed.1 || !(flushed.2.conn i).isOpen || (flushed.2.conn i).closeAfterWrite
              then (Attention.finished, { w with toHub := flushed.2 })
              else (Attention.ready, { w with toHub := flushed.2 })).2 := by
        split <;> exact ready
      exact either flushed

end World

namespace World

variable {server : Server} {i : ConnId} {w : World} {k mid k' : Kernel} {used : List RecvResult}
  {now : Nat}

theorem serveReady_ready (ready : Ready server i (k.sockets i).taken w) (past : k.Past i)
    (before : ∀ a ∈ (k.sockets i).taken, a.time ≤ now)
    (call : Kernel.Call i w (w.serveReady server i now).2 used k mid k')
    (ok : (w.serveReady server i now).1 = true) :
    Ready server i (k'.sockets i).taken (w.serveReady server i now).2 := by
  obtain ⟨ticks, clock, serves⟩ := call.serves
  have reads : Reads i w (w.serveReady server i now).2 w.env.recvs used ticks k mid :=
    ⟨call.recvs, clock, serves⟩
  rw [(call.later.sockets i).taken]
  have untouched := (attend_turns server (i := i) w now).untouched
  have attended := attend_ready ready before
  unfold serveReady at reads ok ⊢
  split
  · rename_i shut
    rw [if_pos shut] at reads
    rw [reads.still rfl]
    exact ready
  · rename_i opened
    rw [if_neg opened] at reads ok
    dsimp only at reads ok ⊢
    generalize w.attend server i now = attention at untouched attended reads ok ⊢
    split
    · rename_i failed
      rw [failed] at ok
      cases ok
    · rename_i finished
      rw [finished] at reads
      rw [reads.still untouched.recvs]
      exact attended
    · rename_i goes
      rw [goes] at reads ok
      dsimp only at reads ok
      have begins {w' : World} (reads : Reads i w w' w.env.recvs used ticks k mid) :
          Reads i attention.2 w' attention.2.env.recvs used ticks k mid :=
        ⟨untouched.recvs.trans reads.taken, untouched.clock.trans reads.clock, reads.serves⟩
      split
      · rename_i fresh
        rw [if_pos fresh] at reads ok
        simp only [Bool.not_eq_true'] at fresh
        exact handshakeLoop_ready _ rfl fresh past attended.kept (begins reads) ok
      · rename_i upgraded
        rw [if_neg upgraded] at reads ok
        simp only [Bool.not_eq_true', Bool.not_eq_false] at upgraded
        exact frameReadsLoop_ready _ rfl upgraded past attended.kept (begins reads) ok

theorem processLeftover_ready {shaken : Bool × World} {taken : List Arrival}
    (attended : shaken.1 = true → Ready server i taken shaken.2)
    (ok : (processLeftover server i shaken).1 = true) :
    Ready server i taken (processLeftover server i shaken).2 := by
  unfold processLeftover at ok ⊢
  cases fine : shaken.1 with
  | false =>
      rw [fine] at ok
      cases ok
  | true =>
      rw [fine] at ok
      simp only [Bool.not_true, Bool.false_eq_true, if_false] at ok ⊢
      split
      · rename_i buffered
        rw [if_pos buffered] at ok
        exact processBufferedFrames_ready (attended fine).kept ok
      · exact attended fine

theorem processConnection_ready (ready : Ready server i (k.sockets i).taken w) (past : k.Past i)
    (before : ∀ a ∈ (k.sockets i).taken, a.time ≤ now)
    (call : Kernel.Call i w (w.processConnection server i now).2 used k mid k')
    (ok : (w.processConnection server i now).1 = true) :
    Ready server i (k'.sockets i).taken (w.processConnection server i now).2 := by
  obtain ⟨ticks, clock, serves⟩ := call.serves
  have reads : Reads i w (w.processConnection server i now).2 w.env.recvs used ticks k mid :=
    ⟨call.recvs, clock, serves⟩
  rw [(call.later.sockets i).taken]
  have untouched := (attend_turns server (i := i) w now).untouched
  have attended := attend_ready ready before
  rw [processConnection_eq] at reads ok ⊢
  dsimp only at reads ok ⊢
  split
  · rename_i shut
    rw [if_pos shut] at reads
    rw [reads.still rfl]
    exact ready
  · rename_i opened
    rw [if_neg opened] at reads ok
    generalize w.attend server i now = attention at untouched attended reads ok ⊢
    split
    · rename_i failed
      rw [failed] at ok
      cases ok
    · rename_i finished
      rw [finished] at reads
      rw [reads.still untouched.recvs]
      exact attended
    · rename_i goes
      rw [goes] at reads ok
      dsimp only at reads ok
      refine processLeftover_ready ?_ ok
      intro fine
      have taken := reads.taken
      have clock := reads.clock
      have leftover := (processLeftover_turns server (i := i) (if !(attention.2.conn i).upgraded then
        attention.2.processHandshake server i else (true, attention.2))).untouched
      rw [leftover.recvs] at taken
      rw [leftover.clock] at clock
      split
      · rename_i fresh
        rw [if_pos fresh] at taken clock fine
        simp only [Bool.not_eq_true'] at fresh
        refine handshakeLoop_ready _ rfl fresh past attended.kept ⟨?_, ?_, serves⟩ fine
        · exact untouched.recvs.trans taken
        · exact untouched.clock.trans clock
      · rename_i upgraded
        rw [if_neg upgraded] at taken clock
        have none : Reads i w attention.2 w.env.recvs used ticks k mid := ⟨taken, clock, serves⟩
        rw [none.still untouched.recvs]
        exact attended

end World

/-! ## Along a run -/

/-- The reading of the clock that a step goes by is no earlier than what has been read before. -/
def Site.Clocked (m : Site) : Prop :=
  match m.phase with
  | .waiting | .served => True
  | .serving _ nowUsec => ∀ i, ∀ a ∈ (m.kernel.sockets i).taken, a.time ≤ nowUsec
  | .scanning nowUsec rest => rest.Nodup ∧ ∀ i ∈ rest, i < m.world.nextConnectionId ∧
      ∀ a ∈ (m.kernel.sockets i).taken, a.time ≤ nowUsec

/-- Each connection remembers what has been read from its socket. -/
structure Attentive (server : Server) (listener : Nat) (m : Site) : Prop where
  tidy : Tidy False server (some listener) m.world.toHub
  past : ∀ i, m.kernel.Past i
  untaken : ∀ i, m.world.nextConnectionId ≤ i → (m.kernel.sockets i).taken = []
  ready : ∀ i, i < m.world.nextConnectionId →
    World.Ready server i (m.kernel.sockets i).taken m.world
  clocked : m.Clocked

section

variable {server : Server} {listener : Nat} {m m' : Site} {label : Label}

theorem World.Ready.others {w w' : World} {i j : ConnId} {taken : List Arrival}
    (ready : World.Ready server j taken w) (tends : Tends i w w') (other : j ≠ i) :
    World.Ready server j taken w' := by
  obtain ⟨keeps, reads⟩ := tends.others j other
  have buffer : w'.buffer j = w.buffer j := congrArg ReadSide.buffer reads
  refine ⟨?_, ?_⟩
  · rw [buffer]
    exact ready.kept.keeps keeps
  · intro reading
    rw [buffer]
    exact ready.level ((keeps.live reading.live).reading (keeps.upgraded.symm.trans reading.2.2))

/-- What a call for one connection keeps for all of them. -/
theorem Kernel.Call.attentive {w w' : World} {k mid k' : Kernel} {i : ConnId}
    {used : List RecvResult} (call : Kernel.Call i w w' used k mid k') (tends : Tends i w w')
    (born : i < w.nextConnectionId) (past : ∀ j, k.Past j)
    (untaken : ∀ j, w.nextConnectionId ≤ j → (k.sockets j).taken = [])
    (ready : ∀ j, j < w.nextConnectionId → World.Ready server j (k.sockets j).taken w)
    (own : World.Ready server i (k'.sockets i).taken w') :
    (∀ j, k'.Past j) ∧ (∀ j, j ≠ i → (k'.sockets j).taken = (k.sockets j).taken) ∧
      (∀ j, w'.nextConnectionId ≤ j → (k'.sockets j).taken = []) ∧
      ∀ j, j < w'.nextConnectionId → World.Ready server j (k'.sockets j).taken w' := by
  obtain ⟨ticks, -, serves⟩ := call.serves
  have same (j : ConnId) (other : j ≠ i) : (k'.sockets j).taken = (k.sockets j).taken :=
    (call.later.sockets j).taken.trans (serves.others other).taken
  refine ⟨?_, same, ?_, ?_⟩
  · intro j
    exact (serves.past (past j)).grows (call.later.sockets j) call.later.time
  · intro j fresh
    rw [tends.next] at fresh
    rw [same j (Nat.ne_of_gt (Nat.lt_of_lt_of_le born fresh))]
    exact untaken j fresh
  · intro j before
    by_cases own' : j = i
    · rw [own']
      exact own
    · rw [tends.next] at before
      rw [same j own']
      exact (ready j before).others tends own'

theorem Admits.ready {w w' : World} {i : ConnId} {taken : List Arrival}
    (admits : Admits w w') (old : i < w.nextConnectionId → World.Ready server i taken w)
    (new : w.nextConnectionId ≤ i → taken = []) (born : i < w'.nextConnectionId) :
    World.Ready server i taken w' := by
  rcases Nat.lt_or_ge i w.nextConnectionId with before | since
  · obtain ⟨conn, reads⟩ := admits.old i before
    have buffer : w'.buffer i = w.buffer i := congrArg ReadSide.buffer reads
    obtain ⟨kept, level⟩ := old before
    rw [← conn, ← buffer] at kept level
    exact ⟨kept, level⟩
  · obtain ⟨upgraded, awaiting, empty⟩ := admits.fresh i since born
    rw [new since]
    apply World.Ready.fresh _ upgraded
    refine ⟨?_, fun _ _ => ⟨awaiting, empty.symm⟩, ?_⟩
    · intro _ a member
      exact absurd member List.not_mem_nil
    · intro reading
      exact absurd (upgraded.symm.trans reading.2.2) Bool.false_ne_true

theorem Kernel.report_taken (k : Kernel) (w : World) (fd : Nat) (i : ConnId) :
    ((k.report w fd).sockets i).taken = (k.sockets i).taken ∧
      ((k.report w fd).sockets i).arrived = (k.sockets i).arrived := by
  simp only [Kernel.report]
  split <;> exact ⟨rfl, rfl⟩

theorem Attentive.step (attentive : Attentive server listener m) (step : Site.Step server m label m') :
    Attentive server listener m' := by
  obtain ⟨tidy, past, untaken, ready, clocked⟩ := attentive
  cases step with
  | @arrive w k k' phase grows =>
      have taken (i : ConnId) : (k'.sockets i).taken = (k.sockets i).taken := (grows.sockets i).taken
      refine ⟨tidy, fun i => (past i).grows (grows.sockets i) grows.time, ?_, ?_, ?_⟩
      · intro i fresh
        exact (taken i).trans (untaken i fresh)
      · intro i before
        rw [taken]
        exact ready i before
      · cases phase with
        | waiting | served => trivial
        | serving => simpa only [Site.Clocked, taken] using clocked
        | scanning => simpa only [Site.Clocked, taken] using clocked
  | interrupt => exact ⟨tidy.env rfl, past, untaken, fun i before => (ready i before).setErrno _, trivial⟩
  | timeout => exact ⟨tidy, past, untaken, ready, trivial⟩
  | @listener w k mid k' fd used going listening unused ok accepts =>
      have admits := @World.acceptLoop_admits server w.env.accepts 0 w
      have served := accepts.served.sockets
      have taken (i : ConnId) : (k'.sockets i).taken = (k.sockets i).taken :=
        (accepts.later.sockets i).taken.trans (served i).taken
      refine ⟨World.acceptLoop_tidy _ _ tidy unused, ?_, ?_, ?_,
        trivial⟩
      · intro i
        have first : mid.Past i := (past i).grows (served i) accepts.served.time
        exact first.grows (accepts.later.sockets i) accepts.later.time
      · intro i fresh
        exact (taken i).trans (untaken i (admits.next.trans fresh))
      · intro i before
        rw [taken]
        exact admits.ready (ready i) (untaken i) before
  | @ready w k k' fd clock going other reported readable =>
      have same (i : ConnId) : (k'.sockets i).taken = (k.sockets i).taken ∧
          (k'.sockets i).arrived = (k.sockets i).arrived ∧ k'.time = k.time := by
        rcases reported with rfl | rfl
        · exact ⟨(k.report_taken w fd i).1, (k.report_taken w fd i).2, rfl⟩
        · exact ⟨rfl, rfl, rfl⟩
      refine ⟨tidy.now, ?_, ?_, ?_, ?_⟩
      · intro i
        rw [Kernel.Past, (same i).2.1, (same i).2.2]
        exact past i
      · intro i fresh
        exact (same i).1.trans (untaken i fresh)
      · intro i before
        rw [(same i).1]
        exact ⟨(ready i before).kept, (ready i before).level⟩
      · intro i a member
        rw [(same i).1] at member
        exact (past i).taken a member
  | absent => exact ⟨tidy, past, untaken, ready, trivial⟩
  | @serve w k mid k' fd nowUsec i used found ok call =>
      have heeds := World.serveReady_heeds server (i := i) w nowUsec
      have born := tidy.known i (World.findFd_eq_some found).1
      have own := World.serveReady_ready (ready i born) (past i) (clocked i) call ok
      obtain ⟨past', -, untaken', ready'⟩ := call.attentive heeds.tends born past untaken ready own
      exact ⟨tidy.heeds heeds, past', untaken', ready', trivial⟩
  | @scan w k clock readable =>
      refine ⟨tidy.now, past, untaken, fun i before => ⟨(ready i before).kept, (ready i before).level⟩,
        tidy.nodup, fun i member => ⟨tidy.known i member, (past i).taken⟩⟩
  | @check w k mid k' nowUsec i rest used ok call =>
      have heeds := World.processConnection_heeds server (i := i) w nowUsec
      obtain ⟨nodup, known⟩ := clocked
      obtain ⟨born, before⟩ := known i List.mem_cons_self
      have own := World.processConnection_ready (ready i born) (past i) before call ok
      obtain ⟨past', same, untaken', ready'⟩ := call.attentive heeds.tends born past untaken ready own
      refine ⟨tidy.heeds heeds, past', untaken', ready', (List.nodup_cons.mp nodup).2, ?_⟩
      intro j member
      have other : j ≠ i := fun equal => (List.nodup_cons.mp nodup).1 (equal ▸ member)
      obtain ⟨born', before'⟩ := known j (List.mem_cons_of_mem _ member)
      refine ⟨heeds.tends.next ▸ born', ?_⟩
      rw [same j other]
      exact before'
  | @purge w k nowUsec ok =>
      have steady := w.purgeFrom_steady server w.connections.length 0
      refine ⟨tidy.purgeFrom _ _, past, ?_, ?_, trivial⟩
      · intro i fresh
        exact untaken i (steady.next ▸ fresh)
      · intro i before
        exact (ready i (steady.next ▸ before)).of_steady steady

theorem Site.Starts.attentive (start : m.Starts listener) : Attentive server listener m := by
  have prompt : Prompt server listener m := start.prompt
  obtain ⟨⟨w, idle, -, world⟩, untaken, -, -, past, phase⟩ := start
  refine ⟨prompt.tidy, fun i a member => past i a ?_, fun i _ => untaken i, fun i _ => .closed ?_, ?_⟩
  · rwa [Inbox.arrived, untaken i, List.nil_append] at member
  · rw [world]
    exact (idle.closed i).1
  · rw [Site.Clocked, phase]
    trivial

/-- What has been read has been heeded: only what waits in the socket can have come in time for
    a timeout that is over. -/
theorem Attentive.heeded (attentive : Attentive server listener m)
    (step : Site.Step server m label m') {i : ConnId} {now : Nat} (checks : Checks m label i now)
    (opened : (m.world.conn i).isOpen = true) {timeout : Timeout}
    (ended : Over server.options (m.world.conn i) now timeout)
    (heard : HeardInTime server (m.world.conn i) (m.kernel.sockets i).arrived 0 timeout) :
    HeardInTime server (m.world.conn i) (m.kernel.sockets i).arrived
      (m.kernel.sockets i).taken.length timeout := by
  have born : i < m.world.nextConnectionId := by
    cases checks with
    | served =>
        cases step with
        | serve found => exact attentive.tidy.known i (World.findFd_eq_some found).1
    | checked =>
        cases step with
        | check => exact (attentive.clocked.2 i List.mem_cons_self).1
  have ready := attentive.ready i born
  rw [Inbox.arrived] at heard ⊢
  cases timeout with
  | idle =>
      obtain ⟨a, member, within⟩ := heard
      rw [List.drop_zero] at member
      refine ⟨a, ?_, within⟩
      rw [List.drop_left]
      rcases List.mem_append.mp member with old | new
      · have active := ready.kept.activity opened a old
        have seen : (m.world.conn i).lastActivityUsec ≤ (m.world.conn i).lastSeenUsec := by
          unfold Connection.lastSeenUsec
          split <;> omega
        exact absurd within.1 (Nat.not_lt.mpr (active.trans seen))
      · exact new
  | pong =>
      obtain ⟨time, reached, within⟩ := heard
      refine ⟨time, ?_, within⟩
      rcases reached.split with old | new
      · have heard := (ready.kept.heard ended.2.reading).no_pong (ready.level ended.2.reading)
          ended.2.awaiting old
        exact absurd within.1 (Nat.not_lt.mpr heard)
      · exact new

theorem Attentive.timely_iff (attentive : Attentive server listener m)
    (step : Site.Step server m label m') : Timely server m label ↔ Late server m label := by
  rw [Timely, accounts_iff, Late]
  constructor
  · intro timely i now checks opened upgraded timeout ended heard
    exact timely i now checks opened upgraded timeout ended heard.anywhere
  · intro late i now checks opened upgraded timeout ended heard
    exact late i now checks opened upgraded timeout ended
      (attentive.heeded step checks opened ended heard)

theorem Attentive.fair_iff (attentive : Attentive server listener m)
    (step : Site.Step server m label m') : Fair server m label ↔ Looks server m label := by
  rw [Fair, accounts_iff, Looks]
  constructor
  · intro fair i now checks opened upgraded timeout ended
    exact (fair i now checks opened upgraded timeout ended).2
  · intro looks i now checks opened upgraded timeout ended
    have empty := looks i now checks opened upgraded timeout ended
    exact ⟨fun heard => HeardInTime.waits empty (attentive.heeded step checks opened ended heard),
      empty⟩

theorem Attentive.walk {meets : Site → Label → Site → Prop} (attentive : Attentive server listener m)
    (walk : Site.Walk server meets m m') : Attentive server listener m' := by
  induction walk with
  | start => exact attentive
  | step _ step _ ih => exact ih.step step

/-- What the steps of attentive servers have alike, their walks have. -/
theorem Attentive.walk_iff {meets other : Site → Label → Prop} (attentive : Attentive server listener m)
    (same : ∀ {a b : Site} {label : Label}, Attentive server listener a →
      Site.Step server a label b → (meets a label ↔ other a label)) :
    Site.Walk server (fun a label _ => meets a label) m m' ↔
      Site.Walk server (fun a label _ => other a label) m m' := by
  constructor
  · intro walk
    induction walk with
    | start => exact .start _
    | step walk step met ih => exact ih.step step ((same (attentive.walk walk) step).mp met)
  · intro walk
    induction walk with
    | start => exact .start _
    | step walk step met ih => exact ih.step step ((same (attentive.walk walk) step).mpr met)

end

/-! ## One client -/

theorem Early.looks {server : Server} {m : Site} {label : Label} (early : Early m label) :
    Looks server m label := by
  intro i now checks _ upgraded
  cases checks with
  | served | checked => exact absurd (Eq.trans (Eq.symm early) upgraded) Bool.false_ne_true

theorem Welcomed.times_out {w : World} {protocol : Option Bytes} (welcomed : Welcomed w protocol [])
    (k : Kernel) :
    Site.Step openServer ⟨w, k, .scanning 120000001 [0]⟩ (.checked 0 [] k)
        ⟨(w.processConnection openServer 0 120000001).2, k, .scanning 120000001 []⟩ ∧
      Closes openServer w 0 120000001 .idle ∧ (w.conn 0).isOpen = true ∧
      (w.conn 0).upgraded = true ∧ (w.conn 0).lastSeenUsec = 1 ∧
      ¬ ((w.processConnection openServer 0 120000001).2.conn 0).Live := by
  obtain ⟨opened, upgraded, seen⟩ : (w.conn 0).isOpen = true ∧
      (w.conn 0).upgraded = true ∧ (w.conn 0).lastSeenUsec = 1 := by
    rw [welcomed.conn]
    exact ⟨rfl, rfl, rfl⟩
  have limit : openServer.options.idleTimeoutUsec = 120000000 := by decide +kernel
  have closes : Closes openServer w 0 120000001 .idle := by
    apply World.attend_idle upgraded
    simp [Over, upgraded, connectionExpired, seen, limit]
  have checked : w.processConnection openServer 0 120000001 =
      (true, { w with toHub := (w.closeWithCode 0 closeNormal "idle timeout").2 }) := by
    rw [World.processConnection, opened, closes.2]
    rfl
  have same := (w.closeWithCode_calm 0 closeNormal "idle timeout").ops.steady
  refine ⟨?_, closes, opened, upgraded, seen, ?_⟩
  · refine @Site.Step.check openServer w k k k 120000001 0 [] [] ?_
      ⟨?_, ?_, ⟨[], ?_, .done _⟩, Kernel.Grows.refl _⟩
    · rw [checked]
    · rw [checked]
      exact same.env.recvs.symm
    · rw [checked]
      exact ne_of_eq_of_ne (same.env.recvs.trans welcomed.recvs) (List.cons_ne_nil _ _)
    · rw [checked]
      exact same.env.clock.symm
  · rw [checked]
    exact Hub.closeWithCode_not_live w.toHub upgraded closeNormal "idle timeout"

/-- The client of `hello` has been upgraded at the time 1. When its idle timeout is over, the
    octets `fresh` are in the socket. -/
theorem hello_idle (fresh : List Arrival) (since : ∀ a ∈ fresh, 1 ≤ a.time ∧ a.time ≤ 120000001) :
    ∃ w k, ∃ m' : Site, Site.Walk openServer (fun a label _ => Early a label)
        (hello sampleRequestChunk [120000001]) ⟨w, k, .scanning 120000001 [0]⟩ ∧
      Site.Step openServer ⟨w, k, .scanning 120000001 [0]⟩ (.checked 0 [] k) m' ∧
      Closes openServer w 0 120000001 .idle ∧ (w.conn 0).isOpen = true ∧
      (w.conn 0).upgraded = true ∧ (w.conn 0).lastSeenUsec = 1 ∧
      (k.sockets 0).waiting = fresh ∧ ¬ (m'.world.conn 0).Live := by
  obtain ⟨upgrade, asks, part⟩ := sampleRequestChunk_asks
  obtain ⟨w, k, walked, welcomed, time, socket⟩ :=
    @hello_served sampleRequestChunk upgrade [120000001] [] asks part
  have walk := walked.mono fun _ _ _ both => both.1
  let later : Kernel := { k.setSocket 0 ((k.sockets 0).arrive fresh) with time := 120000001 }
  have own : later.sockets 0 = (k.sockets 0).arrive fresh := k.setSocket_self 0 _
  have waiting : (later.sockets 0).waiting = fresh := by
    rw [own, Inbox.arrive, socket]
    rfl
  have arrives : Site.Step openServer ⟨w, k, .served⟩ .quiet ⟨w, later, .served⟩ := by
    refine .arrive ⟨?_, ?_, Inbox.Grows.refl _⟩
    · rw [time]
      exact Nat.one_le_ofNat
    · intro i
      by_cases first : i = 0
      · rw [first, own]
        exact ⟨fresh, fun a member => time ▸ since a member, rfl⟩
      · rw [show later.sockets i = k.sockets i from k.setSocket_other first _]
        exact Inbox.Grows.refl _
  have scans : Site.Step openServer ⟨w, later, .served⟩ .quiet
      ⟨w.tick, later, .scanning 120000001 [0]⟩ := by
    have step := @Site.Step.scan openServer w later [] welcomed.clock
    rw [welcomed.connections] at step
    exact step
  obtain ⟨checks, closes, opened, upgraded, seen, ended⟩ := welcomed.tick.times_out later
  exact ⟨w.tick, later, _, (walk.step arrives trivial).step scans trivial, checks, closes, opened,
    upgraded, seen, waiting, ended⟩

/-- In every run, the checks time out nobody who has been heard, nor with octets in the socket, if
    and only if the socket is empty where a timeout is over; and nobody who has been heard if and
    only if what waits in the socket there has not come in time. -/
theorem timeouts_fair_iff {server : Server} {listener : Nat} {m m' : Site} (start : m.Starts listener) :
    (Site.Walk server (fun a label _ => Fair server a label) m m' ↔
      Site.Walk server (fun a label _ => Looks server a label) m m') ∧
    (Site.Walk server (fun a label _ => Timely server a label) m m' ↔
      Site.Walk server (fun a label _ => Late server a label) m m') := by
  have attentive : Attentive server listener m := start.attentive
  exact ⟨attentive.walk_iff fun attentive step => attentive.fair_iff step,
    attentive.walk_iff fun attentive step => attentive.timely_iff step⟩

/-- A client that sends nothing is timed out. -/
theorem timeouts_fair_iff_silent : ∃ m, (hello sampleRequestChunk [120000001]).Starts 3 ∧
    Site.Walk openServer (fun a label _ => Fair openServer a label)
      (hello sampleRequestChunk [120000001]) m ∧
    ¬ (m.world.conn 0).Live := by
  obtain ⟨w, k, m', walk, step, -, -, -, -, empty, closed⟩ := hello_idle [] (by simp)
  refine ⟨m', hello_starts _ _, (timeouts_fair_iff (hello_starts _ _)).1.mpr ?_, closed⟩
  apply (walk.mono fun _ _ _ early => early.looks).step step
  intro i now checks _ _ timeout _
  cases checks
  exact empty

/-- An octet reaches the socket in the 100th second of the idle timeout, and the check at its
    end closes the connection. -/
theorem waiting_octet_ignored : ∃ m label m', (hello sampleRequestChunk [120000001]).Starts 3 ∧
    Site.Walk openServer (fun _ _ _ => True) (hello sampleRequestChunk [120000001]) m ∧
    Site.Step openServer m label m' ∧ Checks m label 0 120000001 ∧
    Closes openServer m.world 0 120000001 .idle ∧
    (∃ a ∈ (m.kernel.sockets 0).waiting,
      Within openServer.options.idleTimeoutMs (m.world.conn 0).lastSeenUsec a.time) ∧
    ¬ Timely openServer m label ∧ ¬ Fair openServer m label ∧ ¬ (m'.world.conn 0).Live := by
  let octet : Arrival := ⟨0x89, 100000000⟩
  obtain ⟨w, k, m', walk, step, closes, opened, upgraded, seen, waits, closed⟩ :=
    hello_idle [octet] (by simp [octet])
  have checks : Checks ⟨w, k, .scanning 120000001 [0]⟩ (.checked 0 [] k) 0 120000001 := .checked
  have waiting : octet ∈ (k.sockets 0).waiting := by
    rw [waits]
    exact List.mem_singleton_self octet
  have within : Within openServer.options.idleTimeoutMs (w.conn 0).lastSeenUsec octet.time := by
    have limit : openServer.options.idleTimeoutMs = 120000 := by decide +kernel
    rw [seen, limit]
    exact ⟨by decide, by decide⟩
  have untimely : ¬ Timely openServer ⟨w, k, .scanning 120000001 [0]⟩ (.checked 0 [] k) := by
    intro timely
    refine accounts_iff.mp timely 0 120000001 checks opened upgraded .idle closes.1 ⟨octet, ?_, within⟩
    exact List.mem_append_right _ waiting
  refine ⟨_, _, m', hello_starts _ _, walk.mono fun _ _ _ _ => trivial, step, checks, closes,
    ⟨octet, waiting, within⟩, untimely, fun fair => untimely ?_, closed⟩
  intro i now checked isOpen isUpgraded
  exact (fair i now checked isOpen isUpgraded).imp_right fun ⟨timeout, shut, unheard, _⟩ =>
    ⟨timeout, shut, unheard⟩

end PhpWebSocket
