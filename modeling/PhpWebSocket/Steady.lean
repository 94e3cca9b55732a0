import PhpWebSocket.Operations
import PhpWebSocket.Rounds

/-! # What service leaves alone

An operation reads no answer of `recv`, `accept` or the clock, reopens nothing, and changes
neither the time of the last activity nor, but to forget it, a Ping that is waited for. So
while one connection is served, another can at most be closed or sent to.
-/

namespace PhpWebSocket

open Relation

/-- The answers that only the loops ask for are still there. -/
structure Env.Untouched (env env' : Env) : Prop where
  recvs : env'.recvs = env.recvs
  accepts : env'.accepts = env.accepts
  clock : env'.clock = env.clock

/-- A change that reopens nothing and hears nothing. -/
structure Connection.Keeps (a b : Connection) : Prop where
  isOpen : b.isOpen = true → a.isOpen = true
  closing : b.isOpen = true → a.closeAfterWrite = true → b.closeAfterWrite = true
  upgraded : b.upgraded = a.upgraded
  fd : b.isOpen = true → b.fd = a.fd
  activity : b.isOpen = true → b.lastActivityUsec = a.lastActivityUsec
  pong : b.awaitingPong = true → a.awaitingPong = true ∧ b.lastPingUsec = a.lastPingUsec

/-- Open, and not about to close. -/
def Connection.Live (conn : Connection) : Prop :=
  conn.isOpen = true ∧ conn.closeAfterWrite = false

theorem Connection.Reading.live {conn : Connection} (reading : conn.Reading) : conn.Live :=
  ⟨reading.1, reading.2.1⟩

theorem Connection.Live.reading {conn : Connection} (live : conn.Live) (upgraded : conn.upgraded = true) :
    conn.Reading := ⟨live.1, live.2, upgraded⟩

structure Link.Keeps (a b : Link) : Prop where
  conn : a.conn.Keeps b.conn
  env : a.env.Untouched b.env

structure Steady (h h' : Hub) : Prop where
  conns : ∀ i, (h.conn i).Keeps (h'.conn i)
  env : h.env.Untouched h'.env
  next : h'.nextConnectionId = h.nextConnectionId

theorem Env.Untouched.refl (env : Env) : env.Untouched env := ⟨rfl, rfl, rfl⟩

theorem Env.Untouched.trans {env env' env'' : Env} (first : env.Untouched env')
    (next : env'.Untouched env'') : env.Untouched env'' :=
  ⟨next.recvs.trans first.recvs, next.accepts.trans first.accepts, next.clock.trans first.clock⟩

namespace Connection

variable {a b c : Connection}

theorem Keeps.refl (a : Connection) : a.Keeps a :=
  ⟨id, fun _ => id, rfl, fun _ => rfl, fun _ => rfl, fun awaiting => ⟨awaiting, rfl⟩⟩

theorem Keeps.trans (first : a.Keeps b) (next : b.Keeps c) : a.Keeps c where
  isOpen opened := first.isOpen (next.isOpen opened)
  closing opened closing := next.closing opened (first.closing (next.isOpen opened) closing)
  upgraded := next.upgraded.trans first.upgraded
  fd opened := (next.fd opened).trans (first.fd (next.isOpen opened))
  activity opened := (next.activity opened).trans (first.activity (next.isOpen opened))
  pong awaiting := by
    obtain ⟨awaited, same⟩ := next.pong awaiting
    exact ⟨(first.pong awaited).1, same.trans (first.pong awaited).2⟩

theorem Keeps.live (keeps : a.Keeps b) (live : b.Live) : a.Live := by
  refine ⟨keeps.isOpen live.1, Bool.eq_false_iff.mpr ?_⟩
  intro closing
  exact Bool.false_ne_true (live.2.symm.trans (keeps.closing live.1 closing))

theorem Keeps.write (a : Connection) {isOpen : Bool} (closes : isOpen = true → a.isOpen = true)
    (writeQueue : List Bytes) (writeQueueOffset queuedBytes : Nat) (writeWatched : Bool)
    (wire : Bytes) :
    a.Keeps { a with isOpen, writeQueue, writeQueueOffset, queuedBytes, writeWatched, wire } :=
  ⟨closes, fun _ => id, rfl, fun _ => rfl, fun _ => rfl, fun awaiting => ⟨awaiting, rfl⟩⟩

theorem keeps_closeSocket (a : Connection) : a.Keeps a.closeSocket :=
  ⟨nofun, nofun, rfl, nofun, nofun, nofun⟩

theorem keeps_mark (mark : Mark a b) : a.Keeps b := by
  cases mark with
  | shut => exact ⟨nofun, nofun, rfl, fun _ => rfl, fun _ => rfl, fun awaiting => ⟨awaiting, rfl⟩⟩
  | pong => exact ⟨id, fun _ => id, rfl, fun _ => rfl, fun _ => rfl, nofun⟩
  | fragment | notified | defer =>
      exact ⟨id, fun _ => id, rfl, fun _ => rfl, fun _ => rfl, fun awaiting => ⟨awaiting, rfl⟩⟩

end Connection

/-! ## The functions of a connection -/

namespace Link

theorem Keeps.refl (link : Link) : link.Keeps link :=
  ⟨Connection.Keeps.refl _, Env.Untouched.refl _⟩

theorem Keeps.trans {a b c : Link} (first : a.Keeps b) (next : b.Keeps c) : a.Keeps c :=
  ⟨first.conn.trans next.conn, first.env.trans next.env⟩

theorem closeSocket_keeps (link : Link) : link.Keeps link.closeSocket := by
  refine ⟨link.conn.keeps_closeSocket, ?_⟩
  unfold closeSocket
  split <;> exact ⟨rfl, rfl, rfl⟩

theorem closeAfterWrite_keeps (link : Link) : link.Keeps link.closeAfterWrite := by
  unfold closeAfterWrite
  split
  · exact Keeps.refl _
  · split
    · exact link.closeSocket_keeps
    · exact ⟨⟨id, fun _ _ => rfl, rfl, fun _ => rfl, fun _ => rfl, fun awaiting => ⟨awaiting, rfl⟩⟩,
        ⟨rfl, rfl, rfl⟩⟩

theorem watchWrite_untouched (env : Env) (fd : Option Nat) : env.Untouched (env.watchWrite fd).2 := by
  unfold Env.watchWrite
  split <;> exact ⟨rfl, rfl, rfl⟩

theorem queueFrame_keeps (link : Link) (frame : Bytes) (offset : Nat) :
    link.Keeps (link.queueFrame frame offset).2 := by
  simp only [queueFrame]
  split
  · exact ⟨Connection.Keeps.refl _, ⟨rfl, rfl, rfl⟩⟩
  · split
    · split <;> exact ⟨.write _ id _ _ _ _ _, watchWrite_untouched _ _⟩
    · exact ⟨.write _ id _ _ _ _ _, Env.Untouched.refl _⟩

theorem settle_keeps (result : Bool × Link) : result.2.Keeps (settle result).2 := by
  unfold settle
  split
  · exact ⟨Connection.keeps_mark (.shut _), Env.Untouched.refl _⟩
  · exact Keeps.refl _

theorem wrote_keeps (link : Link) (frame : Bytes) (offset : Nat) (w : Written) :
    link.Keeps (link.wrote frame offset w) := ⟨.write _ id _ _ _ _ _, ⟨rfl, rfl, rfl⟩⟩

theorem sendFrame_keeps (link : Link) (payload : Bytes) (opcode : UInt8) :
    link.Keeps (link.sendFrame payload opcode).2 := by
  simp only [sendFrame, packPayload_server]
  split
  · exact Keeps.refl _
  · split
    · exact ⟨Connection.Keeps.refl _, ⟨rfl, rfl, rfl⟩⟩
    · split
      · exact (queueFrame_keeps _ _ _).trans (settle_keeps _)
      · split
        · exact ((wrote_keeps _ _ _ _).trans (queueFrame_keeps _ _ _)).trans (settle_keeps _)
        · exact (wrote_keeps _ _ _ _).trans (settle_keeps (_, _))

theorem flushLoop_keeps (queue : List Bytes) (link : Link) : link.Keeps (flushLoop queue link).2 := by
  induction queue generalizing link with
  | nil => exact Keeps.refl _
  | cons frame rest ih =>
      simp only [flushLoop]
      split
      · exact ⟨.write _ (fun opened => absurd opened Bool.false_ne_true) _ _ _ _ _, ⟨rfl, rfl, rfl⟩⟩
      · split
        · exact ⟨.write _ id _ _ _ _ _, ⟨rfl, rfl, rfl⟩⟩
        · refine Keeps.trans ?_ (ih _)
          exact ⟨.write _ id _ _ _ _ _, ⟨rfl, rfl, rfl⟩⟩

theorem flush_keeps (link : Link) : link.Keeps link.flush.2 := by
  have looped := flushLoop_keeps link.conn.writeQueue link
  simp only [flush]
  split
  · exact Keeps.refl _
  · cases (flushLoop link.conn.writeQueue link).1 with
    | broken | blocked => exact looped
    | drained =>
        have unwatched (link : Link) : link.Keeps
            { conn := { link.conn with writeWatched := false }
              env := link.env.unwatchWrite link.conn.fd } :=
          ⟨.write _ id _ _ _ _ _, ⟨rfl, rfl, rfl⟩⟩
        apply looped.trans
        dsimp only
        split <;> split
        · exact (unwatched _).trans (closeSocket_keeps _)
        · exact unwatched _
        · exact closeSocket_keeps _
        · exact Keeps.refl _

theorem flushLoop_broken {queue : List Bytes} {link : Link}
    (broken : (flushLoop queue link).1 = .broken) : (flushLoop queue link).2.conn.isOpen = false := by
  induction queue generalizing link with
  | nil => cases broken
  | cons frame rest ih =>
      simp only [flushLoop] at broken ⊢
      split
      · rfl
      · rename_i went
        rw [if_neg went] at broken
        split
        · rename_i part
          rw [if_pos part] at broken
          cases broken
        · rename_i whole
          rw [if_neg whole] at broken
          exact ih broken

/-- A connection with a descriptor is shut when its flush fails. -/
theorem flush_failed {link : Link} (failed : link.flush.1 = false) (held : link.conn.fd ≠ none) :
    link.flush.2.conn.isOpen = false := by
  simp only [flush] at failed ⊢
  split at failed
  · rename_i closed
    rw [if_pos closed]
    simp only [Bool.or_eq_true, Bool.not_eq_true', Option.isNone_iff_eq_none] at closed
    exact closed.resolve_right held
  · rename_i opened
    rw [if_neg opened]
    cases looped : (flushLoop link.conn.writeQueue link).1 with
    | blocked | drained =>
        rw [looped] at failed
        cases failed
    | broken => exact flushLoop_broken looped

end Link

/-! ## Operations -/

namespace Steady

variable {h h' h'' : Hub}

theorem refl (h : Hub) : Steady h h :=
  ⟨fun _ => Connection.Keeps.refl _, Env.Untouched.refl _, rfl⟩

theorem trans (first : Steady h h') (next : Steady h' h'') : Steady h h'' :=
  ⟨fun i => (first.conns i).trans (next.conns i), first.env.trans next.env,
    next.next.trans first.next⟩

end Steady

namespace Hub

variable {h : Hub} {i : ConnId}

theorem relink_steady {link : Link} (keeps : (h.link i).Keeps link) : Steady h (h.relink i link) := by
  refine ⟨?_, keeps.env, rfl⟩
  intro j
  by_cases same : j = i
  · rw [same, conn_relink]
    exact keeps.conn
  · rw [show (h.relink i link).conn j = h.conn j from Function.update_of_ne same ..]
    exact Connection.Keeps.refl _

theorem setConn_steady {conn : Connection} (keeps : (h.conn i).Keeps conn) :
    Steady h (h.setConn i conn) :=
  relink_steady (show (h.link i).Keeps ⟨conn, h.env⟩ from ⟨keeps, Env.Untouched.refl _⟩)

theorem env_steady {env : Env} (untouched : h.env.Untouched env) : Steady h { h with env } :=
  ⟨fun _ => Connection.Keeps.refl _, untouched, rfl⟩

end Hub

theorem Op.steady {h h' : Hub} (op : Op h h') : Steady h h' := by
  cases op with
  | mark i mark => exact Hub.setConn_steady (Connection.keeps_mark mark)
  | closeSocket => exact Hub.relink_steady (Link.closeSocket_keeps _)
  | closeAfterWrite => exact Hub.relink_steady (Link.closeAfterWrite_keeps _)
  | flush => exact Hub.relink_steady (Link.flush_keeps _)
  | send => exact Hub.relink_steady (Link.sendFrame_keeps _ _ _)
  | respond fd text =>
      apply Hub.env_steady
      unfold Env.sendBytes
      split
      · split <;> exact ⟨rfl, rfl, rfl⟩
      · exact ⟨rfl, rfl, rfl⟩
  | emit | seen | stop => exact ⟨fun _ => Connection.Keeps.refl _, Env.Untouched.refl _, rfl⟩
  | raise => exact Hub.env_steady ⟨rfl, rfl, rfl⟩

theorem Ops.steady {h h' : Hub} (ops : Ops h h') : Steady h h' := by
  induction ops with
  | refl => exact Steady.refl _
  | tail _ op ih => exact ih.trans op.steady

/-! ## The service of one connection -/

/-- What the service of `i` leaves of the others, and of the world besides. -/
structure Tends (i : ConnId) (w w' : World) : Prop where
  others : ∀ j, j ≠ i → (w.conn j).Keeps (w'.conn j) ∧ w'.reads j = w.reads j
  live : (w'.conn i).Live → (w.conn i).Live
  upgraded : (w.conn i).upgraded = true → (w'.conn i).upgraded = true
  accepts : w'.env.accepts = w.env.accepts
  next : w'.nextConnectionId = w.nextConnectionId

namespace Tends

variable {i : ConnId} {w w' w'' : World}

theorem refl (w : World) : Tends i w w :=
  ⟨fun _ _ => ⟨Connection.Keeps.refl _, rfl⟩, id, id, rfl, rfl⟩

theorem trans (first : Tends i w w') (next : Tends i w' w'') : Tends i w w'' where
  others j other := ⟨(first.others j other).1.trans (next.others j other).1,
    (next.others j other).2.trans (first.others j other).2⟩
  live after := first.live (next.live after)
  upgraded before := next.upgraded (first.upgraded before)
  accepts := next.accepts.trans first.accepts
  next := next.next.trans first.next

theorem of_steady {h : Hub} (steady : Steady w.toHub h) : Tends i w { w with toHub := h } :=
  ⟨fun j _ => ⟨steady.conns j, rfl⟩, (steady.conns i).live,
    fun before => ((steady.conns i).upgraded).trans before, steady.env.accepts, steady.next⟩

theorem of_setConn {conn : Connection} (live : conn.Live → (w.conn i).Live)
    (upgraded : (w.conn i).upgraded = true → conn.upgraded = true) :
    Tends i w { w with toHub := w.setConn i conn } := by
  refine ⟨fun j other => ⟨?_, rfl⟩, ?_, ?_, rfl, rfl⟩
  · rw [show (w.setConn i conn).conn j = w.conn j from Function.update_of_ne other ..]
    exact Connection.Keeps.refl _
  · rw [Hub.conn_setConn]
    exact live
  · rw [Hub.conn_setConn]
    exact upgraded

end Tends

theorem Turn.tends {i : ConnId} {w w' : World} (turn : Turn i w w') : Tends i w w' := by
  cases turn with
  | op op => exact .of_steady op.steady
  | errno => exact .of_steady (Hub.env_steady ⟨rfl, rfl, rfl⟩)
  | reads side =>
      refine ⟨fun j other => ⟨Connection.Keeps.refl _, ?_⟩, id, id, rfl, rfl⟩
      exact Function.update_of_ne other ..
  | beat => exact .of_setConn id id
  | upgrade => exact .of_setConn id fun _ => rfl

theorem Turn.untouched {i : ConnId} {w w' : World} (turn : Turn i w w') :
    w.env.Untouched w'.env := by
  cases turn with
  | op op => exact op.steady.env
  | errno | reads | beat | upgrade => exact ⟨rfl, rfl, rfl⟩

theorem Turns.untouched {i : ConnId} {w w' : World} (turns : Turns i w w') :
    w.env.Untouched w'.env := by
  induction turns with
  | refl => exact Env.Untouched.refl _
  | tail _ turn ih => exact ih.trans turn.untouched

theorem Turns.tends {i : ConnId} {w w' : World} (turns : Turns i w w') : Tends i w w' := by
  induction turns with
  | refl => exact Tends.refl _
  | tail _ turn ih => exact ih.trans turn.tends

theorem World.tick_tends (i : ConnId) (w : World) : Tends i w w.tick := by
  refine ⟨fun _ _ => ⟨Connection.Keeps.refl _, rfl⟩, id, id, ?_, rfl⟩
  simp only [tick, Hub.now, Env.now]
  split <;> rfl

theorem Heed.tends {i : ConnId} {w w' : World} (heed : Heed i w w') : Tends i w w' := by
  cases heed with
  | turn turn => exact turn.tends
  | recvs => exact ⟨fun _ _ => ⟨Connection.Keeps.refl _, rfl⟩, id, id, rfl, rfl⟩
  | touch => exact (w.tick_tends i).trans (.of_setConn id id)

theorem Heeds.tends {i : ConnId} {w w' : World} (heeds : Heeds i w w') : Tends i w w' := by
  induction heeds with
  | refl => exact Tends.refl _
  | tail _ heed ih => exact ih.trans heed.tends

/-! ## The table -/

namespace Hub

variable (server : Server) {h : Hub}

theorem closeConnectionAt_steady (h : Hub) (index : Nat) (notify : Bool) :
    Steady h (h.closeConnectionAt server index notify).2 := by
  cases here : h.connections[index]? with
  | none =>
      rw [closeConnectionAt, here]
      exact Steady.refl h
  | some i =>
      have shut : Steady h (h.shut i) := (h.shut_calm i).op.steady
      have unwatched : (h.shut i).env.Untouched
          (if (h.conn i).fd.isSome then h.env.unwatch (h.conn i).fd else h.env) := by
        split <;> exact ⟨rfl, rfl, rfl⟩
      have gone : Steady h { h.shutDown i with connections := h.connections.eraseIdx index } :=
        shut.trans ⟨fun _ => Connection.Keeps.refl _, unwatched, rfl⟩
      rw [closeConnectionAt_eq here]
      dsimp only
      split
      · exact (gone.trans (notifyConnectionClosed_calm server _ i).ops.steady).trans
          (Op.closeSocket _ i).steady
      · exact gone.trans (Op.closeSocket _ i).steady

theorem purgeFrom_steady (fuel index : Nat) (h : Hub) :
    Steady h (h.purgeFrom server fuel index).2 := by
  induction fuel generalizing h index with
  | zero => exact Steady.refl h
  | succ fuel ih =>
      simp only [purgeFrom]
      split
      · exact Steady.refl h
      · have closed := h.closeConnectionAt_steady server index true
        split
        · split
          · exact closed.trans (ih index _)
          · exact closed
        · exact ih (index + 1) h

end Hub

/-- What `accept_pending` leaves of the connections there are, and how the new ones begin. -/
structure Admits (w w' : World) : Prop where
  old : ∀ j, j < w.nextConnectionId → w'.conn j = w.conn j ∧ w'.reads j = w.reads j
  fresh : ∀ j, w.nextConnectionId ≤ j → j < w'.nextConnectionId →
    (w'.conn j).upgraded = false ∧ (w'.conn j).awaitingPong = false ∧ w'.buffer j = []
  next : w.nextConnectionId ≤ w'.nextConnectionId
  recvs : w'.env.recvs = w.env.recvs

namespace Admits

variable {w w' w'' : World}

theorem of_same (conn : w'.conn = w.conn) (reads : w'.reads = w.reads)
    (next : w'.nextConnectionId = w.nextConnectionId) (recvs : w'.env.recvs = w.env.recvs) :
    Admits w w' := by
  refine ⟨fun j _ => ⟨congrFun conn j, congrFun reads j⟩, ?_, next.ge, recvs⟩
  intro j since below
  rw [next] at below
  exact absurd below (Nat.not_lt.mpr since)

theorem trans (first : Admits w w') (next : Admits w' w'') : Admits w w'' where
  old j before := by
    obtain ⟨conn, reads⟩ := next.old j (Nat.lt_of_lt_of_le before first.next)
    exact ⟨conn.trans (first.old j before).1, reads.trans (first.old j before).2⟩
  fresh j since below := by
    rcases Nat.lt_or_ge j w'.nextConnectionId with before | later
    · obtain ⟨conn, reads⟩ := next.old j before
      rw [conn, World.buffer, reads]
      exact first.fresh j since before
    · exact next.fresh j later below
  next := first.next.trans next.next
  recvs := next.recvs.trans first.recvs

end Admits

namespace World

variable {server : Server} {w : World}

theorem watchRead_recvs (env : Env) (fd : Nat) : (env.watchRead fd).2.recvs = env.recvs := by
  unfold Env.watchRead
  split <;> rfl

theorem now_recvs (env : Env) : env.now.2.recvs = env.recvs := by
  unfold Env.now
  split <;> rfl

theorem openConnection_admits (w : World) (fd : Nat) : Admits w (w.openConnection server fd).2 := by
  have reads : (w.openConnection server fd).2.reads = Function.update w.reads w.nextConnectionId {} := by
    simp only [openConnection]
    split <;> rfl
  have hub : (w.openConnection server fd).2.nextConnectionId = w.nextConnectionId + 1 ∧
      (∀ j, j ≠ w.nextConnectionId → (w.openConnection server fd).2.conn j = w.conn j) ∧
      ((w.openConnection server fd).2.conn w.nextConnectionId).upgraded = false ∧
      ((w.openConnection server fd).2.conn w.nextConnectionId).awaitingPong = false ∧
      (w.openConnection server fd).2.env.recvs = w.env.recvs := by
    have recvs : (w.env.now.2.watchRead fd).2.recvs = w.env.recvs := by
      rw [watchRead_recvs, now_recvs]
    have elsewhere (j : ConnId) (other : j ≠ w.nextConnectionId) :
        (w.newcomer server fd).conn j = w.conn j := Function.update_of_ne other ..
    have self : ((w.newcomer server fd).conn w.nextConnectionId).upgraded = false ∧
        ((w.newcomer server fd).conn w.nextConnectionId).awaitingPong = false := by
      simp [newcomer, Hub.enlisted, Connection.opened]
    cases watched : (w.env.now.2.watchRead fd).1 with
    | true =>
        rw [openConnection_watched watched]
        exact ⟨rfl, elsewhere, self.1, self.2, recvs⟩
    | false =>
        rw [openConnection_unwatched watched]
        have closed := (Op.closeSocket (w.newcomer server fd) w.nextConnectionId).steady
        refine ⟨rfl, ?_, ?_, ?_, closed.env.recvs.trans recvs⟩
        · intro j other
          exact (Function.update_of_ne other ..).trans (elsewhere j other)
        · exact (closed.conns _).upgraded.trans self.1
        · apply Bool.eq_false_iff.mpr
          intro awaiting
          exact Bool.false_ne_true (self.2.symm.trans ((closed.conns _).pong awaiting).1)
  obtain ⟨next, elsewhere, upgraded, awaiting, recvs⟩ := hub
  refine ⟨fun j before => ⟨elsewhere j (Nat.ne_of_lt before), ?_⟩, ?_,
    by rw [next]; exact Nat.le_succ _, recvs⟩
  · rw [reads]
    exact Function.update_of_ne (Nat.ne_of_lt before) ..
  · intro j since below
    rw [next] at below
    obtain rfl : j = w.nextConnectionId := Nat.le_antisymm (Nat.le_of_lt_succ below) since
    refine ⟨upgraded, awaiting, ?_⟩
    rw [buffer, reads, Function.update_self]

theorem sendBytes_recvs (env : Env) (fd : Option Nat) (text : Bytes) :
    (env.sendBytes fd text).2.recvs = env.recvs := by
  unfold Env.sendBytes
  split
  · split <;> rfl
  · rfl

theorem acceptConnection_admits (w : World) (answer : AcceptResult) :
    Admits w (w.acceptConnection server answer).2 := by
  cases answer with
  | failed e => exact .of_same rfl rfl rfl rfl
  | client fd nonblocking =>
      have cleared : Admits w { w with env := { w.env with errno := none } } := .of_same rfl rfl rfl rfl
      apply cleared.trans
      simp only [acceptConnection, acceptClient]
      split
      · exact .of_same rfl rfl rfl (sendBytes_recvs _ _ _)
      · split
        · exact .of_same rfl rfl rfl rfl
        · exact openConnection_admits _ fd

theorem acceptLoop_admits (answers : List AcceptResult) (accepted : Nat) (w : World) :
    Admits w (w.acceptLoop server answers accepted).2 := by
  induction answers generalizing w accepted with
  | nil =>
      rw [acceptLoop.eq_def]
      dsimp only
      split <;> exact .of_same rfl rfl rfl rfl
  | cons answer rest ih =>
      have asked : Admits w { w with env := { w.env with accepts := rest } } := .of_same rfl rfl rfl rfl
      have done := asked.trans (@acceptConnection_admits server _ answer)
      rw [acceptLoop.eq_def]
      dsimp only
      split
      · exact .of_same rfl rfl rfl rfl
      · split
        · exact done.trans (ih _ _)
        · split
          · exact done
          · split
            · exact done
            · split
              · exact done.trans (ih _ _)
              · exact done

end World

end PhpWebSocket
