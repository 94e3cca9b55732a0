import PhpWebSocket.HandshakeStream
import PhpWebSocket.Kernel

/-! # Readiness

`kqueue` reports an arrival once. A call for a ready descriptor therefore has to read until
`recv` says `EAGAIN`, and it does so for every connection that has been upgraded before. The
call that upgrades a connection stops behind the request instead, and `accept_pending` stops
at its limit or at an error; what they leave in the kernel waits for the next arrival.
-/

namespace PhpWebSocket

open Lib Relation Kernel

/-! ## Where the calls stop -/

theorem Hub.closeWithCode_not_live (h : Hub) {i : ConnId} (upgraded : (h.conn i).upgraded = true)
    (code : Int) (reason : String) : ¬ ((h.closeWithCode i code reason).2.conn i).Live := by
  have still := ((h.closeWithCode_calm i code reason).ops.steady.conns i).upgraded.trans upgraded
  intro live
  exact closeWithCode_not_reading h i code reason (live.reading still)

theorem Hub.shut_not_live (h : Hub) (i : ConnId) : ¬ ((h.shut i).conn i).Live := by
  rw [Hub.shut, Hub.conn_setConn]
  intro live
  exact Bool.false_ne_true live.1

theorem Hub.closeExpiredConnection_not_live (h : Hub) (i : ConnId) :
    ¬ ((h.closeExpiredConnection i).conn i).Live := by
  unfold Hub.closeExpiredConnection
  split
  · rename_i upgraded
    exact h.closeWithCode_not_live upgraded _ _
  · rw [Hub.closeSocket, Hub.conn_relink]
    intro live
    exact Bool.false_ne_true live.1

theorem Hub.processHeartbeat_fd (server : Server) (h : Hub) (i : ConnId) (nowUsec : Nat)
    (opened : ((h.processHeartbeat server i nowUsec).2.conn i).isOpen = true) :
    ((h.processHeartbeat server i nowUsec).2.conn i).fd = (h.conn i).fd := by
  rcases h.processHeartbeat_calm server i nowUsec with calms | ⟨sent, calms, -, -, marked⟩
  · exact (calms.ops.steady.conns i).fd opened
  · rw [marked, Hub.conn_setConn] at opened ⊢
    exact (calms.ops.steady.conns i).fd opened

theorem Hub.callHandshakeHandler_rejected {h : Hub} {i : ConnId} {request : Request}
    {script : Script} (rejected : (h.callHandshakeHandler i request script).1 = .rejected) :
    ¬ ((h.callHandshakeHandler i request script).2.conn i).Live := by
  unfold Hub.callHandshakeHandler at rejected ⊢
  generalize Hub.runScript script (h.emit (.handshake i request)) = ran at rejected ⊢
  obtain ⟨result, after⟩ := ran
  rcases result with (_ | _) | e | _
  case threw =>
    cases e with
    | handshakeException response =>
        cases response with
        | none | some => exact Hub.shut_not_live _ i
    | _ => cases rejected
  all_goals cases rejected

namespace World

variable (server : Server) {i : ConnId} {w : World}

/-- The checks are over for a connection that is closed or closing, by them or before. -/
theorem attend_finished (held : (w.conn i).fd ≠ none) {nowUsec : Nat}
    (finished : (w.attend server i nowUsec).1 = .finished) :
    ¬ ((w.attend server i nowUsec).2.conn i).Live := by
  simp only [attend] at finished ⊢
  split
  · exact w.closeExpiredConnection_not_live i
  · rename_i waits
    rw [if_neg waits] at finished
    generalize atBeat : w.processHeartbeat server i nowUsec = beat at finished ⊢
    have fd (opened : (beat.2.conn i).isOpen = true) : (beat.2.conn i).fd ≠ none := by
      rw [← atBeat] at opened ⊢
      rw [w.processHeartbeat_fd server i nowUsec opened]
      exact held
    split
    · rename_i failed
      rw [if_pos failed] at finished
      cases finished
    · rename_i beaten
      rw [if_neg beaten] at finished
      have ended {flushed : Bool × Hub} (closed : flushed.1 = false → ¬ (flushed.2.conn i).Live)
          (finished : (if !flushed.1 || !(flushed.2.conn i).isOpen || (flushed.2.conn i).closeAfterWrite
            then (Attention.finished, { w with toHub := flushed.2 })
            else (Attention.ready, { w with toHub := flushed.2 })).1 = .finished) :
          ¬ ((if !flushed.1 || !(flushed.2.conn i).isOpen || (flushed.2.conn i).closeAfterWrite
            then (Attention.finished, { w with toHub := flushed.2 })
            else (Attention.ready, { w with toHub := flushed.2 })).2.conn i).Live := by
        split at finished
        · rename_i ended
          rw [if_pos ended]
          simp only [Bool.or_eq_true, Bool.not_eq_true'] at ended
          rcases ended with (failed | shut) | closing
          · exact closed failed
          · intro live
            exact Bool.false_ne_true (shut.symm.trans live.1)
          · intro live
            exact Bool.false_ne_true (live.2.symm.trans closing)
        · cases finished
      refine ended ?_ finished
      intro failed live
      split at failed
      · rename_i pending
        rw [if_pos pending] at live
        have opened := ((Op.flush beat.2 i).steady.conns i).isOpen live.1
        have shut := Link.flush_failed failed (fd opened)
        rw [Hub.flush, Hub.conn_relink] at live
        exact Bool.false_ne_true (shut.symm.trans live.1)
      · cases failed

/-- What a loop over `recv` has taken when it returns true, and where it has stopped. -/
def Stops (i : ConnId) (recvs : List RecvResult) (r : Bool × World) (or : Prop) : Prop :=
  ∃ used, recvs = used ++ r.2.env.recvs ∧
    (r.1 = true → r.2.env.recvs ≠ [] → Dry used ∨ ¬ (r.2.conn i).Live ∨ or)

theorem Stops.cons {recvs : List RecvResult} {r : Bool × World} {or : Prop} (answer : RecvResult)
    (stops : Stops i recvs r or) : Stops i (answer :: recvs) r or := by
  obtain ⟨used, taken, ended⟩ := stops
  refine ⟨answer :: used, by rw [taken, List.cons_append], ?_⟩
  intro ok more
  exact (ended ok more).imp_left (Dry.cons answer)

theorem Stops.here {recvs : List RecvResult} {r : Bool × World} {or : Prop}
    (left : r.2.env.recvs = recvs) (ended : ¬ (r.2.conn i).Live ∨ or) : Stops i recvs r or :=
  ⟨[], by rw [left, List.nil_append], fun _ _ => Or.inr ended⟩

theorem Stops.dry {recvs : List RecvResult} {r : Bool × World} {or : Prop} {e : Errno}
    (left : r.2.env.recvs = recvs) (empty : e = .eagain ∨ e = .ewouldblock) :
    Stops i (.failed e :: recvs) r or :=
  ⟨[.failed e], by rw [left, List.singleton_append], fun _ _ => Or.inl (dry_singleton empty)⟩

theorem Stops.failed {recvs : List RecvResult} {r : Bool × World} {or : Prop}
    (left : r.2.env.recvs = recvs) (failed : r.1 = false) : Stops i recvs r or :=
  ⟨[], by rw [left, List.nil_append], fun ok => absurd (failed.symm.trans ok) Bool.false_ne_true⟩

theorem processBufferedFrames_recvs (w : World) :
    (w.processBufferedFrames server i).2.env.recvs = w.env.recvs :=
  (processBufferedFrames_turns server w).untouched.recvs

theorem touch_recvs (w : World) : (w.touch i).env.recvs = w.env.recvs := now_recvs w.env

/-- Frames are read until nothing is left. -/
theorem frameReadsLoop_stops (recvs : List RecvResult) (delivered : w.env.recvs = recvs)
    (upgraded : (w.conn i).upgraded = true) :
    Stops i recvs (w.frameReadsLoop server i recvs) False := by
  induction recvs generalizing w with
  | nil =>
      have left : (w.frameReadsLoop server i []).2.env.recvs = [] := by
        rw [frameReadsLoop.eq_def]
        dsimp only
        split
        · exact delivered
        · exact (processBufferedFrames_recvs server _).trans delivered
      exact ⟨[], by rw [left, List.nil_append], fun _ more => absurd left more⟩
  | cons answer rest ih =>
      rw [frameReadsLoop.eq_def]
      dsimp only
      by_cases ended : (!((w.conn i).isOpen && !(w.conn i).closeAfterWrite && (w.conn i).upgraded)) = true
      · rw [if_pos ended]
        refine .here delivered (Or.inl ?_)
        intro live
        obtain ⟨opened, going⟩ : (w.conn i).Live := live
        simp [opened, going, upgraded] at ended
      · rw [if_neg ended]
        have failing (w : World) (left : w.env.recvs = rest) : Stops i rest (w.failRecv i) False :=
          .here left (Or.inl (w.shut_not_live i))
        cases answer with
        | eof => exact (failing (w.setRecvs rest) rfl).cons _
        | data chunk =>
            have heard : ((w.setRecvs rest).touch i).env.recvs = rest := touch_recvs _
            have still : (((w.setRecvs rest).touch i).conn i).upgraded = true :=
              (Heed.touch (i := i) (w.setRecvs rest)).tends.upgraded upgraded
            dsimp only
            split
            · have closed := Hub.closeWithCode_calm ((w.setRecvs rest).touch i).toHub i
                closeMessageTooBig "message too big"
              refine Stops.cons _ (.here (closed.ops.steady.env.recvs.trans heard) (Or.inl ?_))
              exact Hub.closeWithCode_not_live _ still _ _
            · rename_i side _
              have filled := processBufferedFrames_recvs server (i := i)
                (((w.setRecvs rest).touch i).setReads i (side.append chunk.octets))
              have processed := (processBufferedFrames_turns server (i := i)
                (((w.setRecvs rest).touch i).setReads i (side.append chunk.octets))).tends
              split
              · exact (ih (filled.trans heard) (processed.upgraded still)).cons _
              · exact Stops.cons _ (.failed (filled.trans heard) rfl)
        | failed e =>
            cases e with
            | eintr => exact (ih (w := (w.setRecvs rest).setErrno .eintr) rfl upgraded).cons _
            | eagain => exact .dry (processBufferedFrames_recvs server _) (Or.inl rfl)
            | ewouldblock => exact .dry (processBufferedFrames_recvs server _) (Or.inr rfl)
            | enobufs | epipe | econnreset | ebadf | other =>
                exact (failing ((w.setRecvs rest).setErrno _) rfl).cons _

theorem finishUpgrade_ends (w : World) (upgrade : HttpUpgrade) :
    ¬ ((w.finishUpgrade server i upgrade).2.conn i).Live ∨
      ((w.finishUpgrade server i upgrade).2.conn i).upgraded = true := by
  simp only [finishUpgrade]
  split
  · exact Or.inl (Hub.shut_not_live _ i)
  · apply Or.inr
    generalize ({ w with toHub := _ } : World) = sent
    have switched : ((sent.switchToFrames i upgrade).conn i).upgraded = true := by
      simp [switchToFrames, discard, setReads, Hub.emit]
    have opened : (((sent.switchToFrames i upgrade).callOpenHandler server i).2.conn i).upgraded = true :=
      (((sent.switchToFrames i upgrade).callOpenHandler_calm server i).ops.steady.conns
        i).upgraded.trans switched
    have shut (h : Hub) (upgraded : (h.conn i).upgraded = true) : ((h.shut i).conn i).upgraded = true :=
      ((h.shut_calm i).op.steady.conns i).upgraded.trans upgraded
    split
    · exact shut _ opened
    · have going {w : World} (upgraded : (w.conn i).upgraded = true) :
          ((if !(w.conn i).isOpen then w.onHub (w.notifyConnectionClosed server i)
            else w.processBufferedFrames server i).2.conn i).upgraded = true := by
        split
        · exact ((w.notifyConnectionClosed_calm server i).ops.steady.conns i).upgraded.trans upgraded
        · exact (processBufferedFrames_turns server w).tends.upgraded upgraded
      split
      · apply going
        exact shut _ opened
      · exact going opened

theorem beginUpgrade_ends (w : World) (upgrade : HttpUpgrade)
    (ok : (w.beginUpgrade server i upgrade).1 = true) :
    ¬ ((w.beginUpgrade server i upgrade).2.conn i).Live ∨
      ((w.beginUpgrade server i upgrade).2.conn i).upgraded = true := by
  simp only [beginUpgrade] at ok ⊢
  split
  · exact finishUpgrade_ends server _ upgrade
  · rename_i onHandshake handler
    rw [handler] at ok
    dsimp only at ok
    generalize atAsked : Hub.callHandshakeHandler _ i _ _ = asked at ok ⊢
    split
    · rename_i failed
      rw [failed] at ok
      cases ok
    · rename_i rejected
      rw [← atAsked] at rejected ⊢
      exact Or.inl (Hub.callHandshakeHandler_rejected rejected)
    · exact finishUpgrade_ends server _ upgrade

theorem beginUpgrade_untouched (w : World) (upgrade : HttpUpgrade) :
    (w.beginUpgrade server i upgrade).2.env.recvs = w.env.recvs :=
  (beginUpgrade_turns server w upgrade).untouched.recvs

/-- The octets behind a request are left to the next call. -/
theorem handshakeLoop_stops (recvs : List RecvResult) (delivered : w.env.recvs = recvs) :
    Stops i recvs (w.handshakeLoop server i recvs)
      (((w.handshakeLoop server i recvs).2.conn i).upgraded = true) := by
  induction recvs generalizing w with
  | nil =>
      have left : (w.handshakeLoop server i []).2.env.recvs = [] := by
        rw [handshakeLoop.eq_def]
        dsimp only
        split <;> exact delivered
      exact ⟨[], by rw [left, List.nil_append], fun _ more => absurd left more⟩
  | cons answer rest ih =>
      rw [handshakeLoop.eq_def]
      dsimp only
      by_cases ended : (!((w.conn i).isOpen && !(w.conn i).upgraded)) = true
      · rw [if_pos ended]
        refine .here delivered ?_
        by_cases opened : (w.conn i).isOpen = true
        · simp only [opened, Bool.true_and, Bool.not_not] at ended
          exact Or.inr ended
        · exact Or.inl fun live => opened live.1
      · rw [if_neg ended]
        have refused (w : World) (left : w.env.recvs = rest) (status : Int) (text : Bytes) (or : Prop) :
            Stops i rest (true, { w with toHub := w.reject i status text }) or :=
          .here ((w.reject_calm i status text).ops.steady.env.recvs.trans left) (Or.inl (Hub.shut_not_live _ i))
        have failing (w : World) (left : w.env.recvs = rest) (or : Prop) : Stops i rest (w.failRecv i) or :=
          .here left (Or.inl (w.shut_not_live i))
        cases answer with
        | eof => exact (failing (w.setRecvs rest) rfl _).cons _
        | data chunk =>
            have heard : ((w.setRecvs rest).touch i).env.recvs = rest := touch_recvs _
            dsimp only
            split
            · exact (refused _ heard _ _ _).cons _
            · rename_i side _
              split
              · exact (ih (w := ((w.setRecvs rest).touch i).setReads i (side.append chunk.octets)) heard).cons _
              · exact (refused (((w.setRecvs rest).touch i).setReads i (side.append chunk.octets)) heard
                  _ _ _).cons _
              · rename_i upgrade _
                have left := beginUpgrade_untouched server (i := i)
                  (((w.setRecvs rest).touch i).setReads i (side.append chunk.octets)) upgrade
                refine Stops.cons _ ⟨[], ?_, fun ok _ => Or.inr (beginUpgrade_ends server _ upgrade ok)⟩
                rw [left, List.nil_append]
                exact heard.symm
        | failed e =>
            cases e with
            | eintr => exact (ih (w := (w.setRecvs rest).setErrno .eintr) rfl).cons _
            | eagain => exact .dry rfl (Or.inl rfl)
            | ewouldblock => exact .dry rfl (Or.inr rfl)
            | enobufs | epipe | econnreset | ebadf | other =>
                exact (failing ((w.setRecvs rest).setErrno _) rfl _).cons _

theorem serveReady_stops (held : (w.conn i).fd ≠ none) (nowUsec : Nat) :
    Stops i w.env.recvs (w.serveReady server i nowUsec)
      ((w.conn i).upgraded = false ∧ ((w.serveReady server i nowUsec).2.conn i).upgraded = true) := by
  have attended := attend_turns server (i := i) w nowUsec
  have recvs := attended.untouched.recvs
  simp only [serveReady]
  split
  · rename_i shut
    exact .here rfl (Or.inl fun live => by simp [show (w.conn i).isOpen = true from live.1] at shut)
  · cases atAttend : (w.attend server i nowUsec).1 with
    | failed => exact .failed recvs rfl
    | finished => exact .here recvs (Or.inl (attend_finished server held atAttend))
    | ready =>
        dsimp only
        cases upgraded : ((w.attend server i nowUsec).2.conn i).upgraded with
        | false =>
            have fresh : (w.conn i).upgraded = false := Bool.eq_false_iff.mpr fun before =>
              Bool.false_ne_true (upgraded.symm.trans (attended.tends.upgraded before))
            obtain ⟨used, taken, ended⟩ := handshakeLoop_stops server (i := i)
              (w := (w.attend server i nowUsec).2) _ rfl
            rw [← recvs]
            exact ⟨used, taken, fun ok more => (ended ok more).imp_right (Or.imp_right (And.intro fresh))⟩
        | true =>
            obtain ⟨used, taken, ended⟩ := frameReadsLoop_stops server (i := i)
              (w := (w.attend server i nowUsec).2) _ rfl upgraded
            rw [← recvs]
            exact ⟨used, taken, fun ok more => (ended ok more).imp_right (Or.imp_right False.elim)⟩

end World

/-! ## Along a run -/

/-- No function reads from the connection any more. -/
def World.Spent (w : World) (i : ConnId) : Prop :=
  i < w.nextConnectionId ∧ ¬ (w.conn i).Live

/-- The read event of the connection has just been returned. -/
def Site.Reported (m : Site) (i : ConnId) : Prop :=
  ∃ fd nowUsec, m.phase = .serving fd nowUsec ∧ i ∈ m.world.connections ∧ (m.world.conn i).fd = some fd

/-- A call for a ready descriptor that upgrades its connection takes all that was in the socket,
    and `accept_pending` takes everybody who was in the backlog or is told that there is nobody,
    unless there has been an arrival since the event. -/
def Drains : Site → Label → Site → Prop
  | m, .served i _ mid, m' =>
      (m.world.conn i).upgraded = false → (m'.world.conn i).upgraded = true →
        (m.kernel.sockets i).Drained (mid.sockets i)
  | m, .accepted used mid, _ => AcceptsDry used ∨ m.kernel.backlog.Drained mid.backlog
  | _, _, _ => True

/-- Whatever waits in the kernel is marked, or its connection is spent. -/
structure Prompt (server : Server) (listener : Nat) (m : Site) : Prop where
  tidy : Tidy False server (some listener) m.world.toHub
  sockets : ∀ i, ¬ m.Reported i → (m.kernel.sockets i).Signalled ∨ m.world.Spent i
  backlog : m.kernel.backlog.Signalled

theorem World.Spent.tends {w w' : World} {i j : ConnId} (tends : Tends i w w') (spent : w.Spent j) :
    w'.Spent j := by
  refine ⟨tends.next ▸ spent.1, fun live => spent.2 ?_⟩
  by_cases same : j = i
  · subst same
    exact tends.live live
  · exact (tends.others j same).1.live live

theorem World.Spent.steady {w : World} {h : Hub} {i : ConnId} (steady : Steady w.toHub h)
    (spent : w.Spent i) : ({ w with toHub := h } : World).Spent i :=
  ⟨steady.next.symm ▸ spent.1, fun live => spent.2 ((steady.conns i).live live)⟩

theorem World.findFd_eq_some {w : World} {fd : Nat} {i : ConnId} (found : w.findFd fd = some i) :
    i ∈ w.connections ∧ (w.conn i).fd = some fd :=
  ⟨List.mem_of_find?_eq_some found, by simpa using List.find?_some found⟩

section

variable {server : Server} {listener : Nat} {m m' : Site} {label : Label}

theorem not_reported {phase : Phase} (w : World) (k : Kernel) (i : ConnId)
    (other : ∀ fd nowUsec, phase ≠ .serving fd nowUsec := by simp) : ¬ (Site.mk w k phase).Reported i := by
  rintro ⟨fd, nowUsec, atPhase, -⟩
  exact other fd nowUsec atPhase

/-- What a call keeps for each connection but, behind its event, the one it is for. -/
theorem Kernel.Call.prompt {w w' : World} {k mid k' : Kernel} {i j : ConnId}
    {used : List RecvResult} (call : Kernel.Call i w w' used k mid k') (tends : Tends i w w')
    (before : (k.sockets j).Signalled ∨ w.Spent j) : (k'.sockets j).Signalled ∨ w'.Spent j := by
  obtain ⟨ticks, -, serves⟩ := call.serves
  exact before.imp (fun signalled => (serves.signalled signalled).grows (call.later.sockets j))
    (World.Spent.tends tends)

theorem Kernel.Call.backlog {w w' : World} {k mid k' : Kernel} {i : ConnId}
    {used : List RecvResult} (call : Kernel.Call i w w' used k mid k')
    (before : k.backlog.Signalled) : k'.backlog.Signalled := by
  obtain ⟨ticks, -, serves⟩ := call.serves
  exact (before.grows serves.backlog).grows call.later.backlog

theorem Prompt.step (prompt : Prompt server listener m) (step : Site.Step server m label m')
    (drains : Drains m label m') : Prompt server listener m' := by
  obtain ⟨tidy, sockets, backlog⟩ := prompt
  cases step with
  | arrive grows =>
      refine ⟨tidy, ?_, backlog.grows grows.backlog⟩
      intro i quiet
      exact (sockets i quiet).imp_left fun signalled => signalled.grows (grows.sockets i)
  | interrupt =>
      exact ⟨tidy.env rfl, fun i _ => sockets i (not_reported _ _ i), backlog⟩
  | timeout => exact ⟨tidy, fun i _ => sockets i (not_reported _ _ i), backlog⟩
  | @listener w k mid k' fd used going listening unused ok accepts =>
      have admits := @World.acceptLoop_admits server w.env.accepts 0 w
      refine ⟨World.acceptLoop_tidy _ _ tidy unused, ?_, ?_⟩
      · intro i _
        refine (sockets i (not_reported _ _ i)).imp ?_ ?_
        · intro signalled
          exact (signalled.grows (accepts.served.sockets i)).grows (accepts.later.sockets i)
        · intro spent
          refine ⟨Nat.lt_of_lt_of_le spent.1 admits.next, ?_⟩
          have same := (admits.old i spent.1).1
          intro live
          exact spent.2 (same ▸ live)
      · refine Inbox.Signalled.grows ?_ accepts.later.backlog
        rcases drains with dry | drained
        · exact Inbox.signalled_of_empty (accepts.served.dry dry)
        · exact accepts.served.unreported.signalled_iff.mpr drained
  | @ready w k k' fd clock going other reported readable =>
      refine ⟨tidy.now, ?_, ?_⟩
      · intro i quiet
        have before := sockets i (not_reported _ _ i)
        rcases reported with rfl | rfl
        · apply before.imp_left
          intro signalled
          have elsewhere : ¬ (i ∈ w.connections ∧ (w.conn i).fd = some fd) :=
            fun own => quiet ⟨fd, _, rfl, own⟩
          simp only [Kernel.report, if_neg elsewhere]
          exact signalled
        · exact before
      · rcases reported with rfl | rfl <;> exact backlog
  | @absent w k fd nowUsec absent =>
      refine ⟨tidy, fun i _ => sockets i ?_, backlog⟩
      rintro ⟨fd', now', atPhase, member, own⟩
      cases atPhase
      exact List.find?_eq_none.mp absent i member (by simpa using own)
  | @serve w k mid k' fd nowUsec i used found ok call =>
      have heeds := World.serveReady_heeds server (i := i) w nowUsec
      obtain ⟨member, own⟩ := World.findFd_eq_some found
      refine ⟨tidy.heeds heeds, ?_, call.backlog backlog⟩
      intro j _
      by_cases same : j = i
      · subst same
        have held : (w.conn j).fd ≠ none := by simp [own]
        obtain ⟨used', taken, ended⟩ := World.serveReady_stops server held nowUsec
        obtain rfl : used' = used := List.append_cancel_right (taken.symm.trans call.recvs)
        obtain ⟨ticks, -, serves⟩ := call.serves
        rcases ended ok call.more with dry | closed | ⟨fresh, upgraded⟩
        · exact Or.inl ((Inbox.signalled_of_empty (serves.dry dry)).grows (call.later.sockets j))
        · exact Or.inr ⟨heeds.tends.next ▸ tidy.known j member, closed⟩
        · have signalled := serves.unreported.signalled_iff.mpr (drains fresh upgraded)
          exact Or.inl (signalled.grows (call.later.sockets j))
      · refine call.prompt heeds.tends (sockets j ?_)
        rintro ⟨fd', now', atPhase, -, held⟩
        cases atPhase
        exact same (tidy.exclusive held own)
  | scan =>
      exact ⟨tidy.now, fun i _ => sockets i (not_reported _ _ i), backlog⟩
  | @check w k mid k' nowUsec i rest used ok call =>
      have heeds := World.processConnection_heeds server (i := i) w nowUsec
      exact ⟨tidy.heeds heeds, fun j _ => call.prompt heeds.tends (sockets j (not_reported _ _ j)),
        call.backlog backlog⟩
  | @purge w k nowUsec ok =>
      have steady := w.purgeFrom_steady server w.connections.length 0
      exact ⟨tidy.purgeFrom _ _, fun i _ =>
        (sockets i (not_reported _ _ i)).imp_right (World.Spent.steady steady), backlog⟩

theorem Prompt.walk (prompt : Prompt server listener m) (walk : Site.Walk server Drains m m') :
    Prompt server listener m' := by
  induction walk with
  | start => exact prompt
  | step _ step met ih => exact ih.step step met

theorem Site.Starts.prompt (start : m.Starts listener) : Prompt server listener m := by
  obtain ⟨⟨w, idle, watched, world⟩, -, signalled, backlog, -, -⟩ := start
  refine ⟨?_, fun i _ => Or.inl (signalled i), backlog⟩
  rw [world]
  exact idle.tidy False.elim watched

end

/-- In every run in which each call for a ready descriptor that upgrades its connection
    leaves nothing behind, and each `accept_pending` ends with `EAGAIN` or leaves nobody
    behind: whenever the server waits, an undelivered event stands for every octet that has
    not been read from an open connection, and for every client that has not been accepted. -/
theorem readiness_kept {server : Server} {listener : Nat} {m m' : Site} (start : m.Starts listener)
    (walk : Site.Walk server Drains m m') (waits : m'.phase = .waiting) :
    (∀ i ∈ m'.world.connections, (m'.world.conn i).isOpen = true → (m'.world.conn i).upgraded = true →
      (m'.world.conn i).closeAfterWrite = false → (m'.kernel.sockets i).waiting ≠ [] →
        (m'.kernel.sockets i).marked = true) ∧
    (m'.kernel.backlog.waiting ≠ [] → m'.kernel.backlog.marked = true) := by
  have prompt : Prompt server listener m' := start.prompt.walk walk
  refine ⟨?_, prompt.backlog⟩
  intro i _ opened _ going some
  have quiet : ¬ m'.Reported i := by
    rintro ⟨fd, nowUsec, serving, -⟩
    rw [waits] at serving
    cases serving
  rcases prompt.sockets i quiet with signalled | spent
  · exact signalled some
  · exact absurd ⟨opened, going⟩ spent.2

/-! ## One client -/

theorem World.processBufferedFrames_part {server : Server} {i : ConnId} {w : World}
    (part : parseFrame (w.buffer i) server.options.maxMessageSize = .incomplete) :
    w.processBufferedFrames server i = (true, w) := by
  unfold processBufferedFrames
  cases (w.buffer i).length with
  | zero => rfl
  | succ fuel =>
      simp only [framesLoop, part]
      split <;> rfl

/-- A server with one callback, which may take its time. -/
def openServer : Server where
  options := .array fun _ => none
  handlers := fun _ => { onOpen := some (.takesNothing (.finish (.returned .null))) }
  lib := sampleLib

/-- The server waits for a client, which is to send `chunk`; the clock reads 1 at first. -/
def hello (chunk : Chunk) (later : List Nat) : Site where
  world := (World.start
    { accepts := [.client 5 none, .failed .eagain, .failed .eagain]
      recvs := [.failed .eagain, .data chunk, .failed .eagain]
      clock := [1, 1, 1, 1] ++ later }).listens 3
  kernel := {}
  phase := .waiting

theorem hello_starts (chunk : Chunk) (later : List Nat) : (hello chunk later).Starts 3 where
  world := ⟨_, ⟨rfl, rfl, fun _ => ⟨rfl, rfl⟩, {}, rfl, fun _ => rfl, fun _ => rfl⟩, rfl, rfl⟩
  untaken _ := rfl
  signalled _ := Inbox.signalled_of_empty rfl
  backlog := Inbox.signalled_of_empty rfl
  past _ _ := nofun
  phase := rfl

/-- The client has been accepted, and nothing of it has been read. -/
def seated (recvs : List RecvResult) (clock : List Nat) : World where
  conn := Function.update (fun _ => {}) 0
    { Connection.opened 5 with
      acceptedAtUsec := 1
      lastActivityUsec := 1
      maxQueuedBytes := openServer.options.maxQueuedBytes }
  connections := [0]
  nextConnectionId := 1
  env :=
    { accepts := [.failed .eagain]
      recvs
      clock
      errno := some .eagain
      driver := some ((({} : Driver).called (.watchRead 3)).called (.watchRead 5)) }
  listenerFd := some 3
  trace := [.accepted 0]
  reads := Function.update (fun _ => {}) 0 {}

/-- The client has been upgraded, and a frame that has begun is not there yet. -/
structure Welcomed (w : World) (chosen : Option Bytes) (clock : List Nat) : Prop where
  connections : w.connections = [0]
  conn : w.conn 0 =
    { Connection.opened 5 with
      acceptedAtUsec := 1
      lastActivityUsec := 1
      maxQueuedBytes := openServer.options.maxQueuedBytes
      selectedSubprotocol := chosen
      upgraded := true }
  recvs : w.env.recvs = [.failed .eagain]
  clock : w.env.clock = clock
  part : parseFrame (w.buffer 0) openServer.options.maxMessageSize = .incomplete

/-- A step for no upgraded connection. -/
def Early (m : Site) : Label → Prop
  | .served i _ _ | .checked i _ _ => (m.world.conn i).upgraded = false
  | .quiet | .accepted _ _ => True

/-- A kernel that has given its one client away. -/
def Kernel.accepted : Kernel := { backlog := { taken := [()] }, time := 1 }

section

variable (chunk : Chunk) (later : List Nat) {behind : Bytes}

theorem hello_accepted :
    Site.Walk openServer (fun a label b => Early a label ∧ (behind = [] → Drains a label b))
      (hello chunk later)
      ⟨seated [.data chunk, .failed .eagain] (1 :: 1 :: later), Kernel.accepted, .waiting⟩ := by
  let arrived : Kernel := { backlog := { waiting := [()], marked := true }, time := 1 }
  let unread : List RecvResult := [.failed .eagain, .data chunk, .failed .eagain]
  have arrives : Site.Step openServer (hello chunk later) .quiet
      ⟨(hello chunk later).world, arrived, .waiting⟩ :=
    .arrive ⟨Nat.zero_le 1, fun _ => Inbox.Grows.refl _, [()], fun _ _ => trivial, rfl⟩
  have accepts : Site.Step openServer ⟨(hello chunk later).world, arrived, .waiting⟩
      (.accepted [.client 5 none, .failed .eagain] Kernel.accepted)
      ⟨seated unread (1 :: 1 :: 1 :: later), Kernel.accepted, .served⟩ := by
    have unused : (hello chunk later).world.AcceptsUnused openServer
        [.client 5 none, .failed .eagain, .failed .eagain] 0 := by
      refine fun _ => ⟨⟨fun same => absurd (Option.some.inj same) (by decide), fun _ => nofun⟩,
        fun _ _ => ⟨trivial, ?_, ?_⟩, ?_⟩
      · intro ok
        exact absurd ok Bool.false_ne_true
      · intro _ _ interrupted
        exact absurd (Option.some.inj interrupted) nofun
      · intro failed
        exact absurd failed.symm Bool.false_ne_true
    refine .listener ⟨rfl, rfl⟩ rfl unused rfl
      ⟨rfl, nofun, ?_, ⟨[1], rfl, ?_⟩, Kernel.Grows.refl _⟩
    · refine .client (Kernel.Grows.refl _) nofun ?_
      exact .failed 0 (Kernel.Grows.refl _) (fun _ => rfl) (.done _)
    · simp [Kernel.reportBacklog, Kernel.accepted, arrived]
  have scans : Site.Step openServer ⟨seated unread (1 :: 1 :: 1 :: later), Kernel.accepted, .served⟩
      .quiet ⟨seated unread (1 :: 1 :: later), Kernel.accepted, .scanning 1 [0]⟩ := .scan rfl
  have checks : Site.Step openServer
      ⟨seated unread (1 :: 1 :: later), Kernel.accepted, .scanning 1 [0]⟩
      (.checked 0 [.failed .eagain] Kernel.accepted)
      ⟨seated [.data chunk, .failed .eagain] (1 :: 1 :: later), Kernel.accepted, .scanning 1 []⟩ := by
    have dry : Kernel.Serves 0 Kernel.accepted [.failed .eagain] [] Kernel.accepted :=
      .failed (Kernel.Grows.refl _) (fun _ => rfl) (.done _)
    exact .check rfl ⟨rfl, nofun, ⟨[], rfl, dry⟩, Kernel.Grows.refl _⟩
  have purges : Site.Step openServer
      ⟨seated [.data chunk, .failed .eagain] (1 :: 1 :: later), Kernel.accepted, .scanning 1 []⟩ .quiet
      ⟨seated [.data chunk, .failed .eagain] (1 :: 1 :: later), Kernel.accepted, .waiting⟩ := .purge rfl
  have asked : Site.Walk openServer (fun a label b => Early a label ∧ (behind = [] → Drains a label b))
      (hello chunk later) _ :=
    ((Site.Walk.start _).step arrives ⟨trivial, fun _ => trivial⟩).step accepts
      ⟨trivial, fun _ => Or.inl ⟨.eagain, Or.inl rfl, rfl⟩⟩
  exact ((asked.step scans ⟨trivial, fun _ => trivial⟩).step checks ⟨rfl, fun _ => trivial⟩).step purges
    ⟨trivial, fun _ => trivial⟩

end

/-- The world behind the upgrade, until the buffered frames are processed. -/
def World.welcome (w : World) (upgrade : HttpUpgrade) : World :=
  let asked := ((w.emit (.parsed 0 (w.buffer 0) upgrade)).emit (.approved 0)).emit (.response 0 101 true)
  let switched := { w with toHub := asked }.switchToFrames 0 upgrade
  { switched with toHub := switched.emit (.opened 0) }

theorem beginUpgrade_welcome {w : World} {fd : Nat} {upgrade : HttpUpgrade}
    (held : (w.conn 0).fd = some fd) (sends : w.env.sends = []) (quiet : w.env.exception = none)
    (isOpen : (w.conn 0).isOpen = true)
    (part : parseFrame ((w.welcome upgrade).buffer 0) openServer.options.maxMessageSize = .incomplete) :
    w.beginUpgrade openServer 0 upgrade = (true, w.welcome upgrade) := by
  have begun : w.beginUpgrade openServer 0 upgrade =
      World.finishUpgrade openServer
        { w with toHub := (w.emit (.parsed 0 (w.buffer 0) upgrade)).emit (.approved 0) } 0 upgrade := rfl
  have opened : ((w.welcome upgrade).conn 0).isOpen = true := by
    simp only [World.welcome, World.switchToFrames, World.discard, World.setReads, Hub.emit]
    rw [Hub.conn_setConn]
    exact isOpen
  have calm : (w.welcome upgrade).env.exception = none := quiet
  rw [begun, World.finishUpgrade,
    Hub.respond_willing (h := (w.emit (.parsed 0 (w.buffer 0) upgrade)).emit (.approved 0)) held sends]
  change (if (w.welcome upgrade).env.exception.isSome = true then _
    else if (!((w.welcome upgrade).conn 0).isOpen) = true then _
    else (w.welcome upgrade).processBufferedFrames openServer 0) = _
  rw [calm, opened]
  exact World.processBufferedFrames_part part

section

variable {chunk : Chunk} {upgrade : HttpUpgrade}

theorem seated_serveReady (later : List Nat) (asks : parseUpgrade sampleLib [] chunk.octets = .ok upgrade)
    (part : parseFrame (chunk.octets.drop upgrade.bytesConsumed) openServer.options.maxMessageSize =
      .incomplete) :
    ∃ w, (seated [.data chunk, .failed .eagain] (1 :: later)).serveReady openServer 0 1 = (true, w) ∧
      Welcomed w upgrade.selectedSubprotocol later := by
  generalize atWorld : seated [.data chunk, .failed .eagain] (1 :: later) = w
  obtain ⟨side, room⟩ : ∃ side,
      ReadSide.ensureCapacity {} chunk.octets.length httpMaxRequestSize = some side := by
    rw [← Option.isSome_iff_exists, ReadSide.ensureCapacity_isSome]
    exact (Nat.zero_add _).le.trans (chunk.fits.trans (by decide))
  have served : w.serveReady openServer 0 1 =
      w.handshakeLoop openServer 0 [.data chunk, .failed .eagain] := by
    rw [← atWorld, World.serveReady, show World.attend openServer
      (seated [.data chunk, .failed .eagain] (1 :: later)) 0 1 = (.ready, _) from rfl]
    rfl
  have buffer : (w.heard 0 chunk [.failed .eagain] side).buffer 0 = chunk.octets := by
    rw [← atWorld]
    exact World.heard_buffer room
  have looped : w.handshakeLoop openServer 0 [.data chunk, .failed .eagain] =
      (w.heard 0 chunk [.failed .eagain] side).beginUpgrade openServer 0 upgrade := by
    have fresh : (!((w.conn 0).isOpen && !(w.conn 0).upgraded)) = false := by rw [← atWorld]; rfl
    have empty : ((w.setRecvs [.failed .eagain]).touch 0).reads 0 = {} := by rw [← atWorld]; rfl
    rw [World.handshakeLoop.eq_def]
    dsimp only
    rw [fresh, if_neg Bool.false_ne_true, empty, room]
    dsimp only
    rw [← World.heard, buffer, show parseUpgrade openServer.lib openServer.subprotocols chunk.octets = _
      from asks]
  have left : ((w.heard 0 chunk [.failed .eagain] side).welcome upgrade).buffer 0 =
      chunk.octets.drop upgrade.bytesConsumed := by
    rw [← buffer]
    exact (congrArg (World.buffer · 0) (World.discard_eq _ 0 _)).trans (World.buffer_setBuffer ..)
  rw [← left] at part
  have begun := beginUpgrade_welcome (w := w.heard 0 chunk [.failed .eagain] side)
    (by rw [← atWorld]; rfl) (by rw [← atWorld]; rfl) (by rw [← atWorld]; rfl) (by rw [← atWorld]; rfl) part
  refine ⟨_, served.trans (looped.trans begun), ?_⟩
  rw [← atWorld] at part ⊢
  exact ⟨rfl, rfl, rfl, rfl, part⟩

/-- Octets that arrive at the time 1. -/
def sentAtOne (octets : Bytes) : List Arrival := octets.map fun octet => ⟨octet, 1⟩

theorem sentAtOne_octets (octets : Bytes) : (sentAtOne octets).map Arrival.octet = octets := by
  rw [sentAtOne, List.map_map]
  exact List.map_id octets

theorem sentAtOne_eq_nil {octets : Bytes} (empty : sentAtOne octets = []) : octets = [] :=
  List.map_eq_nil_iff.mp empty

/-- The request has been served; what came with it in the socket and did not fit into the
    chunk is there still. -/
theorem hello_served (later : List Nat) {behind : Bytes}
    (asks : parseUpgrade sampleLib [] chunk.octets = .ok upgrade)
    (part : parseFrame (chunk.octets.drop upgrade.bytesConsumed) openServer.options.maxMessageSize =
      .incomplete) :
    ∃ w k, Site.Walk openServer (fun a label b => Early a label ∧ (behind = [] → Drains a label b))
        (hello chunk later) ⟨w, k, .served⟩ ∧
      Welcomed w upgrade.selectedSubprotocol later ∧ k.time = 1 ∧
      k.sockets 0 = { taken := sentAtOne chunk.octets, waiting := sentAtOne behind } := by
  let seat (clock : List Nat) : World := seated [.data chunk, .failed .eagain] clock
  let k₁ := Kernel.accepted.setSocket 0
    ((Kernel.accepted.sockets 0).arrive (sentAtOne (chunk.octets ++ behind)))
  let k₂ := k₁.report (seat (1 :: 1 :: later)) 5
  let k₃ := k₂.setSocket 0 ((k₂.sockets 0).take chunk.octets.length)
  have length : (sentAtOne chunk.octets).length = chunk.octets.length := List.length_map ..
  have waiting : k₂.sockets 0 = { waiting := sentAtOne chunk.octets ++ sentAtOne behind } := by
    have own : 0 ∈ (seat (1 :: 1 :: later)).connections ∧
        ((seat (1 :: 1 :: later)).conn 0).fd = some 5 := ⟨List.mem_singleton_self 0, rfl⟩
    simp only [k₂, Kernel.report]
    rw [if_pos own, Kernel.setSocket_self, sentAtOne, List.map_append]
    rfl
  have left : k₃.sockets 0 = { taken := sentAtOne chunk.octets, waiting := sentAtOne behind } := by
    rw [show k₃.sockets 0 = _ from Kernel.setSocket_self .., waiting, Inbox.take, ← length,
      List.take_left, List.drop_left]
    rfl
  obtain ⟨w, served, welcomed⟩ := seated_serveReady later asks part
  have arrives : Site.Step openServer ⟨seat (1 :: 1 :: later), Kernel.accepted, .waiting⟩ .quiet
      ⟨seat (1 :: 1 :: later), k₁, .waiting⟩ := by
    refine .arrive (Kernel.accepted.grows_arrive 0 ?_)
    intro a mem
    obtain ⟨octet, -, rfl⟩ := List.mem_map.mp mem
    rfl
  have readies : Site.Step openServer ⟨seat (1 :: 1 :: later), k₁, .waiting⟩ .quiet
      ⟨seat (1 :: later), k₂, .serving 5 1⟩ :=
    .ready ⟨rfl, rfl⟩ (fun same => absurd (Option.some.inj same) (by decide)) (Or.inl rfl) rfl
  have call : Kernel.Call 0 (seat (1 :: later)) w [.data chunk] k₂ k₃ k₃ := by
    refine ⟨?_, ?_, ⟨[1], ?_, .data (Kernel.Grows.refl _) ?_ (Kernel.Grows.refl _) (.done _)⟩,
      Kernel.Grows.refl _⟩
    · rw [welcomed.recvs]
      rfl
    · rw [welcomed.recvs]
      exact List.cons_ne_nil _ _
    · rw [welcomed.clock]
      rfl
    · rw [waiting, ← length, List.take_left, sentAtOne_octets]
  have serves : Site.Step openServer ⟨seat (1 :: later), k₂, .serving 5 1⟩ (.served 0 [.data chunk] k₃)
      ⟨w, k₃, .served⟩ := by
    have step := @Site.Step.serve openServer (seat (1 :: later)) k₂ k₃ k₃ 5 1 0 [.data chunk] rfl
    rw [served] at step
    exact step rfl call
  refine ⟨w, k₃, ?_, welcomed, rfl, left⟩
  refine (((hello_accepted chunk later).step arrives ⟨trivial, fun _ => trivial⟩).step readies
    ⟨trivial, fun _ => trivial⟩).step serves ⟨rfl, fun empty _ _ => Or.inl ?_⟩
  have all : (k₂.sockets 0).arrived = sentAtOne chunk.octets := by
    rw [waiting, empty]
    exact List.append_nil _
  rw [all]
  exact Nat.le_of_eq (congrArg (List.length ∘ Inbox.taken) left).symm

end

section

variable {w : World} {chosen : Option Bytes} {clock : List Nat}

theorem Welcomed.tick {now : Nat} (welcomed : Welcomed w chosen (now :: clock)) :
    Welcomed w.tick chosen clock := by
  obtain ⟨connections, conn, recvs, atClock, part⟩ := welcomed
  have ticked : w.tick = { w with env := { w.env with clock := clock } } := by
    simp only [World.tick, Hub.now, Env.now, atClock]
  rw [ticked]
  exact ⟨connections, conn, recvs, rfl, part⟩

theorem Welcomed.processConnection (welcomed : Welcomed w chosen clock) :
    w.processConnection openServer 0 1 = (true, w) := by
  obtain ⟨isOpen, going, upgraded, seen, sent⟩ : (w.conn 0).isOpen = true ∧
      (w.conn 0).closeAfterWrite = false ∧ (w.conn 0).upgraded = true ∧
      (w.conn 0).lastSeenUsec = 1 ∧ (w.conn 0).hasPendingWrites = false := by
    rw [welcomed.conn]
    exact ⟨rfl, rfl, rfl, rfl, rfl⟩
  have idle : openServer.options.idleTimeoutUsec = 120000000 := by decide +kernel
  have interval : openServer.options.pingIntervalUsec = 0 := by decide +kernel
  have early : connectionExpired openServer.options (w.conn 0) 1 = false := by
    simp [connectionExpired, upgraded, seen, idle]
  have beat : w.processHeartbeat openServer 0 1 = (true, w.toHub) := by
    simp [Hub.processHeartbeat, interval]
  have attended : w.attend openServer 0 1 = (.ready, w) := by
    simp [World.attend, early, beat, sent, isOpen, going]
  simp [World.processConnection, attended, isOpen, upgraded,
    World.processBufferedFrames_part welcomed.part]

theorem Welcomed.purge (welcomed : Welcomed w chosen clock) :
    w.purgeClosedConnections openServer = (true, w.toHub) := by
  rw [Hub.purgeClosedConnections, welcomed.connections]
  change Hub.purgeFrom openServer 1 0 w.toHub = _
  rw [Hub.purgeFrom, welcomed.connections]
  change (if (!(w.conn 0).isOpen) = true then _ else (true, w.toHub)) = _
  rw [welcomed.conn]
  rfl

end

theorem hello_welcomed {chunk : Chunk} {behind : Bytes} {upgrade : HttpUpgrade}
    (asks : parseUpgrade sampleLib [] chunk.octets = .ok upgrade)
    (part : parseFrame (chunk.octets.drop upgrade.bytesConsumed) openServer.options.maxMessageSize =
      .incomplete) :
    ∃ w k, Site.Walk openServer (fun a label b => behind = [] → Drains a label b) (hello chunk [1])
        ⟨w, k, .waiting⟩ ∧
      Welcomed w upgrade.selectedSubprotocol [] ∧
      k.sockets 0 = { taken := sentAtOne chunk.octets, waiting := sentAtOne behind } := by
  obtain ⟨w, k, walked, welcomed, time, socket⟩ := hello_served [1] asks part
  have walk := walked.mono fun _ _ _ both => both.2
  have scans : Site.Step openServer ⟨w, k, .served⟩ .quiet ⟨w.tick, k, .scanning 1 [0]⟩ := by
    have step := @Site.Step.scan openServer w k [] (time ▸ welcomed.clock)
    rw [welcomed.connections, time] at step
    exact step
  have checks : Site.Step openServer ⟨w.tick, k, .scanning 1 [0]⟩ (.checked 0 [] k)
      ⟨w.tick, k, .scanning 1 []⟩ := by
    have step := @Site.Step.check openServer w.tick k k k 1 0 [] []
    rw [welcomed.tick.processConnection] at step
    refine step rfl ⟨rfl, ?_, ⟨[], rfl, .done _⟩, Kernel.Grows.refl _⟩
    rw [welcomed.tick.recvs]
    exact List.cons_ne_nil _ _
  have purges : Site.Step openServer ⟨w.tick, k, .scanning 1 []⟩ .quiet ⟨w.tick, k, .waiting⟩ := by
    have step := @Site.Step.purge openServer w.tick k 1
    rw [welcomed.tick.purge] at step
    exact step rfl
  refine ⟨w.tick, k, ?_, welcomed.tick, socket⟩
  exact ((walk.step scans fun _ => trivial).step checks fun _ => trivial).step purges fun _ => trivial

/-- The request with the first octets of a message that does not fit into one `recv`. -/
def pipelinedChunk : Chunk where
  octets := sampleRequest ++ longMessage.take (4096 - sampleRequest.length)
  nonempty := List.append_ne_nil_of_left_ne_nil (by decide +kernel) _
  fits := by
    have length : sampleRequest.length ≤ 4096 := by decide +kernel
    rw [List.length_append, List.length_take, readChunkSize]
    omega

theorem longMessage_part {b c : Bytes} (cut : b ++ c = longMessage) (missing : c ≠ []) :
    parseFrame b openServer.options.maxMessageSize = .incomplete := by
  have limit : openServer.options.maxMessageSize = defaultMaxMessageSize := by decide +kernel
  have data : ¬ opcodeIsControl opcodeBinary := by decide
  have notClose : opcodeBinary ≠ opcodeClose := by decide
  have parsed := parseFrame_clientFrame ⟨0, 0, 0, 0⟩
    ⟨opcodeBinary, true, longMessage.length, List.replicate 4087 0⟩ [] openServer.options.maxMessageSize
    ⟨show opcodeIsValid opcodeBinary by decide, fun control => absurd control data, fun _ => ?_,
      fun close => absurd close notClose⟩ ?_ rfl
  · rw [List.append_nil] at parsed
    exact AcceptedFrame.incomplete ⟨longMessage, _, parsed, rfl⟩ cut missing
  · rw [List.length_replicate, limit, defaultMaxMessageSize]
    decide
  · rw [List.length_replicate]
    decide

/-- The rest of a message stays in the socket, and no event is left for it. -/
theorem readiness_lost : ∃ m, (hello pipelinedChunk [1]).Starts 3 ∧
    Site.Walk openServer (fun _ _ _ => True) (hello pipelinedChunk [1]) m ∧ m.phase = .waiting ∧
    0 ∈ m.world.connections ∧ (m.world.conn 0).isOpen = true ∧ (m.world.conn 0).upgraded = true ∧
    (m.world.conn 0).closeAfterWrite = false ∧ (m.kernel.sockets 0).waiting ≠ [] ∧
    (m.kernel.sockets 0).marked = false := by
  have short : sampleRequest.length < 4096 := by decide +kernel
  have some : longMessage.drop (4096 - sampleRequest.length) ≠ [] := by
    rw [Ne, List.drop_eq_nil_iff, longMessage_length]
    have : 1 < sampleRequest.length := by decide +kernel
    omega
  obtain ⟨header, octets⟩ : ∃ header : HeaderBlock sampleLib [], header.octets = sampleRequest :=
    exists_headerBlock (by decide +kernel) (by decide +kernel) (by decide +kernel) (by decide +kernel)
  have asks : parseUpgrade sampleLib [] pipelinedChunk.octets = .ok header.upgrade := by
    have accepted := header.accepted_append (longMessage.take (4096 - sampleRequest.length))
    rw [octets] at accepted
    exact accepted (pipelinedChunk.fits.trans (by decide))
  have part : parseFrame (pipelinedChunk.octets.drop header.upgrade.bytesConsumed)
      openServer.options.maxMessageSize = .incomplete := by
    refine longMessage_part ?_ some
    have behind : (sampleRequest ++ longMessage.take (4096 - sampleRequest.length)).drop
        sampleRequest.length = longMessage.take (4096 - sampleRequest.length) := List.drop_left
    rw [header.consumed, octets, pipelinedChunk, behind, List.take_append_drop]
  obtain ⟨w, k, walk, welcomed, socket⟩ := hello_welcomed
    asks part
  refine ⟨⟨w, k, .waiting⟩, hello_starts _ _, walk.mono fun _ _ _ _ => trivial, rfl, ?_, ?_, ?_, ?_, ?_,
    by rw [socket]⟩
  · rw [welcomed.connections]
    exact List.mem_singleton_self 0
  · rw [welcomed.conn]
    rfl
  · rw [welcomed.conn]
  · rw [welcomed.conn]
    rfl
  · have left : (k.sockets 0).waiting = sentAtOne (longMessage.drop (4096 - sampleRequest.length)) := by
      rw [socket]
    intro empty
    exact some (sentAtOne_eq_nil (left.symm.trans empty))

theorem sampleRequestChunk_asks : ∃ upgrade,
    parseUpgrade sampleLib [] sampleRequestChunk.octets = .ok upgrade ∧
      parseFrame (sampleRequestChunk.octets.drop upgrade.bytesConsumed)
        openServer.options.maxMessageSize = .incomplete := by
  obtain ⟨header, octets⟩ : ∃ header : HeaderBlock sampleLib [], header.octets = sampleRequest :=
    exists_headerBlock (by decide +kernel) (by decide +kernel) (by decide +kernel) (by decide +kernel)
  refine ⟨header.upgrade, ?_, ?_⟩
  · have accepted := header.accepted
    rw [octets] at accepted
    exact accepted
  · rw [header.consumed, octets, sampleRequestChunk, List.drop_length]
    rfl

/-- A client is welcomed, and a Ping arrives while the server waits. -/
theorem readiness_kept_welcomed : ∃ m, (hello sampleRequestChunk [1]).Starts 3 ∧
    Site.Walk openServer Drains (hello sampleRequestChunk [1]) m ∧ m.phase = .waiting ∧
    (m.world.conn 0).upgraded = true ∧ (m.kernel.sockets 0).waiting ≠ [] ∧
    (m.kernel.sockets 0).marked = true := by
  obtain ⟨upgrade, asks, part⟩ := sampleRequestChunk_asks
  obtain ⟨w, k, walk, welcomed, socket⟩ := hello_welcomed asks part
  let ping : List Arrival := [0x89, 0x80, 1, 2, 3, 4].map fun octet => ⟨octet, k.time⟩
  have arrives : Site.Step openServer ⟨w, k, .waiting⟩ .quiet
      ⟨w, k.setSocket 0 ((k.sockets 0).arrive ping), .waiting⟩ :=
    .arrive (k.grows_arrive 0 (by simp [ping]))
  have pinged : Site.Walk openServer Drains (hello sampleRequestChunk [1]) _ :=
    (walk.mono fun _ _ _ drains => drains rfl).step arrives trivial
  have upgraded : (w.conn 0).upgraded = true := by rw [welcomed.conn]
  have some : ((k.setSocket 0 ((k.sockets 0).arrive ping)).sockets 0).waiting ≠ [] := by
    rw [setSocket_self, Inbox.arrive]
    exact List.append_ne_nil_of_right_ne_nil _ (List.cons_ne_nil _ _)
  refine ⟨_, hello_starts _ _, pinged, rfl, upgraded, some, ?_⟩
  refine (readiness_kept (hello_starts _ _) pinged rfl).1 0 ?_ ?_ upgraded ?_ some
  · rw [welcomed.connections]
    exact List.mem_singleton_self 0
  · rw [welcomed.conn]
    rfl
  · rw [welcomed.conn]
    rfl

end PhpWebSocket
