import PhpWebSocket.Opening

/-! # Rounds of the server

Accepting, reading frames, the scans over the table, and the loop of `run`. Each of
these calls is a run of moves, and each returns true exactly if every Ping it handled
could be answered, or leaves an exception.
-/

namespace PhpWebSocket

open Lib Relation

/-! ## Accepting -/

namespace Hub

variable {server : Server} {h : Hub}

/-- A new connection, in the table. -/
def enlisted (server : Server) (h : Hub) (fd time : Nat) (env : Env) : Hub :=
  { h with
    conn := Function.update h.conn h.nextConnectionId
      { Connection.opened fd with
        acceptedAtUsec := time
        lastActivityUsec := time
        maxQueuedBytes := server.options.maxQueuedBytes }
    connections := h.connections ++ [h.nextConnectionId]
    nextConnectionId := h.nextConnectionId + 1
    env }

theorem enlisted_acts (ground : Grounded h) (fd time : Nat) {env : Env}
    (exception : env.exception = h.env.exception) :
    Acts server h (h.enlisted server fd time env) := by
  have counted : Act server h { h with nextConnectionId := h.nextConnectionId + 1 } :=
    Act.world (fun _ => rfl) rfl rfl rfl (Nat.le_succ _)
  have listed : Act server { h with nextConnectionId := h.nextConnectionId + 1 }
      { h with
        nextConnectionId := h.nextConnectionId + 1
        connections := h.connections ++ [h.nextConnectionId] } :=
    Act.enlist h.nextConnectionId (Nat.lt_succ_self _)
  generalize atListed : ({ h with
    nextConnectionId := h.nextConnectionId + 1
    connections := h.connections ++ [h.nextConnectionId] } : Hub) = table at listed
  have unborn : table.life h.nextConnectionId = ⟨{}, []⟩ := by
    rw [← atListed]
    exact ground.unborn h.nextConnectionId (Nat.le_refl _)
  have log : table.trace.of h.nextConnectionId = [] := congrArg Life.log unborn
  have born : h.nextConnectionId < table.nextConnectionId := by
    rw [← atListed]
    exact Nat.lt_succ_self _
  have here : h.nextConnectionId ∈ table.connections := by
    rw [← atListed]
    exact List.mem_append_right _ (List.mem_singleton_self _)
  have created : Act server table (table.evolve h.nextConnectionId
      { Connection.opened fd with
        acceptedAtUsec := time
        lastActivityUsec := time
        maxQueuedBytes := server.options.maxQueuedBytes } env []) := by
    apply Act.evolve born (exception.trans (by rw [← atListed])) (by simp) (by simp)
    rw [unborn, log]
    exact Life.Step.create here
  have same : table.evolve h.nextConnectionId
      { Connection.opened fd with
        acceptedAtUsec := time
        lastActivityUsec := time
        maxQueuedBytes := server.options.maxQueuedBytes } env [] = h.enlisted server fd time env := by
    rw [← atListed]
    simp [evolve, enlisted]
  rw [← same]
  exact ((Acts.single counted).trans (Acts.single listed)).trans (Acts.single created)

theorem watchRead_exception (env : Env) (fd : Nat) :
    (env.watchRead fd).2.exception = env.exception := by
  unfold Env.watchRead
  split <;> rfl

end Hub

namespace World

variable {server : Server} {w w' : World} {i : ConnId} {r : Bool × World}

/-- A call that only acts, or that raises an exception behind its acts and returns
    false. -/
def ActsOrRaises (server : Server) (w : World) (r : Bool × World) : Prop :=
  Acts server w.toHub r.2.toHub ∨
    r.1 = false ∧ ∃ h e, Acts server w.toHub h ∧ r.2.toHub = h.raise e

theorem ActsOrRaises.prepend (acts : Acts server w.toHub w'.toHub)
    (call : ActsOrRaises server w' r) : ActsOrRaises server w r := by
  rcases call with later | ⟨failed, h, e, later, raised⟩
  · exact Or.inl (acts.trans later)
  · exact Or.inr ⟨failed, h, e, acts.trans later, raised⟩

/-- What the new connection looks like before the driver watches it. -/
def newcomer (server : Server) (w : World) (fd : Nat) : Hub :=
  w.toHub.enlisted server fd w.env.now.1 (w.env.now.2.watchRead fd).2

theorem openConnection_watched {fd : Nat} (watched : (w.env.now.2.watchRead fd).1 = true) :
    (w.openConnection server fd).2.toHub =
      (w.newcomer server fd).emit (.accepted w.nextConnectionId) := by
  simp [openConnection, setReads, Hub.now, Hub.setConn, watched, newcomer, Hub.enlisted, Hub.emit]

theorem openConnection_unwatched {fd : Nat} (watched : (w.env.now.2.watchRead fd).1 = false) :
    (w.openConnection server fd).2.toHub =
      { (w.newcomer server fd).closeSocket w.nextConnectionId with
        connections := w.connections }.raise
        (.error ("Cannot watch accepted WebSocket connection with " ++
          ((w.env.now.2.watchRead fd).2.driver.getD {}).name ++ " driver: " ++
          server.lib.strerror ((w.env.now.2.watchRead fd).2.errno.getD (.other 0)))) := by
  simp [openConnection, setReads, Hub.now, Hub.setConn, watched, newcomer, Hub.enlisted,
    Hub.closeSocket, Hub.relink, Hub.link]

theorem openConnection_acts (ground : Grounded w.toHub) (fd : Nat) :
    ActsOrRaises server w (w.openConnection server fd) := by
  have watching : (w.env.now.2.watchRead fd).2.exception = w.env.exception := by
    rw [Hub.watchRead_exception, now_exception]
  have enlisted : Acts server w.toHub (w.newcomer server fd) :=
    Hub.enlisted_acts ground fd w.env.now.1 watching
  have born : w.nextConnectionId < (w.newcomer server fd).nextConnectionId := Nat.lt_succ_self _
  cases watched : (w.env.now.2.watchRead fd).1 with
  | true =>
      refine Or.inl (enlisted.trans ?_)
      rw [openConnection_watched watched, Hub.emit_eq _ w.nextConnectionId]
      exact Acts.single (Act.evolve born rfl (by simp [Event.about]) (by simp) Life.Step.accepted)
  | false =>
      have closing : Acts server (w.newcomer server fd)
          ((w.newcomer server fd).closeSocket w.nextConnectionId) := Hub.closeSocket_acts born
      generalize atClosed : (w.newcomer server fd).closeSocket w.nextConnectionId = closed at closing
      have table : closed.connections = w.connections ++ [w.nextConnectionId] := by
        rw [← atClosed]
        rfl
      have conn : closed.conn w.nextConnectionId =
          ((w.newcomer server fd).conn w.nextConnectionId).closeSocket := by
        rw [← atClosed]
        exact Hub.conn_relink ..
      have fresh : ((w.newcomer server fd).conn w.nextConnectionId).upgraded = false := by
        simp [newcomer, Hub.enlisted, Connection.opened]
      have removed : Acts server closed
          { closed with connections := closed.connections.eraseIdx w.connections.length } := by
        refine Acts.single (Act.remove (i := w.nextConnectionId) _ ?_ ?_ ?_)
        · rw [table]
          simp
        · rw [conn]
          rfl
        · intro _ _ upgraded
          rw [conn] at upgraded
          change ((w.newcomer server fd).conn w.nextConnectionId).upgraded = true at upgraded
          rw [fresh] at upgraded
          cases upgraded
      rw [table, List.eraseIdx_append_of_length_le (Nat.le_refl _), Nat.sub_self,
        List.eraseIdx_cons_zero, List.append_nil, ← atClosed] at removed
      have raised := @openConnection_unwatched server w fd watched
      rw [← atClosed] at closing
      refine Or.inr ⟨?_, _, _, (enlisted.trans closing).trans removed, raised⟩
      simp [openConnection, setReads, Hub.now, Hub.setConn, watched]

theorem acceptClient_acts (ground : Grounded w.toHub) (fd : Nat) (nonblocking : Option Errno) :
    ActsOrRaises server w (w.acceptClient server fd nonblocking) := by
  unfold acceptClient
  split
  · apply Or.inl
    have env : Acts server w.toHub
        { w.toHub with env := (w.env.sendBytes (some fd) serviceUnavailableResponse).2 } :=
      Hub.env_acts (Hub.sendBytes_exception _ _ _)
    refine env.trans (Acts.single (Act.world ?_ rfl rfl rfl (Nat.le_refl _)))
    intro j
    simp [Hub.life, Hub.emit, Trace.of, Event.about]
  · cases nonblocking with
    | some e => exact Or.inr ⟨rfl, w.toHub, _, Acts.refl _, rfl⟩
    | none => exact openConnection_acts ground fd

theorem acceptConnection_acts (ground : Grounded w.toHub) (answer : AcceptResult) :
    ActsOrRaises server w (w.acceptConnection server answer) := by
  cases answer with
  | failed e => exact Or.inl (setErrno_acts w e)
  | client fd nonblocking =>
      have cleared : Acts server w.toHub { w.toHub with env := { w.env with errno := none } } :=
        Hub.env_acts rfl
      exact (acceptClient_acts (w := { w with env := { w.env with errno := none } })
        (cleared.grounded ground) fd nonblocking).prepend cleared

theorem acceptLoop_ran (settled : Settled w.toHub) (answers : List AcceptResult) (accepted : Nat) :
    Ran server w (w.acceptLoop server answers accepted) := by
  induction answers generalizing w accepted with
  | nil =>
      unfold acceptLoop
      split
      · exact Ran.refl settled
      · exact Ran.of_acts settled (setErrno_acts w .eagain)
  | cons answer rest ih =>
      unfold acceptLoop
      split
      · exact Ran.refl settled
      · have next : Acts server w.toHub { w.toHub with env := { w.env with accepts := rest } } :=
          Hub.env_acts rfl
        have done : ActsOrRaises server w
            (({ w with env := { w.env with accepts := rest } } : World).acceptConnection server answer) :=
          (acceptConnection_acts (next.grounded settled.grounded) answer).prepend next
        dsimp only
        generalize World.acceptConnection server _ answer = done at done ⊢
        rcases done with acts | ⟨failed, h, e, acts, raised⟩
        · have after := settled.acts acts
          have quiet : done.2.env.exception = none := after.quiet
          split
          · exact Ran.bind_acts settled acts fun after => ih after _
          · rw [quiet]
            simp only [Option.isSome_none, Bool.false_eq_true, if_false]
            split
            · exact Ran.of_acts settled acts
            · split
              · exact Ran.bind_acts settled acts fun after => ih after _
              · exact Ran.of_acts settled acts
        · have pending : done.2.env.exception = some e := by
            rw [raised]
            rfl
          rw [failed, pending]
          simp only [Bool.false_eq_true, if_false, Option.isSome_some, if_true]
          refine ⟨[], Handles.threw ?_ ?_ ?_⟩
          · rw [raised]
            exact acts.moves.tail (Move.raise e)
          · rw [raised]
            exact acts.handled
          · rw [Hub.Quiet, pending]
            simp

theorem acceptPending_ran (settled : Settled w.toHub) : Ran server w (w.acceptPending server) :=
  acceptLoop_ran settled _ _

/-! ## Reading frames -/

theorem frameReadsLoop_ran (settled : Settled w.toHub) (recvs : List RecvResult) :
    Ran server w (w.frameReadsLoop server i recvs) := by
  induction recvs generalizing w with
  | nil =>
      unfold frameReadsLoop
      split
      · exact Ran.refl settled
      · exact Ran.bind_acts settled (setErrno_acts w .eagain) fun after =>
          processBufferedFrames_ran after
  | cons answer rest ih =>
      have next : Acts server w.toHub (w.setRecvs rest).toHub := setRecvs_acts w rest
      have failing : ∀ e, Acts server w.toHub ((w.setRecvs rest).setErrno e).toHub :=
        fun e => next.trans (setErrno_acts _ e)
      rw [frameReadsLoop.eq_def]
      dsimp only
      split
      · exact Ran.refl settled
      · rename_i reads
        simp only [Bool.not_eq_true', Bool.and_eq_false_iff, not_or, Bool.not_eq_false] at reads
        have born := Hub.born_of_open settled.grounded reads.1.1
        cases answer with
        | eof => exact Ran.bind_acts settled next fun after => failRecv_ran after born
        | failed e =>
            cases e with
            | eintr => exact Ran.bind_acts settled (failing _) fun after => ih after
            | eagain | ewouldblock =>
                exact Ran.bind_acts settled (failing _) fun after => processBufferedFrames_ran after
            | enobufs | epipe | econnreset | ebadf | other =>
                exact Ran.bind_acts settled (failing _) fun after => failRecv_ran after born
        | data chunk =>
            have touched : Acts server w.toHub ((w.setRecvs rest).touch i).toHub :=
              next.trans (touch_acts born)
            apply Ran.bind_acts settled touched
            intro after
            have stillBorn := Nat.lt_of_lt_of_le born touched.next_le
            dsimp only
            generalize (w.setRecvs rest).touch i = heard at after stillBorn
            cases (heard.reads i).ensureCapacity chunk.octets.length
                (readLimit server.options.maxMessageSize) with
            | none => exact ⟨[], Hub.closeWithCode_handles after stillBorn (by decide)⟩
            | some side =>
                have processed : Ran server heard
                    ((heard.setReads i (side.append chunk.octets)).processBufferedFrames server i) :=
                  processBufferedFrames_ran (w := heard.setReads i (side.append chunk.octets)) after
                exact processed.bind after fun _ later => ih later

/-! ## The scans -/

/-- The checks before a read cannot fail; they act, and what is ready is open. -/
theorem attend_acts (server : Server) (born : i < w.nextConnectionId) (nowUsec : Nat) :
    Acts server w.toHub (w.attend server i nowUsec).2.toHub ∧
      (w.attend server i nowUsec).1 ≠ .failed := by
  unfold attend
  split
  · exact ⟨Hub.closeExpiredConnection_acts born, by simp⟩
  · obtain ⟨ok, beat⟩ := Hub.processHeartbeat_acts server born nowUsec
    generalize w.processHeartbeat server i nowUsec = beaten at ok beat
    simp only [ok, Bool.not_true, Bool.false_eq_true, if_false]
    have later := Nat.lt_of_lt_of_le born beat.next_le
    generalize atFlushed : (if (beaten.2.conn i).hasPendingWrites then beaten.2.flush i
      else (true, beaten.2)) = flushed
    have acts : Acts server w.toHub flushed.2 := by
      rw [← atFlushed]
      split
      · exact beat.trans (Hub.flush_acts later)
      · exact beat
    split
    · exact ⟨acts, by simp⟩
    · exact ⟨acts, by simp⟩

theorem attend_ran (settled : Settled w.toHub) (born : i < w.nextConnectionId) (nowUsec : Nat)
    (read : World → Bool × World) (reads : ∀ {w : World}, Settled w.toHub → Ran server w (read w)) :
    Ran server w (match (w.attend server i nowUsec).1 with
      | .failed => (false, (w.attend server i nowUsec).2)
      | .finished => (true, (w.attend server i nowUsec).2)
      | .ready => read (w.attend server i nowUsec).2) := by
  obtain ⟨acts, going⟩ := attend_acts server born nowUsec
  cases atAttended : (w.attend server i nowUsec).1 with
  | failed => exact absurd atAttended going
  | finished => exact Ran.of_acts settled acts
  | ready => exact Ran.bind_acts settled acts fun after => reads after

theorem clocked_ran (settled : Settled w.toHub)
    (next : Settled w.now.2 → Ran server { w with toHub := w.now.2 } r) : Ran server w r := by
  have clocked : Acts server w.toHub w.now.2 := now_acts w.toHub
  obtain ⟨seen, call⟩ := next (settled.acts clocked)
  exact ⟨seen, call.prepend clocked.moves clocked.handled⟩

theorem processConnectionFd_ran (settled : Settled w.toHub) (fd : Nat) :
    Ran server w (w.processConnectionFd server fd) := by
  simp only [processConnectionFd]
  refine clocked_ran settled fun after => ?_
  cases found : List.find? (fun i => decide ((w.now.2.conn i).fd = some fd)) w.now.2.connections with
  | none => exact Ran.refl after
  | some i =>
      have born := after.grounded.listed i (List.mem_of_find?_eq_some found)
      dsimp only
      split
      · exact Ran.refl after
      · refine attend_ran (w := { w with toHub := w.now.2 }) after born w.now.1
          (fun w => if !(w.conn i).upgraded then w.processHandshake server i
            else w.processFrameReads server i) fun ready => ?_
        split
        · exact handshakeLoop_ran ready _
        · exact frameReadsLoop_ran ready _

theorem processConnection_ran (settled : Settled w.toHub) (born : i < w.nextConnectionId)
    (nowUsec : Nat) : Ran server w (w.processConnection server i nowUsec) := by
  unfold processConnection
  split
  · exact Ran.refl settled
  · refine attend_ran settled born nowUsec
      (fun w =>
        let shaken := if !(w.conn i).upgraded then w.processHandshake server i else (true, w)
        if !shaken.1 then (false, shaken.2)
        else if (shaken.2.conn i).upgraded && shaken.2.buffer i ≠ [] then
          shaken.2.processBufferedFrames server i
        else (true, shaken.2)) fun {w} ready => ?_
    dsimp only
    have shaken : Ran server w
        (if !(w.conn i).upgraded then w.processHandshake server i else (true, w)) := by
      split
      · exact handshakeLoop_ran ready _
      · exact Ran.refl ready
    generalize (if !(w.conn i).upgraded then w.processHandshake server i else (true, w)) = done
      at shaken
    refine shaken.bindUnless ready fun _ after => ?_
    split
    · exact processBufferedFrames_ran after
    · exact Ran.refl after

theorem processEach_ran (settled : Settled w.toHub) (nowUsec : Nat) (is : List ConnId)
    (born : ∀ i ∈ is, i < w.nextConnectionId) : Ran server w (w.processEach server nowUsec is) := by
  induction is generalizing w with
  | nil => exact Ran.refl settled
  | cons i rest ih =>
      have first : Ran server w (w.processConnection server i nowUsec) :=
        processConnection_ran settled (born i (List.mem_cons_self ..)) nowUsec
      have grown : w.nextConnectionId ≤ (w.processConnection server i nowUsec).2.nextConnectionId := by
        obtain ⟨seen, call⟩ := first
        exact call.moves.next_le
      exact first.bind settled fun _ after => ih after fun j mem =>
        Nat.lt_of_lt_of_le (born j (List.mem_cons_of_mem _ mem)) grown

theorem processConnections_ran (settled : Settled w.toHub) :
    Ran server w (w.processConnections server) :=
  clocked_ran settled fun after => processEach_ran after _ _ after.grounded.listed

theorem processReady_ran (settled : Settled w.toHub) (wait : WaitResult) :
    Ran server w (w.processReady server wait) := by
  cases wait with
  | idle | failed => exact Ran.refl settled
  | ready fd =>
      simp only [processReady]
      split
      · exact acceptPending_ran settled
      · exact processConnectionFd_ran settled fd

theorem purge_ran (settled : Settled w.toHub) :
    Ran server w (w.onHub (w.purgeClosedConnections server)) :=
  ⟨[], Hub.purgeFrom_handles settled _ _⟩

theorem serve_ran (settled : Settled w.toHub) (wait : WaitResult) :
    Ran server w (w.serve server wait) :=
  (processReady_ran settled wait).bindUnless settled fun _ after =>
    (processConnections_ran after).bindUnless after fun _ later => purge_ran later

theorem runRound_ran (settled : Settled w.toHub) (wait : WaitResult) :
    Ran server w (w.runRound server wait) := by
  cases wait with
  | ready | idle => exact serve_ran settled _
  | failed e =>
      have noted : Acts server w.toHub (w.setErrno e).toHub := setErrno_acts w e
      simp only [runRound]
      split
      · exact Ran.of_acts settled noted
      · refine ⟨[], Handles.threw (noted.moves.tail (Move.raise _)) noted.handled ?_⟩
        simp [Hub.Quiet, Hub.raise, Env.raise]

/-! ## The loop of `run` -/

/-- The loop waits, or `stop` was called, unless a call has returned false. -/
theorem runLoop_ran (server : Server) (settled : Settled w.toHub) (waits : List WaitResult) :
    ∃ ok, Ran server w (ok, (w.runLoop server waits).2) ∧
      (ok = true → (w.runLoop server waits).1 = .waiting ∨
        (w.runLoop server waits).2.running = false ∨ (w.runLoop server waits).2.stopped = true) ∧
      (ok = false → (w.runLoop server waits).1 = .left) := by
  have stopping : ∀ {w : World}, Settled w.toHub → (!(w.running && !w.stopped)) = true →
      ∃ ok, Ran server w (ok, w) ∧
        (ok = true → LoopState.left = .waiting ∨ w.running = false ∨ w.stopped = true) ∧
        (ok = false → LoopState.left = .left) := by
    intro w settled ended
    refine ⟨true, Ran.refl settled, fun _ => Or.inr ?_, fun _ => rfl⟩
    simpa using ended
  induction waits generalizing w with
  | nil =>
      unfold runLoop
      split
      · rename_i ended
        exact stopping settled ended
      · exact ⟨true, Ran.refl settled, fun _ => Or.inl rfl, fun h => absurd h (by decide)⟩
  | cons wait rest ih =>
      simp only [runLoop]
      split
      · rename_i ended
        exact stopping settled ended
      · have round : Ran server w (w.runRound server wait) := runRound_ran settled wait
        generalize w.runRound server wait = done at round
        obtain ⟨ok, after⟩ := done
        cases ok with
        | false => exact ⟨false, round, fun h => absurd h (by decide), fun _ => rfl⟩
        | true =>
            obtain ⟨seen, call⟩ := round
            obtain ⟨ok, later, on, off⟩ := ih (call.settled settled)
            exact ⟨ok, Ran.after call later, on, off⟩

theorem listening_acts (w : World) (fd : Nat) : Acts server w.toHub
    { w.toHub with listenerFd := some fd, env := (w.env.watchRead fd).2 } :=
  Acts.single (Act.world (fun _ => rfl) rfl (Hub.watchRead_exception _ _) rfl (Nat.le_refl _))

/-- How a run has come to where it is: it waits or has left its loop behind moves, and
    then closes; or it never listened, and an exception is pending. -/
inductive RunPost (server : Server) (w : World) : RunResult → Prop
  | waiting {w' : World} (moves : Moves server w.toHub w'.toHub) : RunPost server w (.waiting w')
  | left (w' : World) {after : World} {ok : Bool} (moves : Moves server w.toHub w'.toHub)
      (settled : w'.Quiet → Settled w'.toHub)
      (closed : after.toHub = w'.runtimeClose server w'.env.exception.isNone) :
      RunPost server w (.returned ok after)
  | failed {after : World} {ok : Bool} (moves : Moves server w.toHub after.toHub)
      (pending : ¬ after.Quiet) : RunPost server w (.returned ok after)

theorem runtimeRun_post (server : Server) (settled : Settled w.toHub) (waits : List WaitResult) :
    RunPost server w (w.runtimeRun server waits) := by
  unfold runtimeRun
  cases w.env.listener with
  | error e =>
      apply RunPost.failed (ReflTransGen.single (Move.raise e))
      simp [Hub.Quiet, Hub.raise, Env.raise]
  | ok fd =>
      have listening : Acts server w.toHub _ := listening_acts w fd
      dsimp only
      split
      · obtain ⟨closing, pending⟩ := Hub.runtimeClose_raised server
          (listening.grounded settled.grounded) _
        exact RunPost.failed (listening.moves.trans closing) pending
      · obtain ⟨ok, ⟨seen, call⟩, -, -⟩ := runLoop_ran server
          (w := { w with toHub := { w.toHub with listenerFd := some fd, env := (w.env.watchRead fd).2 } })
          (settled.acts listening) waits
        generalize World.runLoop server waits _ = looped at call ⊢
        have moves := listening.moves.trans call.moves
        obtain ⟨state, after⟩ := looped
        cases state with
        | waiting => exact RunPost.waiting moves
        | left =>
            exact RunPost.left after moves
              (fun quiet => ⟨quiet, call.unasked quiet, moves.grounded settled.grounded⟩) rfl

/-- A run is moves, whether it still waits or has returned. -/
theorem runtimeRun_moves (settled : Settled w.toHub) (waits : List WaitResult) :
    Moves server w.toHub (w.runtimeRun server waits).world.toHub := by
  have post := runtimeRun_post server settled waits
  cases run : w.runtimeRun server waits with
  | waiting w' =>
      rw [run] at post
      cases post with
      | waiting moves => exact moves
  | returned ok after =>
      rw [run] at post
      cases post with
      | failed moves => exact moves
      | left _ moves left closed =>
          change Moves server w.toHub after.toHub
          rw [closed]
          exact moves.trans (Hub.runtimeClose_moves server (moves.grounded settled.grounded)
            fun quiet => (left quiet).unasked)

end World

end PhpWebSocket
