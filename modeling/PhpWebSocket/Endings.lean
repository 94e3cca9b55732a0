import PhpWebSocket.Runs

/-! # How a connection ends

The functions that take a connection out of the table, tell the user about it, or give
up on it: the removal with its callback, the purge, the end of a run, and the timeouts.
The source removes a connection before it calls `on_close`; seen as moves, the callback
has been told by the time the connection leaves.
-/

namespace PhpWebSocket

open Lib Relation

namespace Handles

variable {server : Server} {h : Hub} {done r : Bool × Hub}

theorem bindIf (settled : Settled h) (first : Handles server h [] done)
    (next : Settled done.2 → Handles server done.2 [] r) :
    Handles server h [] (if done.1 then r else (false, done.2)) := by
  obtain ⟨ok, after⟩ := done
  cases ok with
  | false => exact first
  | true => exact first.bind (next (first.settled settled))

end Handles

namespace Hub

variable {server : Server} {h : Hub} {i : ConnId}

/-! ## The callback for the end -/

theorem notified_acts (server : Server) (settled : Settled h) (born : i < h.nextConnectionId)
    (closed : (h.conn i).isOpen = false) (upgraded : (h.conn i).upgraded = true)
    (first : (h.conn i).closeNotified = false) :
    Acts server h ((h.setConn i { h.conn i with closeNotified := true }).emit (.closed i)) := by
  have same : (h.setConn i { h.conn i with closeNotified := true }).emit (.closed i) =
      h.evolve i { h.conn i with closeNotified := true } h.env [.closed i] := by
    simp [setConn, emit, evolve]
  rw [same]
  exact Acts.single (Act.evolve born rfl (by simp [Event.about]) (by simp)
    (Life.Step.notify settled.quiet closed upgraded first))

theorem notifyConnectionClosed_handles (settled : Settled h) (born : i < h.nextConnectionId)
    (closed : (h.conn i).isOpen = false) :
    Handles server h [] (h.notifyConnectionClosed server i) := by
  unfold notifyConnectionClosed
  cases (server.handlers h.trace).onClose with
  | none => exact Handles.refl settled
  | some onClose =>
      dsimp only
      split
      · exact Handles.refl settled
      · rename_i first
        simp only [Bool.or_eq_true, Bool.not_eq_true', not_or, Bool.not_eq_false,
          Bool.not_eq_true] at first
        exact callUser_handles settled (notified_acts server settled born closed first.1 first.2) _ _

/-! ## The removal -/

/-- What `close_connection_at` has done before the callback, but for the table. -/
def shutDown (h : Hub) (i : ConnId) : Hub :=
  { h.shut i with env := if (h.conn i).fd.isSome then h.env.unwatch (h.conn i).fd else h.env }

theorem shutDown_acts (born : i < h.nextConnectionId) : Acts server h (h.shutDown i) := by
  refine (shut_acts born).trans (env_acts ?_)
  split <;> rfl

theorem shutDown_closed (h : Hub) (i : ConnId) : ((h.shutDown i).conn i).isOpen = false := by
  rw [shutDown, shut, conn_setConn]

theorem closeConnectionAt_eq {index : Nat} (here : h.connections[index]? = some i)
    (notify : Bool) :
    h.closeConnectionAt server index notify =
      let gone := { h.shutDown i with connections := h.connections.eraseIdx index }
      let notified := if notify then gone.notifyConnectionClosed server i else (true, gone)
      (notified.1, notified.2.closeSocket i) := by
  have fd : ({ h with connections := h.connections.eraseIdx index }.shut i |>.conn i).fd =
      (h.conn i).fd := by
    rw [shut, conn_setConn]
  simp only [closeConnectionAt, here, fd, shutDown]
  rfl

theorem closeConnectionAt_handles (settled : Settled h) (index : Nat) :
    Handles server h [] (h.closeConnectionAt server index true) := by
  cases here : h.connections[index]? with
  | none =>
      rw [closeConnectionAt, here]
      exact Handles.refl settled
  | some i =>
      have born := settled.grounded.listed i (List.mem_of_getElem? here)
      have down : Acts server h (h.shutDown i) := shutDown_acts born
      have settledDown := settled.acts down
      have closed := h.shutDown_closed i
      rw [closeConnectionAt_eq here]
      simp only [if_true, notifyConnectionClosed]
      generalize atGone : h.shutDown i = gone at down settledDown closed
      have connections : gone.connections = h.connections := by rw [← atGone]; rfl
      have goneBorn : i < gone.nextConnectionId := Nat.lt_of_lt_of_le born down.next_le
      rw [← connections] at here ⊢
      cases handler : (server.handlers gone.trace).onClose with
      | none =>
          refine (Handles.of_acts settled (down.trans (Acts.single (Act.remove index here closed ?_)))
            ).andThen (closeSocket_acts goneBorn)
          intro _ registered
          have some := registered gone.trace
          rw [handler] at some
          cases some
      | some onClose =>
          dsimp only
          split
          · rename_i told
            refine (Handles.of_acts settled (down.trans (Acts.single (Act.remove index here closed ?_)))
              ).andThen (closeSocket_acts goneBorn)
            intro _ _ upgraded
            simpa [upgraded] using told
          · rename_i first
            simp only [Bool.or_eq_true, Bool.not_eq_true', not_or, Bool.not_eq_false,
              Bool.not_eq_true] at first
            have notified := notified_acts server settledDown goneBorn closed first.1 first.2
            generalize atTold : (gone.setConn i { gone.conn i with closeNotified := true }).emit
              (.closed i) = told at notified
            have conn : told.conn i = { gone.conn i with closeNotified := true } := by
              rw [← atTold]
              exact conn_setConn gone i _
            have removed : Acts server h { told with connections := told.connections.eraseIdx index } := by
              refine (down.trans notified).trans (Acts.single (Act.remove (i := i) index ?_ ?_ ?_))
              · rw [← atTold]
                exact here
              · rw [conn]
                exact closed
              · intro _ _ _
                rw [conn]
            have same : ({ gone with connections := gone.connections.eraseIdx index }.setConn i
                { gone.conn i with closeNotified := true }).emit (.closed i) =
                  { told with connections := told.connections.eraseIdx index } := by
              rw [← atTold]
              rfl
            rw [same]
            have called := callUser_handles settled removed (onClose i)
              "Failed to call WebSocket server handler"
            exact called.andThen (closeSocket_acts (Nat.lt_of_lt_of_le born called.moves.next_le))

theorem closeConnectionAt_acts (server : Server) (ground : Grounded h) (pending : ¬ h.Quiet) (index : Nat) :
    (h.closeConnectionAt server index false).1 = true ∧
      Acts server h (h.closeConnectionAt server index false).2 := by
  cases here : h.connections[index]? with
  | none =>
      rw [closeConnectionAt, here]
      exact ⟨rfl, Acts.refl h⟩
  | some i =>
      have born := ground.listed i (List.mem_of_getElem? here)
      have down : Acts server h (h.shutDown i) := shutDown_acts born
      rw [closeConnectionAt_eq here]
      refine ⟨rfl, (down.trans (Acts.single (Act.remove index here (h.shutDown_closed i) ?_))).trans
        (closeSocket_acts born)⟩
      intro quiet
      exact absurd (down.exception.symm.trans quiet) pending

/-! ## The purge and the end of a run -/

theorem purgeFrom_handles (settled : Settled h) (fuel index : Nat) :
    Handles server h [] (h.purgeFrom server fuel index) := by
  induction fuel generalizing h index with
  | zero => exact Handles.refl settled
  | succ fuel ih =>
      unfold purgeFrom
      cases h.connections[index]? with
      | none => exact Handles.refl settled
      | some i =>
          dsimp only
          split
          · exact (closeConnectionAt_handles settled index).bindIf settled fun after => ih after index
          · exact ih settled (index + 1)

theorem closeAllFrom_handles (settled : Settled h) (fuel : Nat) :
    Handles server h [] (h.closeAllFrom server fuel true) := by
  induction fuel generalizing h with
  | zero => exact Handles.refl settled
  | succ fuel ih =>
      unfold closeAllFrom
      split
      · exact Handles.refl settled
      · exact (closeConnectionAt_handles settled _).bindIf settled fun after => ih after

theorem closeAllFrom_acts (ground : Grounded h) (pending : ¬ h.Quiet) (fuel : Nat) :
    Acts server h (h.closeAllFrom server fuel false).2 := by
  induction fuel generalizing h with
  | zero => exact Acts.refl h
  | succ fuel ih =>
      unfold closeAllFrom
      split
      · exact Acts.refl h
      · obtain ⟨closed, acts⟩ := closeConnectionAt_acts server ground pending
          (h.connections.length - 1)
        rw [if_pos closed]
        exact acts.trans (ih (acts.grounded ground)
          fun quiet => pending (acts.exception.symm.trans quiet))

/-- The listener is given up at the end of a run. -/
def unlistened (h : Hub) : Hub :=
  match h.listenerFd with
  | none => h
  | some fd => { h with listenerFd := none, env := h.env.unwatch (some fd) }

theorem unlistened_acts (h : Hub) : Acts server h h.unlistened := by
  unfold unlistened
  split
  · exact Acts.refl h
  · exact Acts.single (Act.world (fun _ => rfl) rfl rfl rfl (Nat.le_refl _))

theorem runtimeClose_eq (h : Hub) (notify : Bool) :
    h.runtimeClose server notify =
      let closed := h.unlistened.closeAllConnections server notify
      if closed.1 then closed.2 else (closed.2.closeAllConnections server false).2 := by
  rfl

/-- The end of a run, which tells every connection left unless an exception is pending,
    and goes on without telling once a callback has thrown. -/
theorem runtimeClose_moves (server : Server) (ground : Grounded h) (unasked : h.Quiet → ∀ i, Unasked h i) :
    Moves server h (h.runtimeClose server h.env.exception.isNone) := by
  have first : Acts server h h.unlistened := unlistened_acts h
  rw [runtimeClose_eq]
  cases quiet : h.env.exception with
  | none =>
      have settled : Settled h.unlistened := Settled.acts ⟨quiet, unasked quiet, ground⟩ first
      have closing : Handles server h.unlistened []
          (h.unlistened.closeAllConnections server true) := closeAllFrom_handles settled _
      have moves := first.moves.trans closing.moves
      simp only [Option.isNone_none]
      split
      · exact moves
      · rename_i failed
        refine moves.trans (Acts.moves (closeAllFrom_acts (moves.grounded ground) ?_ _))
        intro quiet
        exact failed (closing.quiet_true quiet)
  | some e =>
      have pending : ¬ h.unlistened.Quiet := by
        intro quietAfter
        have same := first.exception.symm.trans quietAfter
        rw [quiet] at same
        cases same
      have closing : Acts server h.unlistened (h.unlistened.closeAllConnections server false).2 :=
        closeAllFrom_acts (first.grounded ground) pending _
      have acts := first.trans closing
      simp only [Option.isNone_some]
      split
      · exact acts.moves
      · refine (acts.trans (closeAllFrom_acts (acts.grounded ground) ?_ _)).moves
        intro quietAfter
        exact pending (closing.exception.symm.trans quietAfter)

theorem runtimeClose_raised (server : Server) (ground : Grounded h) (e : PhpError) :
    Moves server h ((h.raise e).runtimeClose server false) ∧
      ¬ ((h.raise e).runtimeClose server false).Quiet := by
  have pending : ¬ (h.raise e).Quiet := by simp [Quiet, raise, Env.raise]
  have closing : Moves server (h.raise e) ((h.raise e).runtimeClose server false) :=
    runtimeClose_moves server ⟨ground.listed, ground.present, ground.unborn⟩
      fun quiet => absurd quiet pending
  exact ⟨(ReflTransGen.single (Move.raise e)).trans closing, fun quiet => pending (closing.quiet quiet)⟩

/-! ## Timeouts -/

theorem closeExpiredConnection_acts (born : i < h.nextConnectionId) :
    Acts server h (h.closeExpiredConnection i) := by
  unfold closeExpiredConnection
  split
  · exact closeWithCode_acts born (by decide)
  · exact closeSocket_acts born

/-- A heartbeat never fails: if the Ping is refused, the connection is closed. -/
theorem processHeartbeat_acts (server : Server) (born : i < h.nextConnectionId) (nowUsec : Nat) :
    (h.processHeartbeat server i nowUsec).1 = true ∧
      Acts server h (h.processHeartbeat server i nowUsec).2 := by
  simp only [processHeartbeat]
  split
  · exact ⟨rfl, Acts.refl h⟩
  · split
    · split
      · exact ⟨rfl, closeWithCode_acts born (by decide)⟩
      · exact ⟨rfl, Acts.refl h⟩
    · split
      · exact ⟨rfl, Acts.refl h⟩
      · have offered : Offered i (h.trace.of i) opcodePing [] .heartbeat := ⟨rfl, rfl⟩
        have sent := sendFrame_acts server born offered
        have later := Nat.lt_of_lt_of_le born sent.next_le
        split
        · exact ⟨rfl, sent.trans (closeWithCode_acts later (by decide))⟩
        · exact ⟨rfl, sent.trans (setConn_acts later (Yields.marks ..))⟩

/-! ## The table -/

theorem callUser_connections (h : Hub) (script : Script) (failure : String) :
    (h.callUser script failure).2.connections = h.connections := by
  have spares := (runScript_spares script h).connections
  simp only [callUser]
  split <;> exact spares

theorem closeConnectionAt_connections (h : Hub) (index : Nat) (notify : Bool) :
    (h.closeConnectionAt server index notify).2.connections = h.connections.eraseIdx index := by
  have notified : ∀ (gone : Hub) (i : ConnId),
      (gone.notifyConnectionClosed server i).2.connections = gone.connections := by
    intro gone i
    unfold notifyConnectionClosed
    cases (server.handlers gone.trace).onClose with
    | none => rfl
    | some onClose =>
        dsimp only
        split
        · rfl
        · exact callUser_connections _ _ _
  cases here : h.connections[index]? with
  | none =>
      rw [closeConnectionAt, here, List.eraseIdx_of_length_le (List.getElem?_eq_none_iff.mp here)]
  | some i =>
      rw [closeConnectionAt_eq here]
      cases notify with
      | false => rfl
      | true => exact notified _ i

theorem closeAllFrom_empty (fuel : Nat) (h : Hub) (notify : Bool)
    (enough : h.connections.length ≤ fuel) (ok : (h.closeAllFrom server fuel notify).1 = true) :
    (h.closeAllFrom server fuel notify).2.connections = [] := by
  induction fuel generalizing h with
  | zero => exact List.eq_nil_of_length_eq_zero (Nat.le_zero.mp enough)
  | succ fuel ih =>
      simp only [closeAllFrom] at ok ⊢
      split
      · rename_i empty
        exact List.eq_nil_of_length_eq_zero empty
      · rename_i more
        rw [if_neg more] at ok
        split
        · rename_i closed
          rw [if_pos closed] at ok
          refine ih _ ?_ ok
          rw [closeConnectionAt_connections, List.length_eraseIdx]
          split <;> omega
        · rename_i failed
          rw [if_neg failed] at ok
          cases ok

/-- Without callbacks nothing stops the closing. -/
theorem closeAllFrom_silent (fuel : Nat) (h : Hub) : (h.closeAllFrom server fuel false).1 = true := by
  induction fuel generalizing h with
  | zero => rfl
  | succ fuel ih =>
      have closed : (h.closeConnectionAt server (h.connections.length - 1) false).1 = true := by
        unfold closeConnectionAt
        split <;> rfl
      simp only [closeAllFrom, closed, if_true]
      split
      · rfl
      · exact ih _

end Hub

end PhpWebSocket
