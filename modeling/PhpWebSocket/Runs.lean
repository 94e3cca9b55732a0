import PhpWebSocket.Acceptance
import PhpWebSocket.Calls
import PhpWebSocket.FrameStream

/-! # What the functions of the server leave

Each function of the server returns a boolean, and false means two things: an exception
is pending, or a single send has failed. `Handles` says, of one call, which moves it
made, which frames it handled, and when it returned true; the functions are then
composed as the source composes them.
-/

namespace PhpWebSocket

open Lib Relation

/-- A state in which the server may be asked to go on. -/
structure Settled (h : Hub) : Prop where
  quiet : h.Quiet
  unasked : ∀ i, Unasked h i
  grounded : Grounded h

/-- If the frame is a Ping, its connection could take the Pong. -/
def Handled.Answerable (x : Handled) : Prop :=
  x.frame.opcode = opcodePing →
    Accepts x.conn x.env (serverFrame x.frame.payload opcodePong).length

/-- A call that has handled the frames `seen` and left `r`. -/
structure Handles (server : Server) (h : Hub) (seen : List Handled) (r : Bool × Hub) : Prop where
  moves : Moves server h r.2
  handled : r.2.handled = h.handled ++ seen
  clean : r.1 = true → r.2.Quiet
  unasked : r.2.Quiet → ∀ i, Unasked r.2 i
  verdict : r.2.Quiet → (r.1 = true ↔ ∀ x ∈ seen, x.Answerable)

/-- A call on a world, whatever frames it has handled. -/
def Ran (server : Server) (w : World) (r : Bool × World) : Prop :=
  ∃ seen, Handles server w.toHub seen (r.1, r.2.toHub)

/-! ## Moves -/

namespace Move

variable {server : Server} {h h' : Hub}

theorem quiet (move : Move server h h') (after : h'.Quiet) : h.Quiet := by
  cases move with
  | act act => rw [Hub.Quiet, ← act.exception]; exact after
  | ask | seen => exact after
  | raise => cases after

theorem next_le (move : Move server h h') : h.nextConnectionId ≤ h'.nextConnectionId := by
  cases move with
  | act act => exact act.next_le
  | ask | seen | raise => exact Nat.le_refl _

theorem grounded (move : Move server h h') (ground : Grounded h) : Grounded h' := by
  cases move with
  | act act => exact act.grounded ground
  | seen | raise => exact ⟨ground.listed, ground.present, ground.unborn⟩
  | ask i request born =>
      refine ⟨ground.listed, ground.present, ?_⟩
      intro j later
      rw [h.emit_eq i]
      rw [h.life_evolve_of_ne (Nat.ne_of_gt (Nat.lt_of_lt_of_le born later)) _ _ (by simp [Event.about])]
      exact ground.unborn j later

end Move

namespace Moves

variable {server : Server} {h h' h'' : Hub}

theorem trans (first : Moves server h h') (next : Moves server h' h'') : Moves server h h'' :=
  ReflTransGen.trans first next

theorem quiet (moves : Moves server h h') (after : h'.Quiet) : h.Quiet := by
  induction moves with
  | refl => exact after
  | tail _ move ih => exact ih (move.quiet after)

theorem next_le (moves : Moves server h h') : h.nextConnectionId ≤ h'.nextConnectionId := by
  induction moves with
  | refl => exact Nat.le_refl _
  | tail _ move ih => exact Nat.le_trans ih move.next_le

theorem grounded (moves : Moves server h h') (ground : Grounded h) : Grounded h' := by
  induction moves with
  | refl => exact ground
  | tail _ move ih => exact move.grounded ih

end Moves

/-! ## How calls compose -/

namespace Settled

variable {server : Server} {h h' : Hub}

theorem acts (settled : Settled h) (acts : Acts server h h') : Settled h' :=
  ⟨acts.exception.trans settled.quiet, fun i => acts.unasked (settled.unasked i),
    acts.grounded settled.grounded⟩

end Settled

namespace Handles

variable {server : Server} {h h' h'' : Hub} {seen later : List Handled} {ok : Bool} {r : Bool × Hub}

theorem arrive (moves : Moves server h h') (handled : h'.handled = h.handled)
    (after : Settled h') : Handles server h [] (true, h') :=
  ⟨moves, by rw [handled, List.append_nil], fun _ => after.quiet, fun _ => after.unasked,
    fun _ => by simp⟩

theorem of_acts (settled : Settled h) (acts : Acts server h h') : Handles server h [] (true, h') :=
  arrive acts.moves acts.handled (settled.acts acts)

theorem refl (settled : Settled h) : Handles server h [] (true, h) :=
  of_acts settled (Acts.refl h)

theorem settled (call : Handles server h seen (true, h')) (before : Settled h) : Settled h' :=
  ⟨call.clean rfl, call.unasked (call.clean rfl), call.moves.grounded before.grounded⟩

theorem bind (first : Handles server h seen (true, h')) (next : Handles server h' later r) :
    Handles server h (seen ++ later) r where
  moves := first.moves.trans next.moves
  handled := by rw [next.handled, first.handled, List.append_assoc]
  clean := next.clean
  unasked := next.unasked
  verdict quiet := by
    have answered := (first.verdict (first.clean rfl)).mp rfl
    rw [next.verdict quiet, List.forall_mem_append]
    exact ⟨fun rest => ⟨answered, rest⟩, fun all => all.2⟩

theorem prepend (moves : Moves server h h') (handled : h'.handled = h.handled)
    (call : Handles server h' seen r) : Handles server h seen r :=
  ⟨moves.trans call.moves, by rw [call.handled, handled], call.clean, call.unasked, call.verdict⟩

theorem bind_acts (settled : Settled h) (acts : Acts server h h')
    (next : Settled h' → Handles server h' seen r) : Handles server h seen r :=
  (next (settled.acts acts)).prepend acts.moves acts.handled

theorem andThen (call : Handles server h seen (ok, h')) (acts : Acts server h' h'') :
    Handles server h seen (ok, h'') where
  moves := call.moves.trans acts.moves
  handled := by rw [acts.handled]; exact call.handled
  clean succeeded := acts.exception.trans (call.clean succeeded)
  unasked quiet i := acts.unasked (call.unasked (acts.exception.symm.trans quiet) i)
  verdict quiet := call.verdict (acts.exception.symm.trans quiet)

theorem threw (moves : Moves server h h') (handled : h'.handled = h.handled)
    (pending : ¬ h'.Quiet) : Handles server h [] (false, h') :=
  ⟨moves, by rw [handled, List.append_nil], fun h => absurd h Bool.false_ne_true,
    fun quiet => absurd quiet pending, fun quiet => absurd quiet pending⟩

theorem quiet_true (call : Handles server h [] r) (quiet : r.2.Quiet) : r.1 = true :=
  (call.verdict quiet).mpr (by simp)

/-- The test of `EG(exception)` behind a call adds nothing. -/
theorem guarded (call : Handles server h seen r) :
    Handles server h seen (r.1 && r.2.env.exception.isNone, r.2) := by
  have same : (r.1 && r.2.env.exception.isNone) = r.1 := by
    cases ok : r.1 with
    | false => rfl
    | true =>
        have quiet : r.2.env.exception = none := call.clean ok
        rw [quiet]
        rfl
  rw [same]
  exact call

end Handles

namespace Hub

variable {server : Server} {h h' : Hub} {i : ConnId}

theorem born_of_open (ground : Grounded h) (isOpen : (h.conn i).isOpen = true) :
    i < h.nextConnectionId :=
  ground.listed i (ground.present i isOpen)

/-! ## User code -/

/-- User code acts, and then it may leave an exception. -/
theorem callUser_cases (ground : Grounded h) (script : Script) (failure : String) :
    Acts server h (h.callUser script failure).2 ∨
      ∃ h' e, Acts server h h' ∧ (h.callUser script failure) = (none, h'.raise e) := by
  have ran := runScript_acts server ground script
  simp only [callUser]
  cases (runScript script h).1 with
  | returned value => exact Or.inl ran
  | threw e => exact Or.inr ⟨_, e, ran, rfl⟩
  | uncallable => exact Or.inr ⟨_, _, ran, rfl⟩

theorem callUser_handles (settled : Settled h) (acts : Acts server h h') (script : Script)
    (failure : String) : Handles server h []
      ((h'.callUser script failure).2.env.exception.isNone, (h'.callUser script failure).2) := by
  rcases callUser_cases (acts.grounded settled.grounded) script failure with
    ran | ⟨h'', e, ran, threw⟩
  · have after := settled.acts (acts.trans ran)
    have quiet : (h'.callUser script failure).2.env.exception = none := after.quiet
    rw [quiet]
    exact Handles.of_acts settled (acts.trans ran)
  · rw [threw]
    have all := acts.trans ran
    apply Handles.threw (all.moves.tail (Move.raise e)) all.handled
    simp [Quiet, raise, Env.raise]

theorem callMessageHandler_handles (server : Server) (settled : Settled h) (born : i < h.nextConnectionId)
    (reading : (h.conn i).Reading) (payload : Bytes) (opcode : UInt8) :
    Handles server h [] (h.callMessageHandler server i payload opcode) := by
  unfold callMessageHandler
  cases (server.handlers h.trace).onMessage with
  | none => exact Handles.refl settled
  | some onMessage =>
      cases MessageType.fromOpcode opcode with
      | none => exact Handles.refl settled
      | some type =>
          refine callUser_handles settled ?_ _ _
          rw [emit_eq h i]
          exact Acts.single (Act.evolve born rfl (by simp [Event.about]) (by simp)
            (Life.Step.deliver settled.quiet reading))

/-! ## Frames -/

theorem closeWithCode_handles (settled : Settled h) (born : i < h.nextConnectionId) {code : Int}
    {reason : String} (known : (code, reason) ∈ serverReasons) :
    Handles server h [] (h.closeWithCode i code reason) :=
  Handles.of_acts settled (closeWithCode_acts born known)

theorem refuseFrames_handles (settled : Settled h) (born : i < h.nextConnectionId) {code : Int}
    {reason : String} (known : (code, reason) ∈ serverReasons) :
    Handles server h [] (h.refuseFrames i code reason) :=
  Handles.bind_acts settled (clearFragment_acts born) fun cleared =>
    closeWithCode_handles cleared born known

theorem appendFragment_yields {conn grown : Connection} {payload : Bytes} {maxMessageSize : Nat}
    (open_ : conn.fragmented = true)
    (appended : conn.appendFragment payload maxMessageSize = some grown) :
    Yields maxMessageSize conn grown ∧ (conn.Reading → grown.Reading) := by
  simp only [Connection.appendFragment] at appended
  split at appended
  · cases appended
  · rename_i within
    simp only [Bool.or_eq_true, decide_eq_true_eq, not_or, Nat.not_lt] at within
    split at appended
    · rename_i absent
      cases appended
      refine ⟨⟨rfl, rfl, rfl, id, fun _ => id, ?_⟩, id⟩
      intro ok
      exact absurd absent (ok.present.mp open_)
    · rename_i current present
      cases appended
      refine ⟨⟨rfl, rfl, rfl, id, fun _ => id, ?_⟩, id⟩
      intro ok
      rw [present, Option.getD_some] at within
      refine ⟨by simp [open_], ok.opcode, ?_⟩
      intro whole same
      cases same
      rw [List.length_append]
      omega

theorem handleDataFrame_handles (settled : Settled h) (reading : (h.conn i).Reading)
    {frame : ServerFrame} (ok : Acceptable server.options.maxMessageSize frame)
    (data : frame.opcode = opcodeText ∨ frame.opcode = opcodeBinary ∨
      frame.opcode = opcodeContinuation) :
    Handles server h [] (h.handleDataFrame server i frame) := by
  have born := born_of_open settled.grounded reading.1
  have within : frame.payload.length ≤ server.options.maxMessageSize := by
    apply ok.data
    rcases data with text | binary | continuation
    · rw [text]
      decide
    · rw [binary]
      decide
    · rw [continuation]
      decide
  simp only [handleDataFrame]
  split
  · split
    · exact closeWithCode_handles settled born (by decide)
    · rename_i fragmented
      simp only [Bool.not_eq_true', Bool.not_eq_false] at fragmented
      cases appended : (h.conn i).appendFragment frame.payload server.options.maxMessageSize with
      | none => exact refuseFrames_handles settled born (by decide)
      | some grown =>
          obtain ⟨yields, stillReading⟩ := appendFragment_yields fragmented appended
          apply Handles.bind_acts settled (setConn_acts born yields)
          intro after
          dsimp only
          split
          · exact Handles.refl after
          · split
            · exact refuseFrames_handles after born (by decide)
            · have grownReading : ((h.setConn i grown).conn i).Reading := by
                rw [conn_setConn]
                exact stillReading reading
              have called := callMessageHandler_handles server after born grownReading
                (grown.fragmentedPayload.getD []) grown.fragmentedOpcode
              exact called.andThen (clearFragment_acts (Nat.lt_of_lt_of_le born called.moves.next_le))
  · rename_i notContinuation
    split
    · exact refuseFrames_handles settled born (by decide)
    · split
      · split
        · exact closeWithCode_handles settled born (by decide)
        · exact callMessageHandler_handles server settled born reading _ _
      · refine Handles.of_acts settled (setConn_acts born ?_)
        refine ⟨rfl, rfl, rfl, id, fun _ => id, fun _ => ⟨by simp, ?_, ?_⟩⟩
        · intro _
          rcases data with text | binary | continuation
          · exact Or.inl text
          · exact Or.inr binary
          · exact absurd continuation notContinuation
        · intro payload same
          cases same
          exact within

theorem closeAfterWrite_clearFragment (h : Hub) (i : ConnId) :
    (h.clearFragment i).closeAfterWrite i = (h.closeAfterWrite i).clearFragment i := by
  have onLink : ∀ link : Link, (⟨link.conn.clearFragment, link.env⟩ : Link).closeAfterWrite =
      ⟨link.closeAfterWrite.conn.clearFragment, link.closeAfterWrite.env⟩ := by
    intro link
    have isOpen : link.conn.clearFragment.isOpen = link.conn.isOpen := rfl
    have pending : link.conn.clearFragment.hasPendingWrites = link.conn.hasPendingWrites := rfl
    simp only [Link.closeAfterWrite, isOpen, pending]
    split
    · rfl
    · split <;> rfl
  have atConn := onLink (h.link i)
  simp only [closeAfterWrite, clearFragment, setConn, relink, link, Function.update_self,
    Function.update_idem] at atConn ⊢
  rw [atConn]

/-- A Close frame is echoed if the connection takes the echo, and ends it either way. -/
theorem handleCloseFrame_acts (reading : (h.conn i).Reading) (born : i < h.nextConnectionId)
    {payload : Bytes} (valid : ClosePayload payload) (short : payload.length ≤ 125) :
    Acts server h (h.handleCloseFrame i payload).2 := by
  have bye := bye_acts server born .echo (by decide) valid short
  simp only [handleCloseFrame, reading.1, reading.2.2, Bool.and_self, if_true]
  split at bye
  · rename_i sent
    rw [if_pos sent, closeAfterWrite_clearFragment]
    exact bye.trans (clearFragment_acts (Nat.lt_of_lt_of_le born bye.next_le))
  · rename_i refused
    rw [if_neg refused]
    have later := Nat.lt_of_lt_of_le born bye.next_le
    exact (bye.trans (clearFragment_acts later)).trans (closeSocket_acts later)

theorem valid_opcodes {opcode : UInt8} (valid : opcodeIsValid opcode) :
    opcode = opcodeContinuation ∨ opcode = opcodeText ∨ opcode = opcodeBinary ∨
      opcode = opcodeClose ∨ opcode = opcodePing ∨ opcode = opcodePong := by
  simp only [opcodeIsValid, Bool.or_eq_true, decide_eq_true_eq] at valid
  tauto

/-- The answer to a Ping is the one place where a failed send becomes a false. -/
theorem handleFrame_handles (settled : Settled h) (reading : (h.conn i).Reading)
    {frame : ServerFrame} (ok : Acceptable server.options.maxMessageSize frame) :
    Handles server h [⟨h.conn i, h.env, frame⟩] (h.handleFrame server i frame) := by
  have born := born_of_open settled.grounded reading.1
  have onward : Settled { h with handled := h.handled ++ [⟨h.conn i, h.env, frame⟩] } :=
    ⟨settled.quiet, settled.unasked, settled.grounded.listed, settled.grounded.present,
      settled.grounded.unborn⟩
  have move : Moves server h { h with handled := h.handled ++ [⟨h.conn i, h.env, frame⟩] } :=
    ReflTransGen.single (Move.seen _)
  unfold handleFrame
  generalize atSeen : ({ h with handled := h.handled ++ [⟨h.conn i, h.env, frame⟩] } : Hub) = seen
  have conn : seen.conn i = h.conn i := by rw [← atSeen]
  have env : seen.env = h.env := by rw [← atSeen]
  have handled : seen.handled = h.handled ++ [⟨h.conn i, h.env, frame⟩] := by rw [← atSeen]
  rw [atSeen] at onward move
  have seenBorn : i < seen.nextConnectionId := Nat.lt_of_lt_of_le born move.next_le
  -- whatever the frame is but a Ping, the switch returns true unless an exception is pending
  have others : frame.opcode ≠ opcodePing → Handles server seen [] (seen.dispatchFrame server i frame) →
      Handles server h [⟨h.conn i, h.env, frame⟩] (seen.dispatchFrame server i frame) := by
    intro notPing call
    refine ⟨move.trans call.moves, by rw [call.handled, handled, List.append_nil], call.clean,
      call.unasked, ?_⟩
    intro quiet
    rw [call.verdict quiet]
    simp [Handled.Answerable, notPing]
  apply Handles.guarded
  by_cases ping : frame.opcode = opcodePing
  · have short : frame.payload.length ≤ 125 := (ok.control (by rw [ping]; decide)).2
    have offered : Offered i (seen.trace.of i) opcodePong frame.payload .pong := ⟨rfl, short⟩
    have sent := sendFrame_acts server seenBorn offered
    have result : seen.dispatchFrame server i frame =
        seen.sendFrame i .pong frame.payload opcodePong := by
      rw [dispatchFrame, if_neg (by rw [ping]; decide), if_pos ping]
    have after := onward.acts sent
    rw [result]
    refine ⟨move.trans sent.moves, by rw [sent.handled, handled], fun _ => after.quiet,
      fun _ => after.unasked, ?_⟩
    intro _
    have accepted := Link.sendFrame_iff (seen.link i) frame.payload opcodePong
    rw [show (seen.link i).conn = h.conn i from conn, show (seen.link i).env = h.env from env]
      at accepted
    simpa [Handled.Answerable, ping, sendFrame] using accepted
  · apply others ping
    unfold dispatchFrame
    rcases valid_opcodes ok.opcode with continuation | text | binary | close | isPing | pong
    · rw [if_pos (by rw [continuation]; decide)]
      exact handleDataFrame_handles onward (conn ▸ reading) ok (Or.inr (Or.inr continuation))
    · rw [if_pos (by rw [text]; decide)]
      exact handleDataFrame_handles onward (conn ▸ reading) ok (Or.inl text)
    · rw [if_pos (by rw [binary]; decide)]
      exact handleDataFrame_handles onward (conn ▸ reading) ok (Or.inr (Or.inl binary))
    · rw [if_neg (by rw [close]; decide), if_neg ping, if_neg (by rw [close]; decide), if_pos close]
      have short : frame.payload.length ≤ 125 := (ok.control (by rw [close]; decide)).2
      exact Handles.of_acts onward
        (handleCloseFrame_acts (conn ▸ reading) seenBorn (ok.close close) short)
    · exact absurd isPing ping
    · rw [if_neg (by rw [pong]; decide), if_neg ping, if_pos pong]
      exact Handles.of_acts onward (setConn_acts seenBorn (Yields.marks ..))

end Hub

/-! ## The loop over buffered frames -/

namespace Ran

variable {server : Server} {w w' : World} {r done : Bool × World}

theorem refl (settled : Settled w.toHub) : Ran server w (true, w) := ⟨[], Handles.refl settled⟩

theorem of_acts (settled : Settled w.toHub) (acts : Acts server w.toHub w'.toHub) :
    Ran server w (true, w') := ⟨[], Handles.of_acts settled acts⟩

theorem bind_acts (settled : Settled w.toHub) (acts : Acts server w.toHub w'.toHub)
    (next : Settled w'.toHub → Ran server w' r) : Ran server w r := by
  obtain ⟨seen, call⟩ := next (settled.acts acts)
  exact ⟨seen, call.prepend acts.moves acts.handled⟩

theorem after {seen : List Handled} (first : Handles server w.toHub seen (true, w'.toHub))
    (next : Ran server w' r) : Ran server w r := by
  obtain ⟨later, call⟩ := next
  exact ⟨seen ++ later, first.bind call⟩

theorem bind (settled : Settled w.toHub) (first : Ran server w done)
    (next : done.1 = true → Settled done.2.toHub → Ran server done.2 r) :
    Ran server w (if done.1 then r else (false, done.2)) := by
  obtain ⟨seen, call⟩ := first
  cases ok : done.1 with
  | false =>
      rw [ok] at call
      exact ⟨seen, call⟩
  | true =>
      rw [ok] at call
      obtain ⟨later, rest⟩ := next ok (call.settled settled)
      exact ⟨seen ++ later, call.bind rest⟩

theorem bindUnless (settled : Settled w.toHub) (first : Ran server w done)
    (next : done.1 = true → Settled done.2.toHub → Ran server done.2 r) :
    Ran server w (if !done.1 then (false, done.2) else r) := by
  have call := first.bind settled next
  cases ok : done.1 with
  | false | true =>
      rw [ok] at call
      exact call

end Ran

namespace World

variable {server : Server} {w : World} {i : ConnId}

theorem framesLoop_ran (settled : Settled w.toHub) (fuel : Nat) :
    Ran server w (w.framesLoop server i fuel) := by
  induction fuel generalizing w with
  | zero => exact Ran.refl settled
  | succ fuel ih =>
      simp only [framesLoop]
      split
      · exact Ran.refl settled
      · rename_i goes
        have reading : (w.conn i).Reading := by
          simp only [Bool.not_eq_true', Bool.and_eq_false_iff, not_or, Bool.not_eq_false] at goes
          exact ⟨goes.1.1.1, by simpa using goes.1.1.2, goes.1.2⟩
        have born := Hub.born_of_open settled.grounded reading.1
        cases parsed : parseFrame (w.buffer i) server.options.maxMessageSize with
        | incomplete => exact Ran.refl settled
        | messageTooBig | invalidPayload | protocolError =>
            exact ⟨[], Hub.refuseFrames_handles settled born (by decide)⟩
        | ok frame =>
            have acceptable := (clientFrame_of_parseFrame parsed).1
            have handled : Ran server w ((w.discard i frame.bytesConsumed).onHub
                ((w.discard i frame.bytesConsumed).handleFrame server i frame)) :=
              ⟨_, Hub.handleFrame_handles settled reading acceptable⟩
            exact handled.bind settled fun _ after => ih after

theorem processBufferedFrames_ran (settled : Settled w.toHub) :
    Ran server w (w.processBufferedFrames server i) := framesLoop_ran settled _

end World

end PhpWebSocket
