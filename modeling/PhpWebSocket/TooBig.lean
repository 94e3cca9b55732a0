import PhpWebSocket.Calls
import PhpWebSocket.FrameStream

/-! # The close with 1009

Which calls can end with the server's own Close frame for a message that is too big: on a
stream of frames that the parser accepts, only a continuation frame behind which the
message is longer than the limit.
-/

namespace PhpWebSocket

open Lib

/-- A Close frame of the server with 1009. -/
def Event.isTooBig (i : ConnId) : Event → Bool
  | .frame j .server opcode payload =>
      j = i && opcode = opcodeClose && closeCodeOf payload = closeMessageTooBig
  | _ => false

/-- A fragment with which the message is longer than the limit. -/
def Handled.Overlong (maxMessageSize : Nat) (x : Handled) : Prop :=
  x.frame.opcode = opcodeContinuation ∧
    maxMessageSize < (x.conn.fragmentedPayload.getD []).length + x.frame.payload.length

/-- The trace has grown, by a close with 1009 only if that is `allowed`. -/
def Grows (i : ConnId) (allowed : Prop) (h h' : Hub) : Prop :=
  ∃ more, h'.trace = h.trace ++ more ∧ h'.handled = h.handled ∧
    ((∃ e ∈ more, e.isTooBig i = true) → allowed)

namespace Grows

variable {i : ConnId} {allowed : Prop} {h h' h'' : Hub}

theorem still (trace : h'.trace = h.trace) (handled : h'.handled = h.handled) :
    Grows i allowed h h' :=
  ⟨[], by rw [trace, List.append_nil], handled, by simp⟩

theorem refl (h : Hub) : Grows i allowed h h := still rfl rfl

theorem trans (first : Grows i allowed h h') (next : Grows i allowed h' h'') :
    Grows i allowed h h'' := by
  obtain ⟨more, trace, handled, only⟩ := first
  obtain ⟨later, trace', handled', only'⟩ := next
  refine ⟨more ++ later, by rw [trace', trace, List.append_assoc], handled'.trans handled, ?_⟩
  rintro ⟨e, mem, tooBig⟩
  rcases List.mem_append.mp mem with old | new
  · exact only ⟨e, old, tooBig⟩
  · exact only' ⟨e, new, tooBig⟩

theorem emit {e : Event} (permitted : e.isTooBig i = true → allowed) :
    Grows i allowed h (h.emit e) :=
  ⟨[e], rfl, rfl, by simpa using permitted⟩

end Grows

namespace Hub

variable {i : ConnId} {allowed : Prop} {h : Hub} {server : Server}

theorem sendFrame_grows (j : ConnId) {source : FrameSource} {payload : Bytes} {opcode : UInt8}
    (permitted : (Event.frame j source opcode payload).isTooBig i = true → allowed) :
    Grows i allowed h (h.sendFrame j source payload opcode).2 := by
  simp only [sendFrame]
  split
  · have sent : Grows i allowed h (h.relink j ((h.link j).sendFrame payload opcode).2) :=
      Grows.still rfl rfl
    exact sent.trans (Grows.emit permitted)
  · exact Grows.still rfl rfl

theorem sendCloseFrame_grows (j : ConnId) {source : FrameSource} {code : Int} {reason payload : Bytes}
    (ok : closePayload code reason = .ok payload)
    (permitted : (Event.frame j source opcodeClose payload).isTooBig i = true → allowed) :
    Grows i allowed h (h.sendCloseFrame j source code reason).2 := by
  rw [sendCloseFrame_eq h j source ok]
  split
  · exact Grows.refl h
  · exact sendFrame_grows j permitted

theorem closeWithCode_grows (j : ConnId) {code : Int} {reason : String}
    (known : (code, reason) ∈ serverReasons) (permitted : code = closeMessageTooBig → allowed) :
    Grows i allowed h (h.closeWithCode j code reason).2 := by
  obtain ⟨payload, ok⟩ := serverReasons_ok _ known
  obtain ⟨-, -, same, -⟩ := closePayload_ok ok
  have sent : Grows i allowed h (h.sendCloseFrame j .server code (ascii reason)).2 := by
    refine sendCloseFrame_grows j ok fun tooBig => permitted ?_
    simp only [Event.isTooBig, Bool.and_eq_true, decide_eq_true_eq] at tooBig
    exact same.symm.trans tooBig.2
  simp only [closeWithCode]
  split
  · exact sent.trans (Grows.still rfl rfl)
  · exact sent.trans (Grows.still rfl rfl)

theorem perform_grows (c : ApiCall) : Grows i allowed h (h.perform c).2 := by
  cases c with
  | isOpen j =>
      simp only [perform]
      split <;> exact Grows.refl h
  | stop => exact Grows.still rfl rfl
  | send j payload type =>
      simp only [perform]
      split
      · exact Grows.refl h
      · rcases connectionSend_cases h j payload type with same | ⟨opcode, -, -, sent⟩
        · rw [same]
          exact Grows.refl h
        · rw [sent]
          have submitted : Grows i allowed h (h.emit (.submit j opcode payload)) :=
            Grows.emit (by simp [Event.isTooBig])
          exact submitted.trans (sendFrame_grows j (by simp [Event.isTooBig]))
  | close j arguments =>
      simp only [perform]
      split
      · exact Grows.refl h
      · rcases connectionClose_cases h j arguments with same | same | same | ⟨code, reason, payload, ok, same⟩
        · rw [same]
          exact Grows.refl h
        · rw [same]
          exact Grows.still rfl rfl
        · rw [same]
          exact Grows.still rfl rfl
        · rw [same]
          have sent : Grows i allowed h (h.sendCloseFrame j .close code reason).2 :=
            sendCloseFrame_grows j ok (by simp [Event.isTooBig])
          exact sent.trans (Grows.still rfl rfl)

theorem runScript_grows (script : Script) : Grows i allowed h (runScript script h).2 := by
  induction script generalizing h with
  | finish result => exact Grows.refl h
  | call c next ih => exact (perform_grows c).trans (ih _)

theorem callMessageHandler_grows (server : Server) (j : ConnId) (payload : Bytes) (opcode : UInt8) :
    Grows i allowed h (h.callMessageHandler server j payload opcode).2 := by
  unfold callMessageHandler
  cases (server.handlers h.trace).onMessage with
  | none => exact Grows.refl h
  | some onMessage =>
      cases MessageType.fromOpcode opcode with
      | none => exact Grows.refl h
      | some type =>
          have told : Grows i allowed h (h.emit (.message j type payload (h.conn j))) :=
            Grows.emit (by simp [Event.isTooBig])
          apply told.trans
          have ran : Grows i allowed (h.emit (.message j type payload (h.conn j)))
              (runScript (onMessage j payload type) (h.emit (.message j type payload (h.conn j)))).2 :=
            runScript_grows _
          simp only [callUser]
          cases (runScript (onMessage j payload type)
            (h.emit (.message j type payload (h.conn j)))).1 with
          | returned value => exact ran
          | threw e => exact ran.trans (Grows.still rfl rfl)
          | uncallable => exact ran.trans (Grows.still rfl rfl)

theorem refuseFrames_grows (j : ConnId) {code : Int} {reason : String}
    (known : (code, reason) ∈ serverReasons) (permitted : code = closeMessageTooBig → allowed) :
    Grows i allowed h (h.refuseFrames j code reason).2 := by
  have cleared : Grows i allowed h (h.clearFragment j) := Grows.still rfl rfl
  exact cleared.trans (closeWithCode_grows j known permitted)

/-- A data frame is refused for its size only behind a fragment that is too long. -/
theorem handleDataFrame_grows (server : Server) (j : ConnId) (frame : ServerFrame)
    (permitted : Handled.Overlong server.options.maxMessageSize ⟨h.conn j, h.env, frame⟩ → allowed) :
    Grows i allowed h (h.handleDataFrame server j frame).2 := by
  simp only [handleDataFrame]
  split
  · rename_i continuation
    split
    · exact closeWithCode_grows j (by decide) fun same => absurd same (by decide)
    · cases appended : (h.conn j).appendFragment frame.payload server.options.maxMessageSize with
      | none =>
          refine refuseFrames_grows j (by decide) fun _ => permitted ⟨continuation, ?_⟩
          simp only [Connection.appendFragment] at appended
          split at appended
          · rename_i long
            simp only [Bool.or_eq_true, decide_eq_true_eq] at long
            dsimp only
            omega
          · split at appended <;> cases appended
      | some grown =>
          have kept : Grows i allowed h (h.setConn j grown) := Grows.still rfl rfl
          dsimp only
          split
          · exact kept
          · split
            · exact kept.trans (refuseFrames_grows j (by decide) fun same => absurd same (by decide))
            · exact (kept.trans (callMessageHandler_grows server j _ _)).trans (Grows.still rfl rfl)
  · split
    · exact refuseFrames_grows j (by decide) fun same => absurd same (by decide)
    · split
      · split
        · exact closeWithCode_grows j (by decide) fun same => absurd same (by decide)
        · exact callMessageHandler_grows server j _ _
      · exact Grows.still rfl rfl

theorem handleCloseFrame_grows (j : ConnId) (payload : Bytes) :
    Grows i allowed h (h.handleCloseFrame j payload).2 := by
  simp only [handleCloseFrame]
  split
  · have echoed : Grows i allowed h (h.sendFrame j .echo payload opcodeClose).2 :=
      sendFrame_grows j (by simp [Event.isTooBig])
    split <;> exact echoed.trans (Grows.still rfl rfl)
  · exact Grows.still rfl rfl

theorem dispatchFrame_grows (server : Server) (j : ConnId) (frame : ServerFrame)
    (permitted : Handled.Overlong server.options.maxMessageSize ⟨h.conn j, h.env, frame⟩ → allowed) :
    Grows i allowed h (h.dispatchFrame server j frame).2 := by
  unfold dispatchFrame
  split
  · exact handleDataFrame_grows server j frame permitted
  · split
    · exact sendFrame_grows j (by simp [Event.isTooBig])
    · split
      · exact Grows.still rfl rfl
      · split
        · exact handleCloseFrame_grows j _
        · exact closeWithCode_grows j (by decide) fun same => absurd same (by decide)

end Hub

/-! ## The loop over buffered frames -/

/-- The frames that were handled account for every close with 1009. -/
def Warranted (maxMessageSize : Nat) (i : ConnId) (h h' : Hub) : Prop :=
  ∃ more seen, h'.trace = h.trace ++ more ∧ h'.handled = h.handled ++ seen ∧
    ((∃ e ∈ more, e.isTooBig i = true) → ∃ x ∈ seen, x.Overlong maxMessageSize)

namespace Warranted

variable {maxMessageSize : Nat} {i : ConnId} {h h' h'' : Hub}

theorem of_grows (grows : Grows i False h h') : Warranted maxMessageSize i h h' := by
  obtain ⟨more, trace, handled, only⟩ := grows
  exact ⟨more, [], trace, by rw [handled, List.append_nil], fun tooBig => (only tooBig).elim⟩

theorem refl (h : Hub) : Warranted maxMessageSize i h h := of_grows (Grows.refl h)

theorem trans (first : Warranted maxMessageSize i h h') (next : Warranted maxMessageSize i h' h'') :
    Warranted maxMessageSize i h h'' := by
  obtain ⟨more, seen, trace, handled, only⟩ := first
  obtain ⟨later, after, trace', handled', only'⟩ := next
  refine ⟨more ++ later, seen ++ after, by rw [trace', trace, List.append_assoc],
    by rw [handled', handled, List.append_assoc], ?_⟩
  rintro ⟨e, mem, tooBig⟩
  rcases List.mem_append.mp mem with old | new
  · obtain ⟨x, mem, overlong⟩ := only ⟨e, old, tooBig⟩
    exact ⟨x, List.mem_append_left _ mem, overlong⟩
  · obtain ⟨x, mem, overlong⟩ := only' ⟨e, new, tooBig⟩
    exact ⟨x, List.mem_append_right _ mem, overlong⟩

end Warranted

theorem Hub.handleFrame_warranted (server : Server) (i j : ConnId) (h : Hub) (frame : ServerFrame) :
    Warranted server.options.maxMessageSize i h (h.handleFrame server j frame).2 := by
  obtain ⟨more, trace, handled, only⟩ := dispatchFrame_grows (i := i)
    (h := { h with handled := h.handled ++ [⟨h.conn j, h.env, frame⟩] }) server j frame id
  exact ⟨more, [⟨h.conn j, h.env, frame⟩], trace, handled, fun tooBig =>
    ⟨_, List.mem_singleton_self _, only tooBig⟩⟩

/-- Whatever of a stream of accepted frames is in the buffer, the loop closes with 1009
    only behind a fragment that is too long. -/
theorem World.framesLoop_warranted {server : Server} {i : ConnId} {items : List Bytes} {w : World}
    {c : Bytes} (frames : ∀ item ∈ items, ∃ accepted : AcceptedFrame server.options.maxMessageSize,
      accepted.octets = item) (fuel : Nat) (stream : w.buffer i ++ c = items.flatten) :
    Warranted server.options.maxMessageSize i w.toHub (w.framesLoop server i fuel).2.toHub := by
  induction fuel generalizing w items with
  | zero => exact Warranted.refl _
  | succ fuel ih =>
      simp only [framesLoop]
      split
      · exact Warranted.refl _
      · rename_i goes
        cases items with
        | nil =>
            have empty := (List.append_eq_nil_iff.mp stream).1
            simp [empty] at goes
        | cons item rest =>
            obtain ⟨accepted, rfl⟩ := frames item (List.mem_cons_self ..)
            rw [List.flatten_cons] at stream
            by_cases short : (w.buffer i).length < accepted.octets.length
            · obtain ⟨d, inside⟩ := List.prefix_of_prefix_length_le (List.prefix_append _ c)
                (stream ▸ List.prefix_append accepted.octets _) (Nat.le_of_lt short)
              have missing : d ≠ [] := by
                rintro rfl
                rw [← inside, List.append_nil] at short
                exact Nat.lt_irrefl _ short
              rw [accepted.incomplete inside missing]
              exact Warranted.refl _
            · obtain ⟨b, inside⟩ := List.prefix_of_prefix_length_le
                (stream ▸ List.prefix_append accepted.octets _) (List.prefix_append _ c)
                (Nat.le_of_not_lt short)
              have left : (w.discard i accepted.frame.bytesConsumed).buffer i = b := by
                rw [discard_eq, buffer_setBuffer, ← inside, accepted.whole, List.drop_left]
              rw [← inside, List.append_assoc, List.append_cancel_left_eq] at stream
              rw [← inside, accepted.parsed_append]
              dsimp only
              have handled := Hub.handleFrame_warranted server i i w.toHub accepted.frame
              split
              · refine handled.trans (ih (fun x mem => frames x (List.mem_cons_of_mem _ mem)) ?_)
                exact (congrArg (· ++ c) left).trans stream
              · exact handled

end PhpWebSocket
