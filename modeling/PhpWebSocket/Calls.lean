import PhpWebSocket.Moves

/-! # User code

What a script can do, whatever it is: its calls are acts, it leaves the table and
every connection that is not upgraded alone, and it can reach none that has not been
accepted. How it ends is up to the caller.
-/

namespace PhpWebSocket

open Lib

namespace Hub

variable {server : Server} {h : Hub} {i : ConnId}

theorem born_of_upgraded (ground : Grounded h) (used : (h.conn i).upgraded = true) :
    i < h.nextConnectionId := by
  by_contra beyond
  have unused : h.conn i = {} := congrArg Life.conn (ground.unborn i (Nat.le_of_not_lt beyond))
  rw [unused] at used
  cases used

/-! ## Close frames -/

theorem sendCloseFrame_eq (h : Hub) (i : ConnId) (source : FrameSource) {code : Int}
    {reason : Bytes} {payload : Bytes} (ok : closePayload code reason = .ok payload) :
    h.sendCloseFrame i source code reason =
      if !(h.conn i).isOpen || !(h.conn i).upgraded || (h.conn i).fd.isNone then (false, h)
      else h.sendFrame i source payload opcodeClose := by
  have onLink : (h.link i).sendCloseFrame code reason =
      if !(h.conn i).isOpen || !(h.conn i).upgraded || (h.conn i).fd.isNone then
        (false, h.link i)
      else (h.link i).sendFrame payload opcodeClose := by
    rw [Link.sendCloseFrame, ok]
    rfl
  rw [sendCloseFrame, onLink, ok]
  by_cases refused : (!(h.conn i).isOpen || !(h.conn i).upgraded || (h.conn i).fd.isNone) = true
  · rw [if_pos refused, if_pos refused]
    simp [relink, link]
  · rw [if_neg refused, if_neg refused]
    rfl

/-- Every close of the server's own carries a valid code and a short reason. -/
def serverReasons : List (Int × String) :=
  [(closeProtocolError, "protocol error"), (closeMessageTooBig, "message too big"),
    (closeInvalidPayload, "invalid utf-8"), (closeNormal, "idle timeout"),
    (closeNormal, "pong timeout"), (closeNormal, "heartbeat failed")]

theorem serverReasons_ok : ∀ entry ∈ serverReasons,
    ∃ payload, closePayload entry.1 (ascii entry.2) = .ok payload := by
  intro entry mem
  have none : closeArgumentError entry.1 (ascii entry.2) = none := by
    revert entry
    decide +kernel
  exact ⟨_, by rw [closePayload, none]⟩

theorem sendCloseFrame_acts (server : Server) (born : i < h.nextConnectionId)
    (source : FrameSource) {code : Int} {reason payload : Bytes} (own : source ≠ .send)
    (ok : closePayload code reason = .ok payload) :
    if (h.sendCloseFrame i source code reason).1 then
      Acts server h ((h.sendCloseFrame i source code reason).2.closeAfterWrite i)
    else Acts server h (h.sendCloseFrame i source code reason).2 := by
  obtain ⟨valid, short, -, -⟩ := closePayload_ok ok
  rw [sendCloseFrame_eq h i source ok]
  split
  · exact Acts.refl h
  · exact bye_acts server born source own valid short

theorem closeWithCode_acts (born : i < h.nextConnectionId) {code : Int} {reason : String}
    (known : (code, reason) ∈ serverReasons) : Acts server h (h.closeWithCode i code reason).2 := by
  obtain ⟨payload, ok⟩ := serverReasons_ok _ known
  have bye := sendCloseFrame_acts server born .server (by decide) ok
  simp only [closeWithCode]
  split at bye
  · rename_i sent
    rw [if_pos sent]
    exact bye
  · rename_i refused
    rw [if_neg refused]
    exact bye.trans (closeSocket_acts (Nat.lt_of_lt_of_le born bye.next_le))

/-! ## The methods of a connection -/

/-- `Connection::send` throws, or it hands the frame it was asked for to `send_frame`. -/
theorem connectionSend_cases (h : Hub) (i : ConnId) (payload : Bytes) (type : Option MessageType) :
    (h.connectionSend i payload type).2 = h ∨
      ∃ opcode, (h.conn i).Reading ∧ Submission opcode payload ∧
        (h.connectionSend i payload type).2 =
          ((h.emit (.submit i opcode payload)).sendFrame i .send payload opcode).2 := by
  simp only [connectionSend]
  generalize atOpcode : (type.map MessageType.opcode).getD opcodeText = opcode
  have known : opcode = opcodeContinuation ∨ opcode = opcodeText ∨ opcode = opcodeBinary ∨
      opcode = opcodeClose ∨ opcode = opcodePing ∨ opcode = opcodePong := by
    rw [← atOpcode]
    cases type with
    | none => decide
    | some type => cases type <;> decide
  split
  · exact Or.inl rfl
  · rename_i isOpen
    split
    · exact Or.inl rfl
    · rename_i upgraded
      split
      · exact Or.inl rfl
      · rename_i notContinuation
        split
        · exact Or.inl rfl
        · rename_i short
          split
          · exact Or.inl rfl
          · rename_i utf8
            refine Or.inr ⟨opcode, ?_, ⟨known.resolve_left notContinuation, ?_, ?_⟩, rfl⟩
            · simp only [Bool.or_eq_true, Bool.not_eq_true', not_or, Bool.not_eq_false,
                Bool.not_eq_true] at isOpen upgraded
              exact ⟨isOpen.1, isOpen.2, upgraded⟩
            · intro control
              simp only [control, Bool.true_and, decide_eq_true_eq] at short
              omega
            · intro text
              simpa [text] using utf8

/-- `Connection::close` throws, only marks the connection while its open callback runs,
    or closes it behind a Close frame, if it can still send one. -/
theorem connectionClose_cases (h : Hub) (i : ConnId) (arguments : Option (Int × Bytes)) :
    (h.connectionClose i arguments).2 = h ∨ (h.connectionClose i arguments).2 = h.shut i ∨
      (h.connectionClose i arguments).2 = h.closeAfterWrite i ∨
      ∃ code reason payload, closePayload code reason = .ok payload ∧
        (h.connectionClose i arguments).2 =
          (h.sendCloseFrame i .close code reason).2.closeAfterWrite i := by
  simp only [connectionClose]
  generalize arguments.getD (closeNormal, []) = given
  obtain ⟨code, reason⟩ := given
  cases refused : closeArgumentError code reason with
  | some e => exact Or.inl rfl
  | none =>
      dsimp only
      split
      · exact Or.inr (Or.inl rfl)
      · split
        · exact Or.inr (Or.inr (Or.inr ⟨code, reason, _, by rw [closePayload, refused], rfl⟩))
        · exact Or.inr (Or.inr (Or.inl rfl))

theorem connectionSend_acts (born : i < h.nextConnectionId) (payload : Bytes)
    (type : Option MessageType) : Acts server h (h.connectionSend i payload type).2 := by
  rcases connectionSend_cases h i payload type with same | ⟨opcode, reading, checked, sent⟩
  · rw [same]
    exact Acts.refl h
  · rw [sent]
    have submitted : Acts server h (h.emit (.submit i opcode payload)) := by
      rw [emit_eq h i]
      exact Acts.single (Act.evolve born rfl (by simp [Event.about]) (by simp)
        (Life.Step.submit reading checked))
    have offered : Offered i ((h.emit (.submit i opcode payload)).trace.of i) opcode payload .send :=
      ⟨checked, by simp [Trace.of, emit, Event.about]⟩
    exact submitted.trans (sendFrame_acts server (h := h.emit (.submit i opcode payload)) born offered)

theorem connectionClose_acts (born : i < h.nextConnectionId) (arguments : Option (Int × Bytes)) :
    Acts server h (h.connectionClose i arguments).2 := by
  rcases connectionClose_cases h i arguments with
    same | shut | closing | ⟨code, reason, payload, ok, closed⟩
  · rw [same]
    exact Acts.refl h
  · rw [shut]
    exact shut_acts born
  · rw [closing]
    exact closeAfterWrite_acts born
  · have bye := sendCloseFrame_acts server born .close (by decide) ok
    rw [closed]
    split at bye
    · exact bye
    · exact bye.trans (closeAfterWrite_acts (Nat.lt_of_lt_of_le born bye.next_le))

/-! ## Scripts -/

theorem perform_acts (server : Server) (ground : Grounded h) (c : ApiCall) :
    Acts server h (h.perform c).2 := by
  cases c with
  | send i payload type =>
      simp only [perform]
      split
      · exact Acts.refl h
      · rename_i used
        exact connectionSend_acts (born_of_upgraded ground (by simpa using used)) payload type
  | close i arguments =>
      simp only [perform]
      split
      · exact Acts.refl h
      · rename_i used
        exact connectionClose_acts (born_of_upgraded ground (by simpa using used)) arguments
  | isOpen i =>
      simp only [perform]
      split <;> exact Acts.refl h
  | stop => exact Acts.single (Act.world (fun _ => rfl) rfl rfl rfl (Nat.le_refl _))

theorem runScript_acts (server : Server) (ground : Grounded h) (script : Script) :
    Acts server h (runScript script h).2 := by
  induction script generalizing h with
  | finish result => exact Acts.refl h
  | call c next ih =>
      have first := perform_acts server ground c
      exact first.trans (ih _ (first.grounded ground))

/-- What user code leaves alone: the table, and every connection that is not upgraded. -/
structure Spares (h h' : Hub) : Prop where
  connections : h'.connections = h.connections
  waiting : ∀ i, (h.conn i).upgraded = false → h'.life i = h.life i

theorem Spares.refl (h : Hub) : Spares h h := ⟨rfl, fun _ _ => rfl⟩

theorem Spares.trans {h h' h'' : Hub} (first : Spares h h') (next : Spares h' h'') :
    Spares h h'' := by
  refine ⟨next.connections.trans first.connections, ?_⟩
  intro i fresh
  have same := first.waiting i fresh
  have conn : h'.conn i = h.conn i := congrArg Life.conn same
  rw [next.waiting i (by rw [conn]; exact fresh), same]

theorem relink_spares (used : (h.conn i).upgraded = true) (link : Link) :
    Spares h (h.relink i link) := by
  refine ⟨rfl, ?_⟩
  intro j fresh
  have other : j ≠ i := by
    rintro rfl
    rw [used] at fresh
    cases fresh
  rw [relink_eq, life_evolve_of_ne h other _ _ (by simp)]

theorem emit_spares (used : (h.conn i).upgraded = true) {e : Event} (about : e.about = some i) :
    Spares h (h.emit e) := by
  refine ⟨rfl, ?_⟩
  intro j fresh
  have other : j ≠ i := by
    rintro rfl
    rw [used] at fresh
    cases fresh
  rw [emit_eq h i, life_evolve_of_ne h other _ _ (by simpa using about)]

theorem sendFrame_spares (used : (h.conn i).upgraded = true) (source : FrameSource)
    (payload : Bytes) (opcode : UInt8) : Spares h (h.sendFrame i source payload opcode).2 ∧
      ((h.sendFrame i source payload opcode).2.conn i).upgraded = true := by
  have spares := relink_spares used ((h.link i).sendFrame payload opcode).2
  have still : ((h.relink i ((h.link i).sendFrame payload opcode).2).conn i).upgraded = true := by
    rw [conn_relink, (Link.sendFrame_yields 0 (h.link i) payload opcode).upgraded]
    exact used
  simp only [sendFrame]
  split
  · exact ⟨spares.trans (emit_spares still rfl), still⟩
  · exact ⟨spares, still⟩

theorem connectionSend_spares (used : (h.conn i).upgraded = true) (payload : Bytes)
    (type : Option MessageType) : Spares h (h.connectionSend i payload type).2 := by
  rcases connectionSend_cases h i payload type with same | ⟨opcode, -, -, sent⟩
  · rw [same]
    exact Spares.refl h
  · rw [sent]
    have spares := (sendFrame_spares (h := h.emit (.submit i opcode payload)) used .send payload
      opcode).1
    exact (emit_spares used rfl).trans spares

theorem connectionClose_spares (used : (h.conn i).upgraded = true)
    (arguments : Option (Int × Bytes)) : Spares h (h.connectionClose i arguments).2 := by
  rcases connectionClose_cases h i arguments with
    same | shut | closing | ⟨code, reason, payload, ok, closed⟩
  · rw [same]
    exact Spares.refl h
  · rw [shut]
    exact relink_spares used ⟨_, h.env⟩
  · rw [closing]
    exact relink_spares used _
  · rw [closed, sendCloseFrame_eq h i .close ok]
    split
    · exact relink_spares used _
    · obtain ⟨spares, still⟩ := sendFrame_spares used .close payload opcodeClose
      exact spares.trans (relink_spares still _)

theorem perform_spares (h : Hub) (c : ApiCall) : Spares h (h.perform c).2 := by
  cases c with
  | send i payload type =>
      simp only [perform]
      split
      · exact Spares.refl h
      · rename_i used
        exact connectionSend_spares (by simpa using used) payload type
  | close i arguments =>
      simp only [perform]
      split
      · exact Spares.refl h
      · rename_i used
        exact connectionClose_spares (by simpa using used) arguments
  | isOpen i =>
      simp only [perform]
      split <;> exact Spares.refl h
  | stop => exact ⟨rfl, fun _ _ => rfl⟩

theorem runScript_spares (script : Script) (h : Hub) : Spares h (runScript script h).2 := by
  induction script generalizing h with
  | finish result => exact Spares.refl h
  | call c next ih => exact (perform_spares h c).trans (ih _ _)

end Hub

end PhpWebSocket
