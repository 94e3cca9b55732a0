import PhpWebSocket.Lib.Log
import PhpWebSocket.Reached

/-! # After a Close frame

Five of the six ways to send a Close frame close the connection behind it or let it
drain: nothing can follow. `Connection::send` with `MessageType::Close` is the sixth; it
leaves the connection as it was. Connections on which it is not used, or only for frames
that the write queue has no room for, are `Closing` properly, whatever else happens to them.
-/

namespace PhpWebSocket

open Lib

namespace Event

/-- A Close frame that `send_frame` has accepted. -/
def isCloseFrame : Event → Bool
  | .frame _ _ opcode _ => opcode = opcodeClose
  | _ => false

/-- A frame on the outgoing stream, or a message delivered to the user. -/
def isTraffic : Event → Bool
  | .frame _ _ _ _ => true
  | .message _ _ _ _ => true
  | _ => false

/-- A call of `Connection::send` for a Close frame of at most `limit` octets. -/
def isCloseSubmit (limit : Nat) : Event → Bool
  | .submit _ opcode payload => opcode = opcodeClose && (serverFrame payload opcode).length ≤ limit
  | _ => false

end Event

/-- An event that no traffic may follow. -/
def Final (e later : Event) : Prop := e.isCloseFrame = true → later.isTraffic = false

instance (e later : Event) : Decidable (Final e later) := inferInstanceAs (Decidable (_ → _))

/-- No traffic has followed a Close frame, and none can. -/
structure Closing (life : Life) : Prop where
  final : Guarded (fun past e => ∀ e' ∈ past, Final e' e) life.log
  latched : life.log.any Event.isCloseFrame = true → ¬ life.conn.Reading
  fresh : life.conn.upgraded = false → life.log.any Event.isCloseFrame = false

/-- A connection that is closing properly, as long as `Connection::send` has not been
    asked for a Close frame that fits the write queue. -/
structure Latched (server : Server) (life : Life) : Prop where
  limit : life.conn.isOpen = true → life.conn.maxQueuedBytes = server.options.maxQueuedBytes
  closing : life.log.any (Event.isCloseSubmit server.options.maxQueuedBytes) = false → Closing life

namespace Closing

variable {c c' : Connection} {log : Trace} {e : Event}

theorem silent (closing : Closing ⟨c, log⟩) (reading : c.Reading) :
    log.any Event.isCloseFrame = false := by
  by_contra sent
  exact closing.latched (by simpa using sent) reading

theorem snoc (closing : Closing ⟨c, log⟩) (order : e.isTraffic = true → c.Reading)
    (latched : c'.Reading → c.Reading ∧ e.isCloseFrame = false)
    (fresh : c'.upgraded = false → c.upgraded = false) : Closing ⟨c', log ++ [e]⟩ := by
  have traffic : e.isCloseFrame = true → e.isTraffic = true := by
    cases e <;> first | exact fun _ => rfl | exact fun h => h
  refine ⟨closing.final.snoc ?_, ?_, ?_⟩
  · intro e' mem sent
    by_contra passes
    have silent := closing.silent (order (by simpa using passes))
    exact List.any_eq_false.mp silent e' mem sent
  · intro sent reading
    obtain ⟨was, other⟩ := latched reading
    rw [List.any_append, closing.silent was] at sent
    simp [other] at sent
  · intro isFresh
    rw [List.any_append, closing.fresh (fresh isFresh), Bool.false_or]
    by_contra sent
    have used := (order (traffic (by simpa using sent))).2.2
    rw [fresh isFresh] at used
    cases used

theorem start : Closing ⟨{}, []⟩ :=
  ⟨Guarded.nil, fun sent => absurd sent Bool.false_ne_true, fun _ => rfl⟩

theorem of_reading (closing : Closing ⟨c, log⟩) (reads : c'.Reading → c.Reading)
    (fresh : c'.upgraded = false → c.upgraded = false) : Closing ⟨c', log⟩ :=
  ⟨closing.final, fun sent reading => closing.latched sent (reads reading),
    fun isFresh => closing.fresh (fresh isFresh)⟩

end Closing

theorem Yields.reading {maxMessageSize : Nat} {c c' : Connection} (yields : Yields maxMessageSize c c')
    (reading : c'.Reading) : c.Reading := by
  refine ⟨yields.isOpen reading.1, ?_, yields.upgraded ▸ reading.2.2⟩
  by_contra closing
  have still := yields.closing reading.1 (by simpa using closing)
  rw [reading.2.1] at still
  cases still

theorem Hub.sendFrame_refused {h : Hub} {i : ConnId} (closed : ¬ (h.conn i).Reading)
    (source : FrameSource) (payload : Bytes) (opcode : UInt8) :
    h.sendFrame i source payload opcode = (false, h) := by
  have refused : (h.link i).sendFrame payload opcode = (false, h.link i) :=
    Link.sendFrame_refused closed payload opcode
  rw [sendFrame, refused]
  simp [relink, link]

/-- A step keeps the order of the Close frame. -/
theorem Life.Step.closing {server : Server} {i : ConnId} {quiet listed : Prop} {a b : Life}
    (step : Life.Step server i quiet listed a b)
    (limit : a.conn.isOpen = true → a.conn.maxQueuedBytes = server.options.maxQueuedBytes)
    (unasked : a.log.any (Event.isCloseSubmit server.options.maxQueuedBytes) = false)
    (closing : Closing a) : Closing b := by
  cases step with
  | create => exact ⟨Guarded.nil, fun sent => absurd sent Bool.false_ne_true, fun _ => rfl⟩
  | yield yields => exact closing.of_reading yields.reading fun fresh => yields.upgraded ▸ fresh
  | accepted | submit | parsed | ask | approve =>
      exact closing.snoc (fun h => absurd h Bool.false_ne_true) (fun reading => ⟨reading, rfl⟩) id
  | notify =>
      exact closing.snoc (fun h => absurd h Bool.false_ne_true) (fun reading => ⟨reading, rfl⟩) id
  | reject =>
      exact closing.snoc (fun h => absurd h Bool.false_ne_true)
        (fun reading => absurd reading.1 Bool.false_ne_true) id
  | @send c c' log source payload opcode offered reading fits yields =>
      have other : opcode ≠ opcodeClose := by
        rintro rfl
        cases source with
        | send =>
            have short := limit reading.1 ▸ fits
            exact List.any_eq_false.mp unasked _ offered.2 (by simp [Event.isCloseSubmit, short])
        | pong => exact absurd offered.1 (by decide)
        | heartbeat => exact absurd offered.1 (by decide)
        | close | echo | server => exact offered
      exact closing.snoc (fun _ => reading)
        (fun after => ⟨yields.reading after, by simp [Event.isCloseFrame, other]⟩)
        fun fresh => yields.upgraded ▸ fresh
  | bye own valid short reading fits yields latched =>
      exact closing.snoc (fun _ => reading) (fun after => absurd after latched)
        fun fresh => yields.upgraded ▸ fresh
  | deliver noException reading =>
      exact closing.snoc (fun _ => reading) (fun after => ⟨after, rfl⟩) id
  | @upgrade c log subprotocol left isOpen fresh parsed approved defer opened called =>
      have silent := closing.fresh fresh
      have silentAfter : (log ++ [Event.response i 101 true, .upgraded i left] ++
          if opened then [Event.opened i] else []).any Event.isCloseFrame = false := by
        rw [List.any_append, List.any_append, silent]
        cases opened <;> rfl
      refine ⟨?_, ?_, fun _ => silentAfter⟩
      · have switched : Guarded (fun past e => ∀ e' ∈ past, Final e' e)
            (log ++ [.response i 101 true, .upgraded i left]) := by
          have responded : Guarded (fun past e => ∀ e' ∈ past, Final e' e)
              (log ++ [.response i 101 true]) := closing.final.snoc fun _ _ _ => rfl
          have upgraded : Guarded (fun past e => ∀ e' ∈ past, Final e' e)
              (log ++ [.response i 101 true] ++ [.upgraded i left]) := responded.snoc fun _ _ _ => rfl
          rwa [List.append_assoc] at upgraded
        cases opened with
        | false => simpa using switched
        | true => exact switched.snoc fun _ _ _ => rfl
      · intro sent
        rw [silentAfter] at sent
        cases sent

theorem Life.Step.limit {server : Server} {i : ConnId} {quiet listed : Prop} {a b : Life}
    (step : Life.Step server i quiet listed a b)
    (limit : a.conn.isOpen = true → a.conn.maxQueuedBytes = server.options.maxQueuedBytes)
    (isOpen : b.conn.isOpen = true) : b.conn.maxQueuedBytes = server.options.maxQueuedBytes := by
  cases step with
  | create => rfl
  | accepted | submit | parsed | ask | approve | deliver | notify | upgrade => exact limit isOpen
  | yield yields => exact yields.maxQueuedBytes.trans (limit (yields.isOpen isOpen))
  | send _ _ _ yields => exact yields.maxQueuedBytes.trans (limit (yields.isOpen isOpen))
  | bye _ _ _ _ _ yields => exact yields.maxQueuedBytes.trans (limit (yields.isOpen isOpen))
  | reject => cases isOpen

theorem Life.Step.latched {server : Server} {i : ConnId} {quiet listed : Prop} {a b : Life}
    (step : Life.Step server i quiet listed a b) (latched : Latched server a) : Latched server b := by
  refine ⟨step.limit latched.limit, fun unasked => ?_⟩
  obtain ⟨more, grown⟩ := step.prefix_of
  rw [← grown, List.any_append, Bool.or_eq_false_iff] at unasked
  exact step.closing latched.limit unasked.1 (latched.closing unasked.1)

/-- On a connection for which `Connection::send` was never asked to send a Close frame that
    fits the write queue, no frame and no message follows a Close frame, and after one
    `send_frame` refuses every frame and changes nothing. -/
theorem nothing_follows_close (server : Server) (env : Env) (waits : List WaitResult)
    (i : ConnId) :
    let w := ((World.start env).runtimeRun server waits).world
    (w.trace.of i).any (Event.isCloseSubmit server.options.maxQueuedBytes) = false →
      (w.trace.of i).Pairwise Final ∧
        ((w.trace.of i).any Event.isCloseFrame = true → ∀ source payload opcode,
          w.toHub.sendFrame i source payload opcode = (false, w.toHub)) := by
  intro w unasked
  have latched : Latched server (w.toHub.life i) :=
    run_invariant ⟨nofun, fun _ => Closing.start⟩
      (fun step latched => step.latched latched) env waits
  have closing := latched.closing unasked
  refine ⟨closing.final.pairwise, ?_⟩
  intro sent source payload opcode
  exact Hub.sendFrame_refused (closing.latched sent) source payload opcode

/-- A Close of the client and a Ping behind it, in one chunk. -/
theorem nothing_follows_close_echo :
    let server : Server := { options := .array fun _ => none, lib := sampleLib }
    let frames : Chunk :=
      ⟨[0x88, 0x80, 1, 2, 3, 4, 0x89, 0x80, 1, 2, 3, 4], by decide, by decide⟩
    let env : Env :=
      { accepts := [.client 5 none], recvs := [.data sampleRequestChunk, .data frames] }
    let run := (World.start env).runtimeRun server [.ready 3, .ready 5]
    (run.world.trace.of 0).any Event.isCloseFrame = true ∧ (run.world.trace.of 0).Pairwise Final ∧
      run.world.toHub.sendFrame 0 .send (ascii "late") opcodeText = (false, run.world.toHub) := by
  intro server frames env
  have closed := nothing_follows_close server env [.ready 3, .ready 5] 0 (by decide +kernel)
  exact ⟨by decide +kernel, closed.1, closed.2 (by decide +kernel) _ _ _⟩

/-- A Text frame follows the Close frame that `on_open` has sent with `Connection::send`. -/
theorem text_follows_submitted_close :
    let greet : ConnId → Script := fun i =>
      .call (.send i [] (some .close)) fun _ =>
        .call (.send i (ascii "late") none) fun _ => .finish (.returned .null)
    let server : Server :=
      { options := .array fun _ => none
        handlers := fun _ => { onOpen := some (.takesConnection greet) }
        lib := sampleLib }
    let env : Env := { accepts := [.client 5 none], recvs := [.data sampleRequestChunk] }
    let w := ((World.start env).runtimeRun server [.ready 3]).world
    (w.trace.of 0).filter Event.isTraffic =
        [.frame 0 .send opcodeClose [], .frame 0 .send opcodeText (ascii "late")] ∧
      ¬ (w.trace.of 0).Pairwise Final := by
  decide +kernel

end PhpWebSocket
