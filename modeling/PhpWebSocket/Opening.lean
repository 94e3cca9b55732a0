import PhpWebSocket.Endings

/-! # How a connection opens

From the answer of `accept` to the upgrade. A connection is put to the handshake
callback once, so the state in between is not settled: it is `Opening`, and it settles
again when the connection is upgraded or turned away.
-/

namespace PhpWebSocket

open Lib Relation

/-- Settled, but for a connection whose request has been parsed. -/
structure Opening (h : Hub) (i : ConnId) : Prop where
  quiet : h.Quiet
  unasked : ∀ j, j ≠ i → Unasked h j
  grounded : Grounded h
  isOpen : (h.conn i).isOpen = true
  fresh : (h.conn i).upgraded = false
  parsed : ∃ buffer upgrade, .parsed i buffer upgrade ∈ h.trace.of i

namespace Opening

variable {server : Server} {h h' : Hub} {i : ConnId}

theorem born (opening : Opening h i) : i < h.nextConnectionId :=
  Hub.born_of_open opening.grounded opening.isOpen

theorem settled (opening : Opening h i) (acts : Acts server h h')
    (ended : (h'.conn i).isOpen = true → (h'.conn i).upgraded = true) : Settled h' := by
  refine ⟨acts.exception.trans opening.quiet, ?_, acts.grounded opening.grounded⟩
  intro j
  by_cases same : j = i
  · subst same
    intro isOpen fresh
    rw [ended isOpen] at fresh
    cases fresh
  · exact acts.unasked (opening.unasked j same)

/-- Acts that leave the connection alone keep the state open. -/
theorem acts (opening : Opening h i) (acts : Acts server h h') (same : h'.conn i = h.conn i) :
    Opening h' i := by
  obtain ⟨buffer, upgrade, parsed⟩ := opening.parsed
  refine ⟨acts.exception.trans opening.quiet, fun j other => acts.unasked (opening.unasked j other),
    acts.grounded opening.grounded, ?_, ?_, buffer, upgrade,
    (acts.prefix_of i).subset parsed⟩
  · rw [same]
    exact opening.isOpen
  · rw [same]
    exact opening.fresh

end Opening

namespace Hub

variable {server : Server} {h : Hub} {i : ConnId}

/-! ## Responses -/

theorem sendBytes_exception (env : Env) (fd : Option Nat) (text : Bytes) :
    (env.sendBytes fd text).2.exception = env.exception := by
  unfold Env.sendBytes
  split
  · split <;> rfl
  · rfl

theorem respond_shut_acts (born : i < h.nextConnectionId) (isOpen : (h.conn i).isOpen = true)
    (fresh : (h.conn i).upgraded = false) (status : Int) (text : Bytes)
    (notUpgrade : status = 101 → (h.respond i status text).1 = false) :
    Acts server h ((h.respond i status text).2.shut i) := by
  have same : (h.respond i status text).2.shut i =
      h.evolve i { h.conn i with isOpen := false } (h.env.sendBytes (h.conn i).fd text).2
        [.response i status (h.respond i status text).1] := by
    simp [respond, shut, setConn, emit, evolve]
  rw [same]
  exact Acts.single (Act.evolve born (sendBytes_exception _ _ _) (by simp [Event.about]) (by simp)
    (Life.Step.reject isOpen fresh notUpgrade))

theorem reject_acts (born : i < h.nextConnectionId) (isOpen : (h.conn i).isOpen = true)
    (fresh : (h.conn i).upgraded = false) {status : Int} (text : Bytes) (other : status ≠ 101) :
    Acts server h (h.reject i status text) :=
  respond_shut_acts born isOpen fresh status text fun same => absurd same other

theorem reject_closed (h : Hub) (i : ConnId) (status : Int) (text : Bytes) :
    ((h.reject i status text).conn i).isOpen = false := by
  rw [reject, shut, conn_setConn]

/-! ## The handshake callback -/

/-- How the state is left by the handshake callback, by its verdict. -/
def AskedPost (h : Hub) (i : ConnId) (request : Request) : Asked → Prop
  | .accepted => Opening h i ∧ .handshake i request ∈ h.trace.of i
  | .rejected => Settled h
  | .failed => ¬ h.Quiet

theorem ask_opening (opening : Opening h i) (unasked : Unasked h i) (request : Request) :
    Move server h (h.emit (.handshake i request)) ∧ Opening (h.emit (.handshake i request)) i := by
  have ask : Move server h (h.emit (.handshake i request)) :=
    Move.ask i request opening.born (Life.Step.ask opening.quiet opening.isOpen opening.fresh
      opening.parsed fun r => unasked opening.isOpen opening.fresh r)
  refine ⟨ask, opening.quiet, ?_, ask.grounded opening.grounded, opening.isOpen, opening.fresh, ?_⟩
  · intro j other isOpen fresh r
    have same : (h.emit (.handshake i request)).trace.of j = h.trace.of j := by
      simp [emit, Trace.of, Event.about, Ne.symm other]
    rw [same]
    exact opening.unasked j other isOpen fresh r
  · obtain ⟨buffer, upgrade, parsed⟩ := opening.parsed
    refine ⟨buffer, upgrade, ?_⟩
    simp only [emit, Trace.of, List.filter_append]
    exact List.mem_append_left _ parsed

theorem callHandshakeHandler_spec (server : Server) (opening : Opening h i) (unasked : Unasked h i)
    (request : Request) (script : Script) :
    Moves server h (h.callHandshakeHandler i request script).2 ∧
      (h.callHandshakeHandler i request script).2.handled = h.handled ∧
      AskedPost (h.callHandshakeHandler i request script).2 i request
        (h.callHandshakeHandler i request script).1 := by
  obtain ⟨ask, askedOpening⟩ := @ask_opening server h i opening unasked request
  have log : .handshake i request ∈ (h.emit (.handshake i request)).trace.of i := by
    simp [emit, Trace.of, Event.about]
  have told : (h.emit (.handshake i request)).handled = h.handled := rfl
  generalize atAsked : h.emit (.handshake i request) = asked at ask askedOpening log told
  have ran : Acts server asked (runScript script asked).2 :=
    runScript_acts server askedOpening.grounded script
  have same : (runScript script asked).2.conn i = asked.conn i :=
    congrArg Life.conn ((runScript_spares script asked).waiting i askedOpening.fresh)
  have after := askedOpening.acts ran same
  have moves : Moves server h (runScript script asked).2 := (ReflTransGen.single ask).trans ran.moves
  have handled : (runScript script asked).2.handled = h.handled := by
    rw [ran.handled, told]
  have rejected : ∀ {status : Int} (text : Bytes), status ≠ 101 →
      Moves server h ((runScript script asked).2.reject i status text) ∧
        ((runScript script asked).2.reject i status text).handled = h.handled ∧
        Settled ((runScript script asked).2.reject i status text) := by
    intro status text other
    have acts : Acts server _ ((runScript script asked).2.reject i status text) :=
      reject_acts after.born after.isOpen after.fresh text other
    refine ⟨moves.trans acts.moves, by rw [acts.handled, handled], after.settled acts ?_⟩
    intro isOpen
    rw [reject_closed] at isOpen
    cases isOpen
  have failed : ∀ e, Moves server h ((runScript script asked).2.raise e) ∧
      ((runScript script asked).2.raise e).handled = h.handled ∧
      ¬ ((runScript script asked).2.raise e).Quiet := by
    intro e
    exact ⟨moves.tail (Move.raise e), handled, by simp [Quiet, raise, Env.raise]⟩
  simp only [callHandshakeHandler, atAsked]
  cases (runScript script asked).1 with
  | uncallable => exact failed _
  | threw e =>
      cases e with
      | handshakeException response =>
          cases response with
          | none => exact rejected _ (by decide)
          | some response => exact rejected _ response.status_valid.2.2
      | error | typeError | argumentValueError | other => exact failed _
  | returned value =>
      cases value with
      | null =>
          refine ⟨moves, handled, after, ?_⟩
          exact (ran.prefix_of i).subset log
      | bool | other => exact failed _

/-! ## The upgrade -/

/-- The hub behind the 101, and behind the call of `on_open` if there is one. -/
def upgradedHub (h : Hub) (i : ConnId) (text : Bytes) (subprotocol : Option Bytes) (left : Bytes)
    (defer opened : Bool) : Hub :=
  h.evolve i
    { h.conn i with selectedSubprotocol := subprotocol, upgraded := true, deferClose := defer }
    (h.env.sendBytes (h.conn i).fd text).2
    ([.response i 101 true, .upgraded i left] ++ if opened then [.opened i] else [])

theorem upgradedHub_acts (opening : Opening h i) (approved : .approved i ∈ h.trace.of i)
    (text : Bytes) (subprotocol : Option Bytes) (left : Bytes) (defer opened : Bool)
    (called : (∀ t, (server.handlers t).onOpen.isSome) → opened = true) :
    Acts server h (h.upgradedHub i text subprotocol left defer opened) := by
  refine Acts.single (Act.evolve opening.born (sendBytes_exception _ _ _) ?_ ?_ ?_)
  · cases opened <;> simp [Event.about]
  · cases opened <;> simp
  · rw [← List.append_assoc]
    exact Life.Step.upgrade opening.isOpen opening.fresh opening.parsed approved defer opened called

theorem upgradedHub_upgraded (h : Hub) (i : ConnId) (text : Bytes) (subprotocol : Option Bytes)
    (left : Bytes) (defer opened : Bool) :
    ((h.upgradedHub i text subprotocol left defer opened).conn i).upgraded = true := by
  simp [upgradedHub, evolve]

theorem upgradedHub_log (h : Hub) (i : ConnId) (text : Bytes) (subprotocol : Option Bytes)
    (left : Bytes) (defer opened : Bool) :
    (h.upgradedHub i text subprotocol left defer opened).trace.of i =
      h.trace.of i ++ ([.response i 101 true, .upgraded i left] ++
        if opened then [.opened i] else []) := by
  refine congrArg Life.log (h.life_evolve_self _ _ ?_)
  cases opened <;> simp [Event.about]

theorem upgradedHub_settled (server : Server) (opening : Opening h i) (approved : .approved i ∈ h.trace.of i)
    (text : Bytes) (subprotocol : Option Bytes) (left : Bytes) (defer opened : Bool)
    (called : (∀ t, (server.handlers t).onOpen.isSome) → opened = true) :
    Handles server h [] (true, h.upgradedHub i text subprotocol left defer opened) ∧
      Settled (h.upgradedHub i text subprotocol left defer opened) := by
  have acts := upgradedHub_acts opening approved text subprotocol left defer opened called
  have settled := opening.settled acts fun _ => upgradedHub_upgraded ..
  exact ⟨Handles.arrive acts.moves acts.handled settled, settled⟩

/-- A state behind the 101, as far as the call of `on_open`, from which a call goes on. -/
def UpgradedThen (server : Server) (h : Hub) (i : ConnId) (text : Bytes) (subprotocol : Option Bytes)
    (left : Bytes) (r : Bool × Hub) : Prop :=
  ∃ defer opened, Settled (h.upgradedHub i text subprotocol left defer opened) ∧
    Handles server h [] (true, h.upgradedHub i text subprotocol left defer opened) ∧
    ∃ seen, Handles server (h.upgradedHub i text subprotocol left defer opened) seen r

/-- `on_open` is called on the upgraded connection, and the connection can be closed
    from it. -/
theorem callOpenHandler_handles (server : Server) (opening : Opening h i)
    (approved : .approved i ∈ h.trace.of i)
    (text : Bytes) (subprotocol : Option Bytes) (left : Bytes) :
    let up := h.upgradedHub i text subprotocol left (h.conn i).deferClose false
    ∃ defer opened, Settled (h.upgradedHub i text subprotocol left defer opened) ∧
      Handles server h [] (true, h.upgradedHub i text subprotocol left defer opened) ∧
      Handles server (h.upgradedHub i text subprotocol left defer opened) []
        ((up.callOpenHandler server i).2.env.exception.isNone, (up.callOpenHandler server i).2) := by
  intro up
  have defer : up.setConn i { up.conn i with deferClose := true } =
      h.upgradedHub i text subprotocol left true false := by
    simp [up, upgradedHub, setConn, evolve]
  have emitted : ∀ defer, (h.upgradedHub i text subprotocol left defer false).emit (.opened i) =
      h.upgradedHub i text subprotocol left defer true := by
    intro defer
    simp [upgradedHub, emit, evolve]
  unfold callOpenHandler
  cases handler : (server.handlers up.trace).onOpen with
  | none =>
      have quiet : up.env.exception = none := by
        rw [← opening.quiet]
        exact sendBytes_exception _ _ _
      rw [quiet]
      obtain ⟨call, settled⟩ := upgradedHub_settled server opening approved text subprotocol left
        (h.conn i).deferClose false (by
          intro registered
          have some := registered up.trace
          rw [handler] at some
          cases some)
      exact ⟨_, false, settled, call, Handles.refl settled⟩
  | some onOpen =>
      cases onOpen with
      | takesConnection run =>
          dsimp only
          rw [defer, emitted]
          obtain ⟨call, settled⟩ := upgradedHub_settled server opening approved text
            subprotocol left true true fun _ => rfl
          have called := callUser_handles settled (show Acts server _ _ from Acts.refl _) (run i)
            "Failed to call WebSocket server handler"
          have born := Nat.lt_of_lt_of_le opening.born (call.moves.trans called.moves).next_le
          exact ⟨true, true, settled, call, called.andThen (setConn_acts born (Yields.marks ..))⟩
      | takesNothing run =>
          dsimp only
          rw [emitted]
          obtain ⟨call, settled⟩ := upgradedHub_settled server opening approved text
            subprotocol left (h.conn i).deferClose true fun _ => rfl
          exact ⟨_, true, settled, call, callUser_handles settled (Acts.refl _) run
            "Failed to call WebSocket server handler"⟩

end Hub

namespace World

variable {server : Server} {w : World} {i : ConnId}

/-- Behind a complete 101 the connection is upgraded, and what the buffer holds behind the
    request is kept. -/
theorem finishUpgrade_upgrades (server : Server) (opening : Opening w.toHub i)
    (approved : .approved i ∈ w.trace.of i) (upgrade : HttpUpgrade)
    (sent : (w.env.sendBytes (w.conn i).fd
      (upgradeResponse (upgrade.acceptKey.getD []) upgrade.selectedSubprotocol)).1 = true) :
    Hub.UpgradedThen server w.toHub i
      (upgradeResponse (upgrade.acceptKey.getD []) upgrade.selectedSubprotocol)
      upgrade.selectedSubprotocol ((w.buffer i).drop upgrade.bytesConsumed)
      ((w.finishUpgrade server i upgrade).1, (w.finishUpgrade server i upgrade).2.toHub) := by
  unfold finishUpgrade
  generalize upgradeResponse (upgrade.acceptKey.getD []) upgrade.selectedSubprotocol = text at sent ⊢
  have complete : (w.respond i 101 text).1 = true := sent
  simp only [complete, Bool.not_true, Bool.false_eq_true, if_false]
  generalize atUp : ({ w with toHub := (w.respond i 101 text).2 } : World).switchToFrames i upgrade =
    up
  have left : up.buffer i = (w.buffer i).drop upgrade.bytesConsumed := by
    rw [← atUp, switchToFrames]
    exact (congrArg (World.buffer · i) (discard_eq _ i _)).trans (buffer_setBuffer _ _ _)
  have switched : up.toHub = w.toHub.upgradedHub i text upgrade.selectedSubprotocol (up.buffer i)
      (w.conn i).deferClose false := by
    rw [← atUp]
    simp [switchToFrames, discard, setReads, buffer, Hub.respond, Hub.setConn, Hub.emit,
      Hub.upgradedHub, Hub.evolve, sent]
  obtain ⟨defer, opened, settledUp, reached, called⟩ := Hub.callOpenHandler_handles server opening
    approved text upgrade.selectedSubprotocol (up.buffer i)
  rw [← switched] at called
  rw [left] at settledUp reached called
  refine ⟨defer, opened, settledUp, reached, ?_⟩
  generalize up.callOpenHandler server i = asked at called ⊢
  have born : i < asked.2.nextConnectionId :=
    Nat.lt_of_lt_of_le opening.born (reached.moves.trans called.moves).next_le
  cases quiet : asked.2.env.exception with
  | some e =>
      rw [quiet] at called
      exact ⟨[], called.andThen (Hub.shut_acts born)⟩
  | none =>
      rw [quiet] at called
      have settled : Settled asked.2 := called.settled settledUp
      simp only [Option.isSome_none, Bool.false_eq_true, if_false]
      -- the open callback may have asked to close
      generalize atAfter : (if asked.1 then
        ({ up with toHub := asked.2.shut i } : World) else { up with toHub := asked.2 }) = after
      have acts : Acts server asked.2 after.toHub := by
        rw [← atAfter]
        split
        · exact Hub.shut_acts born
        · exact Acts.refl _
      have settledAfter := settled.acts acts
      have goesOn := called.bind (Handles.of_acts settled acts)
      split
      · rename_i closed
        simp only [Bool.not_eq_true'] at closed
        exact ⟨_, goesOn.bind (Hub.notifyConnectionClosed_handles settledAfter
          (Nat.lt_of_lt_of_le born acts.next_le) closed)⟩
      · obtain ⟨seen, processed⟩ := processBufferedFrames_ran (i := i) settledAfter
        exact ⟨_, goesOn.bind processed⟩

/-- The connection is upgraded, or the 101 has failed and it is closed. -/
theorem finishUpgrade_ran (server : Server) (opening : Opening w.toHub i)
    (approved : .approved i ∈ w.trace.of i)
    (upgrade : HttpUpgrade) : Ran server w (w.finishUpgrade server i upgrade) := by
  cases sent : (w.env.sendBytes (w.conn i).fd
      (upgradeResponse (upgrade.acceptKey.getD []) upgrade.selectedSubprotocol)).1 with
  | true =>
      obtain ⟨defer, opened, -, reached, seen, goesOn⟩ :=
        finishUpgrade_upgrades server opening approved upgrade sent
      exact ⟨_, reached.bind goesOn⟩
  | false =>
      unfold finishUpgrade
      generalize upgradeResponse (upgrade.acceptKey.getD []) upgrade.selectedSubprotocol = text
        at sent ⊢
      have failed : (w.respond i 101 text).1 = false := sent
      rw [if_pos (by rw [failed]; rfl)]
      have acts : Acts server w.toHub ((w.respond i 101 text).2.shut i) :=
        Hub.respond_shut_acts opening.born opening.isOpen opening.fresh 101 text fun _ => failed
      refine ⟨[], Handles.arrive acts.moves acts.handled (opening.settled acts ?_)⟩
      intro isOpen
      rw [Hub.shut, Hub.conn_setConn] at isOpen
      cases isOpen

end World

/-! ## From the request to the upgrade -/

namespace Hub

variable {h : Hub} {i : ConnId}

theorem parsed_opening (server : Server) (settled : Settled h) (isOpen : (h.conn i).isOpen = true)
    (fresh : (h.conn i).upgraded = false) (buffer : Bytes) (upgrade : HttpUpgrade) :
    Acts server h (h.emit (.parsed i buffer upgrade)) ∧ Opening (h.emit (.parsed i buffer upgrade)) i := by
  have born := born_of_open settled.grounded isOpen
  have act : Acts server h (h.emit (.parsed i buffer upgrade)) := by
    rw [h.emit_eq i]
    exact Acts.single (Act.evolve born rfl (by simp [Event.about]) (by simp)
      (Life.Step.parsed isOpen fresh))
  have after := settled.acts act
  exact ⟨act, after.quiet, fun j _ => after.unasked j, after.grounded, isOpen, fresh, buffer, upgrade,
    by simp [emit, Trace.of, Event.about]⟩

theorem approved_opening (server : Server) (opening : Opening h i)
    (asked : (∀ t, (server.handlers t).onHandshake.isSome) → ∃ r, .handshake i r ∈ h.trace.of i) :
    Acts server h (h.emit (.approved i)) ∧ Opening (h.emit (.approved i)) i ∧
      .approved i ∈ (h.emit (.approved i)).trace.of i := by
  have act : Acts server h (h.emit (.approved i)) := by
    rw [h.emit_eq i]
    exact Acts.single (Act.evolve opening.born rfl (by simp [Event.about]) (by simp)
      (Life.Step.approve opening.isOpen opening.fresh opening.parsed asked))
  exact ⟨act, opening.acts act rfl, by simp [emit, Trace.of, Event.about]⟩

end Hub

namespace World

variable {server : Server} {w : World} {i : ConnId}

theorem beginUpgrade_ran (settled : Settled w.toHub) (isOpen : (w.conn i).isOpen = true)
    (fresh : (w.conn i).upgraded = false) (upgrade : HttpUpgrade) :
    Ran server w (w.beginUpgrade server i upgrade) := by
  obtain ⟨parsedAct, opening⟩ := Hub.parsed_opening server settled isOpen fresh (w.buffer i) upgrade
  have approve : ∀ after : World, Opening after.toHub i →
      ((∀ t, (server.handlers t).onHandshake.isSome) → ∃ r, .handshake i r ∈ after.trace.of i) →
      Ran server after
        (({ after with toHub := after.emit (.approved i) } : World).finishUpgrade server i upgrade) := by
    intro after still asked
    obtain ⟨act, approving, approved⟩ := Hub.approved_opening server still asked
    obtain ⟨seen, finished⟩ := finishUpgrade_ran server
      (w := { after with toHub := after.emit (.approved i) }) approving approved upgrade
    exact ⟨seen, finished.prepend act.moves act.handled⟩
  simp only [beginUpgrade]
  have unasked := settled.acts parsedAct |>.unasked i
  generalize w.emit (.parsed i (w.buffer i) upgrade) = parsedHub at parsedAct opening unasked
  cases handler : (server.handlers parsedHub.trace).onHandshake with
  | none =>
      obtain ⟨seen, finished⟩ := approve { w with toHub := parsedHub } opening (by
        intro registered
        have some := registered parsedHub.trace
        rw [handler] at some
        cases some)
      exact ⟨seen, finished.prepend parsedAct.moves parsedAct.handled⟩
  | some onHandshake =>
      dsimp only
      generalize (⟨upgrade.method, upgrade.target, requestHeaders upgrade.headers⟩ : Request) = request
      obtain ⟨moves, handled, post⟩ := Hub.callHandshakeHandler_spec server opening unasked request
        (onHandshake request)
      generalize parsedHub.callHandshakeHandler i request (onHandshake request) = asked
        at moves handled post
      obtain ⟨verdict, after⟩ := asked
      have all := parsedAct.moves.trans moves
      have same : after.handled = w.handled := by rw [handled, parsedAct.handled]
      cases verdict with
      | failed => exact ⟨[], Handles.threw all same post⟩
      | rejected => exact ⟨[], Handles.arrive all same post⟩
      | accepted =>
          obtain ⟨seen, finished⟩ := approve { w with toHub := after } post.1 fun _ => ⟨_, post.2⟩
          exact ⟨seen, finished.prepend all same⟩

theorem setRecvs_acts (w : World) (recvs : List RecvResult) :
    Acts server w.toHub (w.setRecvs recvs).toHub := Hub.env_acts rfl

theorem setErrno_acts (w : World) (errno : Errno) :
    Acts server w.toHub (w.setErrno errno).toHub := Hub.env_acts rfl

theorem now_exception (env : Env) : env.now.2.exception = env.exception := by
  unfold Env.now
  split <;> rfl

theorem now_acts (h : Hub) : Acts server h h.now.2 := Hub.env_acts (now_exception h.env)

theorem touch_acts (born : i < w.nextConnectionId) : Acts server w.toHub (w.touch i).toHub :=
  (now_acts w.toHub).trans (Hub.setConn_acts (h := w.now.2) born (Yields.marks ..))

theorem failRecv_ran (settled : Settled w.toHub) (born : i < w.nextConnectionId) :
    Ran server w (w.failRecv i) := Ran.of_acts settled (Hub.shut_acts born)

theorem handshakeLoop_ran (settled : Settled w.toHub) (recvs : List RecvResult) :
    Ran server w (w.handshakeLoop server i recvs) := by
  induction recvs generalizing w with
  | nil =>
      unfold handshakeLoop
      split
      · exact Ran.refl settled
      · exact Ran.of_acts settled (setErrno_acts w .eagain)
  | cons answer rest ih =>
      have next : Acts server w.toHub (w.setRecvs rest).toHub := setRecvs_acts w rest
      have failing : ∀ e, Acts server w.toHub ((w.setRecvs rest).setErrno e).toHub :=
        fun e => next.trans (setErrno_acts _ e)
      rw [handshakeLoop.eq_def]
      dsimp only
      split
      · exact Ran.refl settled
      · rename_i waits
        simp only [Bool.not_eq_true', Bool.and_eq_false_iff, not_or, Bool.not_eq_false] at waits
        obtain ⟨isOpen, fresh⟩ := waits
        have born := Hub.born_of_open settled.grounded isOpen
        cases answer with
        | eof => exact Ran.bind_acts settled next fun after => failRecv_ran after born
        | failed e =>
            cases e with
            | eintr => exact Ran.bind_acts settled (failing _) fun after => ih after
            | eagain | ewouldblock => exact Ran.of_acts settled (failing _)
            | enobufs | epipe | econnreset | ebadf | other =>
                exact Ran.bind_acts settled (failing _) fun after => failRecv_ran after born
        | data chunk =>
            have touched : Acts server w.toHub ((w.setRecvs rest).touch i).toHub :=
              next.trans (touch_acts born)
            have conn : (((w.setRecvs rest).touch i).conn i).isOpen = true ∧
                (((w.setRecvs rest).touch i).conn i).upgraded = false := by
              simp [touch, Hub.setConn, Hub.now, setRecvs, isOpen, fresh]
            apply Ran.bind_acts settled touched
            intro after
            dsimp only
            generalize (w.setRecvs rest).touch i = heard at after conn
            have stillBorn := Hub.born_of_open after.grounded conn.1
            have refused : Ran server heard
                (true, { heard with toHub := heard.reject i 400 badRequestResponse }) :=
              Ran.of_acts after (Hub.reject_acts stillBorn conn.1 conn.2 _ (by decide))
            cases (heard.reads i).ensureCapacity chunk.octets.length httpMaxRequestSize with
            | none => exact refused
            | some side =>
                dsimp only
                split
                · exact ih (w := heard.setReads i (side.append chunk.octets)) after
                · exact refused
                · exact beginUpgrade_ran (w := heard.setReads i (side.append chunk.octets)) after
                    conn.1 conn.2 _

end World

end PhpWebSocket
