import PhpWebSocket.Reached
import PhpWebSocket.UpgradeGrammar

/-! # The stream of a handshake

A request arrives in chunks, with the first frames of the client behind it. The loop
that waits for the end of the request keeps everything it receives, but within the limit
for a request: it is the last chunk, with whatever comes behind the request in it, that
decides whether there is room.
-/

namespace PhpWebSocket

open Lib Relation

/-! ## A callback that accepts -/

/-- A script that ends by accepting a handshake, whatever its calls come to. -/
inductive Script.Accepts : Script → Prop
  | finish : Accepts (.finish (.returned .null))
  | call {c : ApiCall} {next : ApiResult → Script} (rest : ∀ answer, Accepts (next answer)) :
      Accepts (.call c next)

/-- No handshake callback rejects. -/
def Server.Accepts (server : Server) : Prop :=
  ∀ trace onHandshake, (server.handlers trace).onHandshake = some onHandshake →
    ∀ request, (onHandshake request).Accepts

namespace Hub

variable {server : Server} {h : Hub} {i : ConnId}

theorem reject_log (h : Hub) (i : ConnId) (status : Int) (text : Bytes) :
    (h.reject i status text).trace.of i =
      h.trace.of i ++ [.response i status (h.respond i status text).1] := by
  simp [reject, respond, shut, setConn, emit, Trace.of, Event.about]

theorem runScript_accepts {script : Script} (accepts : script.Accepts) (h : Hub) :
    (runScript script h).1 = .returned .null := by
  induction accepts generalizing h with
  | finish => rfl
  | call _ ih => exact ih _ _

theorem sendFrame_sends (sends : h.env.sends = []) (j : ConnId) (source : FrameSource)
    (payload : Bytes) (opcode : UInt8) :
    (h.sendFrame j source payload opcode).2.env.sends = [] := by
  simp only [sendFrame]
  split <;> exact Link.sendFrame_sends sends payload opcode

theorem perform_sends (sends : h.env.sends = []) (c : ApiCall) : (h.perform c).2.env.sends = [] := by
  cases c with
  | stop => exact sends
  | isOpen j =>
      simp only [perform]
      split <;> exact sends
  | send j payload type =>
      simp only [perform]
      split
      · exact sends
      · rcases connectionSend_cases h j payload type with same | ⟨opcode, -, -, sent⟩
        · rw [same]
          exact sends
        · rw [sent]
          exact sendFrame_sends (h := h.emit (.submit j opcode payload)) sends j _ _ _
  | close j arguments =>
      have closed : ∀ {h : Hub}, h.env.sends = [] → (h.closeAfterWrite j).env.sends = [] :=
        fun {h} sends => ((h.link j).closeAfterWrite_sends).trans sends
      simp only [perform]
      split
      · exact sends
      · rcases connectionClose_cases h j arguments with
          same | shut | closing | ⟨code, reason, payload, ok, bye⟩
        · rw [same]
          exact sends
        · rw [shut]
          exact sends
        · rw [closing]
          exact closed sends
        · rw [bye, sendCloseFrame_eq h j .close ok]
          split
          · exact closed sends
          · exact closed (sendFrame_sends sends j _ _ _)

theorem runScript_sends (script : Script) (sends : h.env.sends = []) :
    (runScript script h).2.env.sends = [] := by
  induction script generalizing h with
  | finish result => exact sends
  | call c next ih => exact ih _ (perform_sends sends c)

theorem callHandshakeHandler_accepts {script : Script} (accepts : script.Accepts) (h : Hub)
    (i : ConnId) (request : Request) :
    h.callHandshakeHandler i request script =
      (.accepted, (runScript script (h.emit (.handshake i request))).2) := by
  simp only [callHandshakeHandler, runScript_accepts accepts]

end Hub

/-! ## From the request to the frames -/

/-- The connection waits for its request, and its socket takes what it is given. -/
structure Waiting (i : ConnId) (w : World) : Prop where
  settled : Settled w.toHub
  isOpen : (w.conn i).isOpen = true
  fresh : (w.conn i).upgraded = false
  fd : (w.conn i).fd ≠ none
  sends : w.env.sends = []

/-- The connection was upgraded with `left` in its buffer, and was never refused. -/
def Upgrades (i : ConnId) (h h' : Hub) (left : Bytes) : Prop :=
  ∃ later, h'.trace.of i = h.trace.of i ++ later ∧ .upgraded i left ∈ later ∧
    ∀ status complete, .response i status complete ∈ later → status = 101

/-- The events between two states of a connection, none of them a response. -/
def Unanswered (i : ConnId) (h h' : Hub) : Prop :=
  ∃ more, h'.trace.of i = h.trace.of i ++ more ∧ ∀ status complete, .response i status complete ∉ more

theorem Upgrades.prepend {i : ConnId} {h h' h'' : Hub} {left : Bytes}
    (before : Unanswered i h h') (upgrades : Upgrades i h' h'' left) : Upgrades i h h'' left := by
  obtain ⟨more, grown, silent⟩ := before
  obtain ⟨later, trace, upgraded, only⟩ := upgrades
  refine ⟨more ++ later, by rw [trace, grown, List.append_assoc], List.mem_append_right _ upgraded,
    ?_⟩
  intro status complete mem
  exact only status complete ((List.mem_append.mp mem).resolve_left (silent status complete))

theorem Life.Step.past_upgrade {server : Server} {i : ConnId} {quiet listed : Prop} {a b : Life}
    (step : Life.Step server i quiet listed a b) (upgraded : a.conn.upgraded = true) :
    b.conn.upgraded = true ∧ ∃ more, b.log = a.log ++ more ∧
      ∀ status complete, .response i status complete ∉ more := by
  cases step with
  | create => cases upgraded
  | yield yields => exact ⟨yields.upgraded.trans upgraded, [], by simp, by simp⟩
  | accepted | submit | deliver | notify => exact ⟨upgraded, _, rfl, by simp⟩
  | send _ _ _ yields => exact ⟨yields.upgraded.trans upgraded, _, rfl, by simp⟩
  | bye _ _ _ _ _ yields => exact ⟨yields.upgraded.trans upgraded, _, rfl, by simp⟩
  | parsed _ fresh | ask _ _ fresh | approve _ fresh | reject _ fresh | upgrade _ fresh =>
      rw [upgraded] at fresh
      cases fresh

/-- The life of a connection behind its upgrade. -/
def PastUpgrade (i : ConnId) (log : Trace) (life : Life) : Prop :=
  life.conn.upgraded = true ∧
    ∃ more, life.log = log ++ more ∧ ∀ status complete, .response i status complete ∉ more

theorem Moves.past_upgrade {server : Server} {i : ConnId} {h h' : Hub} (moves : Moves server h h')
    (upgraded : (h.conn i).upgraded = true) : PastUpgrade i (h.trace.of i) (h'.life i) := by
  refine Moves.life_invariant ?_ moves
    ⟨upgraded, [], by simp [Hub.life], by simp⟩
  rintro quiet listed a b step ⟨was, more, grown, silent⟩
  obtain ⟨still, later, trace, silent'⟩ := step.past_upgrade was
  refine ⟨still, more ++ later, by rw [trace, grown, List.append_assoc], ?_⟩
  intro status complete mem
  rcases List.mem_append.mp mem with old | new
  · exact silent _ _ old
  · exact silent' _ _ new

theorem sendAll_willing (errno : Option Errno) (len : Nat) :
    sendAll [] errno len = ⟨true, len, [], errno⟩ := by
  cases len <;> rfl

theorem Hub.respond_willing {h : Hub} {i : ConnId} {fd : Nat} (held : (h.conn i).fd = some fd)
    (sends : h.env.sends = []) (status : Int) (text : Bytes) :
    h.respond i status text = (true, h.emit (.response i status true)) := by
  have sent : h.env.sendBytes (h.conn i).fd text = (true, h.env) := by
    rw [held, Env.sendBytes, sends, sendAll_willing]
    dsimp only
    rw [← sends]
  rw [respond, sent]

namespace World

variable {server : Server} {w : World} {i : ConnId}

/-- With a willing socket the 101 is complete, and the upgrade keeps what stands behind the
    request. -/
theorem finishUpgrade_reports (opening : Opening w.toHub i) (approved : .approved i ∈ w.trace.of i)
    (fd : (w.conn i).fd ≠ none) (sends : w.env.sends = []) (upgrade : HttpUpgrade) :
    Upgrades i w.toHub (w.finishUpgrade server i upgrade).2.toHub
        ((w.buffer i).drop upgrade.bytesConsumed) ∧
      ((w.finishUpgrade server i upgrade).2.conn i).upgraded = true := by
  have sent : (w.env.sendBytes (w.conn i).fd
      (upgradeResponse (upgrade.acceptKey.getD []) upgrade.selectedSubprotocol)).1 = true := by
    obtain ⟨n, atFd⟩ := Option.ne_none_iff_exists'.mp fd
    rw [atFd, Env.sendBytes, sends, sendAll_willing]
  obtain ⟨defer, opened, settled, -, seen, goesOn⟩ :=
    finishUpgrade_upgrades server opening approved upgrade sent
  obtain ⟨upgraded, more, grown, silent⟩ := goesOn.moves.past_upgrade (i := i)
    (Hub.upgradedHub_upgraded ..)
  rw [Hub.upgradedHub_log, List.append_assoc] at grown
  refine ⟨⟨_, grown, by simp, ?_⟩, upgraded⟩
  intro status complete mem
  rcases List.mem_append.mp mem with up | later
  · cases opened with
    | true | false =>
        simp only [Bool.false_eq_true, if_true, if_false, List.mem_append, List.mem_cons,
          Event.response.injEq, reduceCtorEq, List.not_mem_nil, or_false] at up
        exact up.2.1
  · exact absurd later (silent status complete)

theorem beginUpgrade_reports (accepting : server.Accepts) (waiting : Waiting i w)
    (upgrade : HttpUpgrade) :
    Upgrades i w.toHub (w.beginUpgrade server i upgrade).2.toHub
        ((w.buffer i).drop upgrade.bytesConsumed) ∧
      ((w.beginUpgrade server i upgrade).2.conn i).upgraded = true := by
  obtain ⟨settled, isOpen, fresh, fd, sends⟩ := waiting
  obtain ⟨parsedAct, opening⟩ := Hub.parsed_opening server settled isOpen fresh (w.buffer i) upgrade
  have unasked := (settled.acts parsedAct).unasked i
  have parsed : Unanswered i w.toHub (w.emit (.parsed i (w.buffer i) upgrade)) :=
    ⟨[.parsed i (w.buffer i) upgrade], by simp [Hub.emit, Trace.of, Event.about], by simp⟩
  -- from the approval on, with the same connection and buffer
  have finish : ∀ after : World, Opening after.toHub i →
      ((∀ t, (server.handlers t).onHandshake.isSome) → ∃ r, .handshake i r ∈ after.trace.of i) →
      after.conn i = w.conn i → after.reads = w.reads → after.env.sends = [] →
      Unanswered i w.toHub after.toHub →
      Upgrades i w.toHub (({ after with toHub := after.emit (.approved i) } : World).finishUpgrade
          server i upgrade).2.toHub ((w.buffer i).drop upgrade.bytesConsumed) ∧
        ((({ after with toHub := after.emit (.approved i) } : World).finishUpgrade
          server i upgrade).2.conn i).upgraded = true := by
    intro after still asked conn reads willing unanswered
    obtain ⟨act, approving, approved⟩ := Hub.approved_opening server still asked
    obtain ⟨upgrades, upgraded⟩ := finishUpgrade_reports
      (w := { after with toHub := after.emit (.approved i) }) approving approved
      (by rw [show (after.emit (.approved i)).conn i = w.conn i from conn]; exact fd) willing upgrade
    have noted : Unanswered i after.toHub (after.emit (.approved i)) :=
      ⟨[.approved i], by simp [Hub.emit, Trace.of, Event.about], by simp⟩
    have same : ({ after with toHub := after.emit (.approved i) } : World).buffer i = w.buffer i := by
      rw [buffer, buffer, reads]
    rw [same] at upgrades
    exact ⟨(upgrades.prepend noted).prepend unanswered, upgraded⟩
  simp only [beginUpgrade]
  cases handler : (server.handlers (w.emit (.parsed i (w.buffer i) upgrade)).trace).onHandshake with
  | none =>
      refine finish { w with toHub := w.emit (.parsed i (w.buffer i) upgrade) } opening ?_ rfl rfl sends
        parsed
      intro registered
      have some := registered (w.emit (.parsed i (w.buffer i) upgrade)).trace
      rw [handler] at some
      cases some
  | some onHandshake =>
      dsimp only
      generalize (⟨upgrade.method, upgrade.target, requestHeaders upgrade.headers⟩ : Request) = request
      have accepts := accepting _ _ handler request
      have spec := Hub.callHandshakeHandler_spec server opening unasked request (onHandshake request)
      rw [Hub.callHandshakeHandler_accepts accepts] at spec ⊢
      obtain ⟨-, -, after, asked⟩ := spec
      have spares := (Hub.runScript_spares (onHandshake request)
        ((w.emit (.parsed i (w.buffer i) upgrade)).emit (.handshake i request))).waiting i fresh
      apply finish { w with toHub := _ } after (fun _ => ⟨_, asked⟩) (congrArg Life.conn spares) rfl
        (Hub.runScript_sends _ sends)
      refine ⟨[.parsed i (w.buffer i) upgrade, .handshake i request], ?_, by simp⟩
      have log := congrArg Life.log spares
      apply log.trans
      simp [Hub.life, Hub.emit, Trace.of, Event.about]

end World

/-! ## Calls of the loop -/

/-- An answer that does not end the connection. -/
def RecvResult.Unbroken : RecvResult → Prop
  | .data _ => True
  | .failed e => e = .eintr ∨ e = .eagain ∨ e = .ewouldblock
  | .eof => False

/-- How often a call finds the socket empty. -/
def pauses : List RecvResult → Nat
  | [] => 0
  | .failed e :: rest => if e = .eagain ∨ e = .ewouldblock then pauses rest + 1 else pauses rest
  | _ :: rest => pauses rest

/-- How many octets there are with the chunk that completes the first `need`, where `total`
    are there before. -/
def arrived (need : Nat) : Nat → List RecvResult → Nat
  | total, [] => total
  | total, .data chunk :: rest =>
      let heard := total + chunk.octets.length
      if heard < need then arrived need heard rest else heard
  | total, _ :: rest => arrived need total rest

/-- Calls of `process_handshake`, until one returns false. -/
def World.handshakePolls (server : Server) (i : ConnId) : Nat → World → Bool × World
  | 0, w => (true, w)
  | n + 1, w =>
      let called := w.processHandshake server i
      if called.1 then called.2.handshakePolls server i n else called

/-- The connection waits for the rest of `header`, which comes with `tail` behind it. -/
structure Awaiting (server : Server) (i : ConnId)
    (header : HeaderBlock server.lib server.subprotocols) (tail : Bytes) (w : World) : Prop
    extends Waiting i w where
  short : (w.buffer i).length < header.octets.length
  stream : w.buffer i ++ octetsOf w.env.recvs = header.octets ++ tail
  unbroken : ∀ answer ∈ w.env.recvs, answer.Unbroken

/-- The connection was answered with 400. -/
def TurnedAway (i : ConnId) (h h' : Hub) : Prop :=
  ∃ later, h'.trace.of i = h.trace.of i ++ later ∧ ∃ complete, .response i 400 complete ∈ later

theorem TurnedAway.not_upgrades {i : ConnId} {h h' : Hub} {left : Bytes}
    (away : TurnedAway i h h') : ¬ Upgrades i h h' left := by
  rintro ⟨later, grown, -, only⟩
  obtain ⟨later', grown', complete, refused⟩ := away
  rw [grown'] at grown
  have same := List.append_cancel_left grown
  rw [same] at refused
  exact absurd (only 400 complete refused) (by decide)

/-- What becomes of a stream of which `total` octets are there when the header is complete. -/
def HandshakeEnd (i : ConnId) (size : Nat) (stream : Bytes) (total : Nat) (h h' : Hub) : Prop :=
  if total ≤ httpMaxRequestSize then Upgrades i h h' ((stream.take total).drop size)
  else TurnedAway i h h'

namespace World

variable {server : Server} {w w' : World} {i : ConnId}
  {header : HeaderBlock server.lib server.subprotocols} {tail : Bytes} {rest : List RecvResult}

/-! ### One answer -/

theorem handshakePolls_idle (server : Server) (n : Nat)
    (ended : ((w.conn i).isOpen && !(w.conn i).upgraded) = false) :
    w.handshakePolls server i n = (true, w) := by
  have idle : w.processHandshake server i = (true, w) := by
    rw [processHandshake, handshakeLoop.eq_def]
    dsimp only
    rw [ended]
    rfl
  induction n with
  | zero => rfl
  | succ n ih =>
      rw [handshakePolls, idle]
      exact ih

theorem handshakePolls_congr (n : Nat)
    (same : w.processHandshake server i = w'.processHandshake server i) :
    w.handshakePolls server i (n + 1) = w'.handshakePolls server i (n + 1) := by
  rw [handshakePolls, handshakePolls, same]

/-- A call whose connection is done with the handshake is the last that matters. -/
theorem handshakePolls_last (n : Nat)
    (ended : (((w.processHandshake server i).2.conn i).isOpen &&
      !((w.processHandshake server i).2.conn i).upgraded) = false) :
    (w.handshakePolls server i (n + 1)).2 = (w.processHandshake server i).2 := by
  rw [handshakePolls]
  split
  · rw [handshakePolls_idle server n ended]
  · rfl

theorem touch_env (w : World) (i : ConnId) :
    (w.touch i).env.recvs = w.env.recvs ∧ (w.touch i).env.sends = w.env.sends := by
  simp only [touch, Hub.now, Env.now, Hub.setConn]
  split <;> exact ⟨rfl, rfl⟩

theorem touch_conn (w : World) (i : ConnId) :
    (w.touch i).conn i = { w.conn i with lastActivityUsec := w.now.1 } := by
  simp [touch, Hub.now]

/-- The world behind a chunk that found room. -/
def heard (w : World) (i : ConnId) (chunk : Chunk) (rest : List RecvResult) (side : ReadSide) :
    World :=
  ((w.setRecvs rest).touch i).setReads i (side.append chunk.octets)

theorem heard_buffer {chunk : Chunk} {side : ReadSide}
    (room : (w.reads i).ensureCapacity chunk.octets.length httpMaxRequestSize = some side) :
    (w.heard i chunk rest side).buffer i = w.buffer i ++ chunk.octets :=
  buffer_append (w := (w.setRecvs rest).touch i) room

theorem heard_recvs (w : World) (i : ConnId) (chunk : Chunk) (rest : List RecvResult)
    (side : ReadSide) : (w.heard i chunk rest side).env.recvs = rest :=
  (touch_env (w.setRecvs rest) i).1

end World

section

variable {server : Server} {w w' : World} {i : ConnId}
  {header : HeaderBlock server.lib server.subprotocols} {tail : Bytes} {rest : List RecvResult}

theorem Waiting.goes (waiting : Waiting i w) :
    (!((w.conn i).isOpen && !(w.conn i).upgraded)) = false := by
  rw [waiting.isOpen, waiting.fresh]
  rfl

theorem Waiting.noted (server : Server) (waiting : Waiting i w) (rest : List RecvResult) (e : Errno) :
    Waiting i ((w.setRecvs rest).setErrno e) := by
  obtain ⟨settled, isOpen, fresh, fd, sends⟩ := waiting
  have acts : Acts server w.toHub ((w.setRecvs rest).setErrno e).toHub :=
    (World.setRecvs_acts w rest).trans (World.setErrno_acts _ e)
  exact ⟨settled.acts acts, isOpen, fresh, fd, sends⟩

theorem Waiting.heard (server : Server) (waiting : Waiting i w) (chunk : Chunk)
    (rest : List RecvResult) (side : ReadSide) : Waiting i (w.heard i chunk rest side) := by
  obtain ⟨settled, isOpen, fresh, fd, sends⟩ := waiting
  have born : i < w.nextConnectionId := Hub.born_of_open settled.grounded isOpen
  have acts : Acts server w.toHub (w.heard i chunk rest side).toHub :=
    (World.setRecvs_acts w rest).trans (World.touch_acts (w := w.setRecvs rest) born)
  have conn : (w.heard i chunk rest side).conn i = _ := World.touch_conn (w.setRecvs rest) i
  refine ⟨settled.acts acts, ?_, ?_, ?_, (World.touch_env (w.setRecvs rest) i).2.trans sends⟩
  · rw [conn]
    exact isOpen
  · rw [conn]
    exact fresh
  · rw [conn]
    exact fd

/-! ### A whole stream -/

/-- The outcome does not depend on the state it is counted from, while the log is the same. -/
theorem HandshakeEnd.from {size total : Nat} {stream : Bytes} {h h' h'' : Hub}
    (same : h'.trace.of i = h.trace.of i) (outcome : HandshakeEnd i size stream total h' h'') :
    HandshakeEnd i size stream total h h'' := by
  simp only [HandshakeEnd, Upgrades, TurnedAway, same] at outcome ⊢
  exact outcome

theorem Awaiting.noted (awaiting : Awaiting server i header tail w) {e : Errno}
    (recvs : w.env.recvs = .failed e :: rest) :
    Awaiting server i header tail ((w.setRecvs rest).setErrno e) := by
  refine ⟨awaiting.toWaiting.noted server rest e, awaiting.short, ?_, ?_⟩
  · have stream := awaiting.stream
    rw [recvs] at stream
    exact stream
  · intro answer mem
    exact awaiting.unbroken answer (recvs ▸ List.mem_cons_of_mem _ mem)

theorem Awaiting.interrupted (awaiting : Awaiting server i header tail w)
    (recvs : w.env.recvs = .failed .eintr :: rest) :
    w.processHandshake server i =
      ((w.setRecvs rest).setErrno .eintr).processHandshake server i := by
  rw [World.processHandshake, recvs, World.handshakeLoop.eq_def]
  dsimp only
  rw [awaiting.goes]
  rfl

theorem Awaiting.paused (awaiting : Awaiting server i header tail w) {e : Errno}
    (recvs : w.env.recvs = .failed e :: rest) (empty : e = .eagain ∨ e = .ewouldblock) :
    w.processHandshake server i = (true, (w.setRecvs rest).setErrno e) := by
  rw [World.processHandshake, recvs, World.handshakeLoop.eq_def]
  dsimp only
  rw [awaiting.goes]
  rcases empty with rfl | rfl
  · rfl
  · rfl

theorem Awaiting.heard (awaiting : Awaiting server i header tail w) {chunk : Chunk}
    (recvs : w.env.recvs = .data chunk :: rest)
    (short : (w.buffer i).length + chunk.octets.length < header.octets.length) :
    ∃ w', Awaiting server i header tail w' ∧ w'.env.recvs = rest ∧
      (w'.buffer i).length = (w.buffer i).length + chunk.octets.length ∧
      w'.trace = w.trace ∧ w.processHandshake server i = w'.processHandshake server i := by
  have size := header.size
  obtain ⟨side, room⟩ := Option.isSome_iff_exists.mp
    ((ReadSide.ensureCapacity_isSome (w.reads i) chunk.octets.length httpMaxRequestSize).mpr
      (by rw [← World.buffer]; omega))
  have buffer : (w.heard i chunk rest side).buffer i = w.buffer i ++ chunk.octets :=
    World.heard_buffer room
  have left := World.heard_recvs w i chunk rest side
  have length : ((w.heard i chunk rest side).buffer i).length =
      (w.buffer i).length + chunk.octets.length := by rw [buffer, List.length_append]
  have stream : (w.heard i chunk rest side).buffer i ++ octetsOf rest = header.octets ++ tail := by
    have stream := awaiting.stream
    rw [recvs] at stream
    rw [buffer, List.append_assoc]
    exact stream
  have front : (w.heard i chunk rest side).buffer i <+: header.octets := by
    have whole : (w.heard i chunk rest side).buffer i <+: header.octets ++ tail := by
      rw [← stream]
      exact List.prefix_append ..
    exact List.prefix_of_prefix_length_le whole (List.prefix_append ..) (by omega)
  refine ⟨w.heard i chunk rest side, ⟨awaiting.toWaiting.heard server chunk rest side, ?_, ?_, ?_⟩,
    left, length, rfl, ?_⟩
  · rw [length]
    exact short
  · rw [left]
    exact stream
  · rw [left]
    intro answer mem
    exact awaiting.unbroken answer (recvs ▸ List.mem_cons_of_mem _ mem)
  · have waits := header.incomplete front (by rw [length]; exact short)
    rw [World.processHandshake, World.processHandshake, left, recvs, World.handshakeLoop.eq_def]
    dsimp only
    rw [awaiting.goes]
    have found : (((w.setRecvs rest).touch i).reads i).ensureCapacity chunk.octets.length
        httpMaxRequestSize = some side := room
    simp only [Bool.false_eq_true, if_false, found]
    rw [← World.heard, waits]

/-- The chunk with the last octet of the header decides. -/
theorem Awaiting.decided (accepting : server.Accepts) (awaiting : Awaiting server i header tail w)
    {chunk : Chunk} (recvs : w.env.recvs = .data chunk :: rest)
    (complete : header.octets.length ≤ (w.buffer i).length + chunk.octets.length) :
    HandshakeEnd i header.octets.length (header.octets ++ tail)
        ((w.buffer i).length + chunk.octets.length) w.toHub (w.processHandshake server i).2.toHub ∧
      (((w.processHandshake server i).2.conn i).isOpen &&
        !((w.processHandshake server i).2.conn i).upgraded) = false := by
  have capacity := ReadSide.ensureCapacity_isSome (w.reads i) chunk.octets.length httpMaxRequestSize
  rw [← World.buffer] at capacity
  rw [HandshakeEnd, World.processHandshake, recvs, World.handshakeLoop.eq_def]
  dsimp only
  rw [awaiting.goes]
  simp only [Bool.false_eq_true, if_false]
  by_cases fits : (w.buffer i).length + chunk.octets.length ≤ httpMaxRequestSize
  · obtain ⟨side, room⟩ := Option.isSome_iff_exists.mp (capacity.mpr fits)
    have found : (((w.setRecvs rest).touch i).reads i).ensureCapacity chunk.octets.length
        httpMaxRequestSize = some side := room
    have buffer : (w.heard i chunk rest side).buffer i = w.buffer i ++ chunk.octets :=
      World.heard_buffer room
    have length : (w.buffer i).length + chunk.octets.length =
        ((w.heard i chunk rest side).buffer i).length := by rw [buffer, List.length_append]
    have stream : (w.heard i chunk rest side).buffer i ++ octetsOf rest = header.octets ++ tail := by
      have stream := awaiting.stream
      rw [recvs] at stream
      rw [buffer, List.append_assoc]
      exact stream
    have front : header.octets <+: (w.heard i chunk rest side).buffer i := by
      have whole : (w.heard i chunk rest side).buffer i <+: header.octets ++ tail := by
        rw [← stream]
        exact List.prefix_append ..
      exact List.prefix_of_prefix_length_le (List.prefix_append ..) whole (by omega)
    obtain ⟨pipelined, within⟩ := front
    have accepted := header.accepted_append pipelined (by rw [within]; omega)
    have reports := World.beginUpgrade_reports accepting
      (awaiting.toWaiting.heard server chunk rest side) header.upgrade
    rw [header.consumed] at reports
    rw [within] at accepted
    rw [if_pos fits, found]
    dsimp only
    rw [← World.heard, accepted, ← stream, length, List.take_left]
    obtain ⟨upgrades, upgraded⟩ := reports
    exact ⟨upgrades, by simp [upgraded]⟩
  · have found : (((w.setRecvs rest).touch i).reads i).ensureCapacity chunk.octets.length
        httpMaxRequestSize = none := Option.not_isSome_iff_eq_none.mp fun some => fits (capacity.mp some)
    rw [if_neg fits, found]
    dsimp only
    refine ⟨⟨_, Hub.reject_log _ i 400 badRequestResponse, _, List.mem_singleton_self _⟩, ?_⟩
    rw [Hub.reject_closed, Bool.false_and]

/-- Calls of `process_handshake` see the stream through. -/
theorem Awaiting.handshakePolls (accepting : server.Accepts) (recvs : List RecvResult) {n : Nat}
    (awaiting : Awaiting server i header tail w) (delivered : w.env.recvs = recvs)
    (enough : pauses recvs < n) :
    HandshakeEnd i header.octets.length (header.octets ++ tail)
      (arrived header.octets.length (w.buffer i).length recvs) w.toHub
      (w.handshakePolls server i n).2.toHub := by
  obtain ⟨n, rfl⟩ := Nat.exists_eq_succ_of_ne_zero (Nat.ne_zero_of_lt enough)
  induction recvs generalizing w n with
  | nil =>
      have stream := congrArg List.length awaiting.stream
      have short := awaiting.short
      rw [delivered, octetsOf, List.append_nil, List.length_append] at stream
      omega
  | cons answer rest ih =>
      cases answer with
      | eof => exact (awaiting.unbroken .eof (delivered ▸ List.mem_cons_self ..)).elim
      | data chunk =>
          simp only [arrived]
          split
          · rename_i short
            obtain ⟨w', heard, left, length, trace, same⟩ := awaiting.heard delivered short
            have outcome := ih (n := n) heard left enough
            rw [length] at outcome
            rw [World.handshakePolls_congr n same]
            exact outcome.from (congrArg (Trace.of · i) trace)
          · rename_i complete
            obtain ⟨outcome, ended⟩ := awaiting.decided accepting delivered (Nat.le_of_not_lt complete)
            rw [World.handshakePolls_last n ended]
            exact outcome
      | failed e =>
          have noted := awaiting.noted delivered
          rcases awaiting.unbroken (.failed e) (delivered ▸ List.mem_cons_self ..) with rfl | empty
          · rw [World.handshakePolls_congr n (awaiting.interrupted delivered)]
            exact ih (n := n) noted rfl enough
          · rw [pauses, if_pos empty] at enough
            obtain ⟨m, rfl⟩ := Nat.exists_eq_succ_of_ne_zero (n := n) (by omega)
            rw [World.handshakePolls, awaiting.paused delivered empty]
            exact ih (n := m) noted rfl (Nat.lt_of_succ_lt_succ enough)

end

/-! ## Where the request limit cuts a stream -/

/-- However the stream is cut, and however often the socket is found empty: the handshake
    ends in the upgrade, with what has arrived behind the header in the buffer, exactly if
    what is there with the last octet of the header is within the limit for a request. -/
theorem handshake_upgrades_iff {server : Server} (accepting : server.Accepts) {i : ConnId}
    {header : HeaderBlock server.lib server.subprotocols} {tail : Bytes} {w : World}
    (awaiting : Awaiting server i header tail w) {n : Nat} (enough : pauses w.env.recvs < n) :
    let total := arrived header.octets.length (w.buffer i).length w.env.recvs
    Upgrades i w.toHub (w.handshakePolls server i n).2.toHub
        (((header.octets ++ tail).take total).drop header.octets.length) ↔
      total ≤ httpMaxRequestSize := by
  intro total
  have outcome := awaiting.handshakePolls accepting w.env.recvs rfl enough
  unfold HandshakeEnd at outcome
  constructor
  · intro upgrades
    by_contra ended
    rw [if_neg ended] at outcome
    exact outcome.not_upgrades upgrades
  · intro within
    rw [if_pos within] at outcome
    exact outcome

/-- A request in two parts, with a Ping behind it in the second. -/
theorem handshake_upgrades_iff_split :
    let server : Server := { options := .array fun _ => none, lib := sampleLib }
    let ping : Bytes := [0x89, 0x80, 1, 2, 3, 4]
    let start : Chunk := ⟨sampleRequest.take 20, by decide +kernel, by decide +kernel⟩
    let finish : Chunk := ⟨sampleRequest.drop 20 ++ ping, by decide +kernel, by decide +kernel⟩
    let recvs : List RecvResult := [.data start, .failed .eagain, .data finish]
    let env : Env := { accepts := [.client 5 none], recvs := recvs }
    let w := ((World.listening env 3).processReady server (.ready 3)).2
    ∃ header : HeaderBlock server.lib server.subprotocols, header.octets = sampleRequest ∧
      server.Accepts ∧ Awaiting server 0 header ping w ∧ pauses w.env.recvs < 2 ∧
      Upgrades 0 w.toHub (w.handshakePolls server 0 2).2.toHub ping := by
  intro server ping start finish recvs env w
  obtain ⟨header, octets⟩ : ∃ header : HeaderBlock server.lib server.subprotocols,
      header.octets = sampleRequest :=
    exists_headerBlock (by decide +kernel) (by decide +kernel) (by decide +kernel) (by decide +kernel)
  have reached : Reached server w := (Reached.listening env 3).ready (.ready 3) (by decide +kernel)
  have accepting : server.Accepts := by
    intro trace onHandshake registered
    cases registered
  have delivered : w.env.recvs = recvs := by decide +kernel
  have empty : w.buffer 0 = [] := by decide +kernel
  have awaiting : Awaiting server 0 header ping w := by
    refine ⟨⟨reached.settled, by decide +kernel, by decide +kernel, by decide +kernel,
      by decide +kernel⟩, ?_, ?_, ?_⟩
    · rw [octets, empty]
      decide +kernel
    · rw [octets, empty, delivered]
      decide +kernel
    · rw [delivered]
      simp [recvs, RecvResult.Unbroken]
  have enough : pauses w.env.recvs < 2 := by
    rw [delivered]
    decide
  have total : arrived header.octets.length (w.buffer 0).length w.env.recvs =
      (sampleRequest ++ ping).length := by
    rw [octets, empty, delivered]
    decide +kernel
  have upgrades := (handshake_upgrades_iff accepting awaiting enough).mpr (by
    rw [total]
    decide +kernel)
  rw [total, octets, List.take_length, List.drop_left] at upgrades
  exact ⟨header, octets, accepting, awaiting, enough, upgrades⟩

/-- The first line of a request, with a long target. -/
def longRequestLine : Bytes := ascii "GET /" ++ (List.replicate 3950 0x61 ++ ascii " HTTP/1.1")

/-- The header lines that the tests send. -/
def sampleLines : List Bytes :=
  [ascii "Host: localhost", ascii "Upgrade: websocket", ascii "Connection: Upgrade",
    ascii "Sec-WebSocket-Version: 13", ascii "Sec-WebSocket-Key: " ++ sampleKey]

def longHead : Bytes := crlf.intercalate (longRequestLine :: sampleLines)

theorem longHead_follows : UpgradeHead sampleLib longHead := by
  have asks : ∃ scan, scanLines sampleLib [] sampleLines { upgrade := {} } = some scan ∧
      scan.hasUpgrade = true ∧ scan.hasConnection = true ∧ scan.hasVersion = true ∧
      scan.upgrade.acceptKey.isSome = true :=
    ⟨_, (Option.some_get (by decide +kernel)).symm, by decide +kernel, by decide +kernel,
      by decide +kernel, by decide +kernel⟩
  obtain ⟨scan, read, flags⟩ := asks
  obtain ⟨headers, atHeaders, scanned⟩ := scanLines_eq_some.mp read
  have target (c : UInt8) (free : c ≠ 0x61) : c ∉ List.replicate 3950 (0x61 : UInt8) :=
    fun member => free (List.eq_of_mem_replicate member)
  refine ⟨longRequestLine, sampleLines, headers, rfl, ?_, ?_, atHeaders,
    (asksUpgrade_iff ⟨rfl, rfl, rfl, rfl⟩).mpr ⟨scan, scanned, flags⟩⟩
  · refine List.forall_mem_cons.mpr ⟨?_, by decide +kernel⟩
    rw [longRequestLine, List.mem_append, List.mem_append, not_or, not_or]
    exact ⟨by decide +kernel, target _ (by decide), by decide +kernel⟩
  · refine ⟨ascii "GET", 0x2f :: List.replicate 3950 0x61, ascii "HTTP/1.1", rfl, by decide +kernel,
      List.cons_ne_nil _ _, ?_, by decide +kernel⟩
    rw [List.mem_cons, not_or]
    exact ⟨by decide, target _ (by decide)⟩

theorem longHead_length : longHead.length = 4094 := by
  have start : (ascii "GET /").length = 5 := by decide +kernel
  have version : (ascii " HTTP/1.1").length = 9 := by decide +kernel
  have lines : (crlf ++ crlf.intercalate sampleLines).length = 130 := by decide +kernel
  rw [longHead, List.intercalate_cons_of_ne_nil (show sampleLines ≠ [] by decide), List.append_assoc,
    List.length_append, lines, longRequestLine, List.length_append, List.length_append,
    List.length_replicate, start, version]

/-- A request of 4098 octets. -/
def longRequest : Bytes := longHead ++ (crlf ++ crlf)

theorem longRequest_length : longRequest.length = 4098 := by
  rw [longRequest, List.length_append, longHead_length]
  rfl

/-- A Binary message that fills a chunk behind one octet. -/
def longMessage : Bytes := clientFrame ⟨0, 0, 0, 0⟩ (List.replicate 4087 0) opcodeBinary true

theorem longMessage_length : longMessage.length = 4095 := by
  have field : (lengthField true 4087).length = 3 := by decide +kernel
  rw [longMessage, length_clientFrame, List.length_replicate, field]

/-- A part of the request, with what comes behind it in the same chunk. -/
def longRequestChunk (start size : Nat) (behind : Bytes) (some_octet : 0 < size)
    (inside : start + size ≤ 4098) (fits : size + behind.length ≤ readChunkSize) : Chunk where
  octets := (longRequest.drop start).take size ++ behind
  nonempty := by
    have length : ((longRequest.drop start).take size).length = size := by
      rw [List.length_take, List.length_drop, longRequest_length]
      omega
    refine List.append_ne_nil_of_left_ne_nil (List.ne_nil_of_length_pos ?_) _
    rw [length]
    exact some_octet
  fits := by
    rw [List.length_append, List.length_take]
    omega

theorem longRequestChunk_length {start size : Nat} {behind : Bytes} (some_octet : 0 < size)
    (inside : start + size ≤ 4098) (fits : size + behind.length ≤ readChunkSize) :
    (longRequestChunk start size behind some_octet inside fits).octets.length =
      size + behind.length := by
  rw [longRequestChunk, List.length_append, List.length_take, List.length_drop, longRequest_length]
  omega

/-- The request in chunks of 4096, 1 and 1 octets, and the message behind it in the last. -/
def longRequestRecvs : List RecvResult :=
  [.data (longRequestChunk 0 4096 [] (by decide) (by decide) (by decide)),
    .data (longRequestChunk 4096 1 [] (by decide) (by decide) (by decide)),
    .data (longRequestChunk 4097 1 longMessage (by decide) (by decide)
      (by rw [longMessage_length]; decide))]

theorem longRequestRecvs_octets : octetsOf longRequestRecvs = longRequest ++ longMessage := by
  have last : (longRequest.drop 4097).take 1 = longRequest.drop 4097 :=
    List.take_of_length_le (by rw [List.length_drop, longRequest_length])
  have middle : (longRequest.drop 4096).take 1 ++ longRequest.drop 4097 = longRequest.drop 4096 := by
    rw [show 4097 = 4096 + 1 from rfl, ← List.drop_drop, List.take_append_drop]
  simp only [longRequestRecvs, octetsOf, longRequestChunk, List.drop_zero, List.append_nil, last]
  rw [← List.append_assoc _ _ longMessage, middle, ← List.append_assoc, List.take_append_drop]

/-- A request that is accepted is refused with 400, for the message that comes in the chunk
    with its last octet. -/
theorem pipelined_request_refused :
    let server : Server := { options := .array fun _ => none, lib := sampleLib }
    let env : Env := { accepts := [.client 5 none], recvs := longRequestRecvs }
    let w := ((World.listening env 3).processReady server (.ready 3)).2
    ∃ header : HeaderBlock server.lib server.subprotocols, header.octets = longRequest ∧
      server.Accepts ∧ Awaiting server 0 header longMessage w ∧ pauses w.env.recvs < 1 ∧
      TurnedAway 0 w.toHub (w.handshakePolls server 0 1).2.toHub ∧
      ∀ left, ¬ Upgrades 0 w.toHub (w.handshakePolls server 0 1).2.toHub left := by
  intro server env w
  obtain ⟨header, octets⟩ := @UpgradeHead.exists_headerBlock server.lib server.subprotocols _
    longHead_follows (by rw [longHead_length]; decide)
  have accepting : server.Accepts := by
    intro trace onHandshake registered
    cases registered
  have reached : Reached server w := (Reached.listening env 3).ready (.ready 3) rfl
  have delivered : w.env.recvs = longRequestRecvs := rfl
  have empty : w.buffer 0 = [] := rfl
  have awaiting : Awaiting server 0 header longMessage w := by
    refine ⟨⟨reached.settled, rfl, rfl, nofun, rfl⟩, ?_, ?_, ?_⟩
    · rw [empty, octets, List.length_nil, ← longRequest, longRequest_length]
      decide
    · rw [empty, octets, List.nil_append, delivered, longRequestRecvs_octets]
      rfl
    · rw [delivered]
      simp [longRequestRecvs, RecvResult.Unbroken]
  have total : arrived header.octets.length (w.buffer 0).length w.env.recvs = 8193 := by
    rw [octets, ← longRequest, longRequest_length, empty, delivered]
    simp only [longRequestRecvs, arrived, longRequestChunk_length, longMessage_length]
    rfl
  have outcome := awaiting.handshakePolls accepting longRequestRecvs delivered
    (show pauses longRequestRecvs < 1 by decide)
  rw [HandshakeEnd, ← delivered, total, if_neg (by decide)] at outcome
  exact ⟨header, octets, accepting, awaiting, by decide, outcome, fun _ => outcome.not_upgrades⟩

end PhpWebSocket
