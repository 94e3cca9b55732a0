import PhpWebSocket.CloseHandshake
import PhpWebSocket.Outbound
import PhpWebSocket.Reclaim
import PhpWebSocket.Waits

/-! # Run after run

A script can call `run` again when it has returned, on the same server or on another one. What
is left between two runs is the driver, the numbers of the connections, and the connection
objects that user code has kept. Nothing of it is in the way of the next run, and the next
run leaves the old connections alone.
-/

namespace PhpWebSocket

open Relation

/-! ## `run` -/

/-- `WEBSOCKET_G(driver)`, or the driver that `websocket_select_best_driver` finds and
    initializes. -/
def World.chosen (w : World) (best : Option String) : Option Driver :=
  match w.env.driver with
  | some d => some d
  | none => best.map fun name => { name }

/-- What `WebSocket_Server::run` sets. -/
def World.begun (w : World) (d : Driver) : World :=
  { w with running := true, stopped := false, env := { w.env with driver := some d } }

/-- What it resets. -/
def World.RunResult.ended : World.RunResult → World.RunResult
  | .waiting w => .waiting w
  | .returned ok w => .returned ok { w with running := false }

/-- `WebSocket_Server::run`, outside of any other run. -/
def World.run (server : Server) (listening : Bool) (best : Option String) (waits : List WaitResult)
    (w : World) : World.RunResult :=
  if !listening then
    .returned false
      { w with toHub := w.raise (.error "Cannot run WebSocket server before listen()") }
  else
    match w.chosen best with
    | none =>
        .returned false { w with toHub := w.raise (.error "No suitable I/O driver available") }
    | some d => ((w.begun d).runtimeRun server waits).ended

/-- The world at the start of a request. -/
def World.request (env : Env) : World :=
  { running := false, env := { env with driver := none, exception := none } }

/-- `accept` returns no descriptor that is open, in a run that begins here. -/
def World.Unused (server : Server) (best : Option String) (waits : List WaitResult) (w : World) :
    Prop :=
  ∀ d fd, w.chosen best = some d → w.env.listener = .ok fd →
    ((w.begun d).listens fd).RunUnused server waits

/-- What a script does outside of the callbacks. -/
inductive ScriptStep : World → World → Prop
  | perform (w : World) (c : ApiCall) : ScriptStep w { w with toHub := (w.perform c).2 }
  /-- An exception is caught, and the rest of the world goes on. -/
  | resume (w : World) (env : Env) :
      ScriptStep w { w with env := { env with driver := w.env.driver, exception := none } }
  | run {w after : World} {server : Server} {listening ok : Bool} {best : Option String}
      {waits : List WaitResult} (unused : w.Unused server best waits)
      (returned : w.run server listening best waits = .returned ok after) : ScriptStep w after

def ScriptSteps : World → World → Prop := ReflTransGen ScriptStep

/-! ## Connections that are gone -/

/-- A connection that is not reopened, gets no descriptor, and once closed sends nothing. -/
structure Connection.Wanes (a b : Connection) : Prop where
  isOpen : b.isOpen = true → a.isOpen = true
  fd : a.fd = none → b.fd = none
  wire : a.isOpen = false → b.wire = a.wire

theorem Connection.Wanes.refl (a : Connection) : a.Wanes a := ⟨id, id, fun _ => rfl⟩

theorem Connection.Wanes.shut {a b : Connection} (wanes : a.Wanes b) (closed : a.isOpen = false) :
    b.isOpen = false :=
  Bool.eq_false_iff.mpr fun opened => Bool.false_ne_true (closed.symm.trans (wanes.isOpen opened))

theorem Connection.Wanes.trans {a b c : Connection} (first : a.Wanes b) (next : b.Wanes c) :
    a.Wanes c where
  isOpen opened := first.isOpen (next.isOpen opened)
  fd gone := next.fd (first.fd gone)
  wire closed := (next.wire (first.shut closed)).trans (first.wire closed)

namespace Link

theorem closeSocket_wanes (link : Link) : link.conn.Wanes link.closeSocket.conn :=
  ⟨fun opened => absurd opened Bool.false_ne_true, fun _ => rfl, fun _ => rfl⟩

theorem closeAfterWrite_wanes (link : Link) : link.conn.Wanes link.closeAfterWrite.conn := by
  unfold closeAfterWrite
  split
  · exact .refl _
  · split
    · exact link.closeSocket_wanes
    · exact ⟨id, id, fun _ => rfl⟩

theorem flush_refused {link : Link} (gone : link.conn.isOpen = false ∨ link.conn.fd = none) :
    link.flush = (false, link) := by
  apply if_pos
  rcases gone with closed | none
  · rw [closed]
    rfl
  · rw [none, Option.isNone_none, Bool.or_true]

theorem flush_wanes (link : Link) : link.conn.Wanes link.flush.2.conn where
  isOpen := (Link.flush_keeps link).conn.isOpen
  fd gone := by rw [flush_refused (.inr gone), gone]
  wire closed := by rw [flush_refused (.inl closed)]

theorem sendFrame_wanes (link : Link) (payload : Bytes) (opcode : UInt8) :
    link.conn.Wanes (link.sendFrame payload opcode).2.conn where
  isOpen := (Link.sendFrame_keeps link payload opcode).conn.isOpen
  fd gone := (congrArg Connection.fd (link.sendFrame_unwritten payload opcode)).trans gone
  wire closed := by
    rw [sendFrame_refused fun reading => Bool.false_ne_true (closed.symm.trans reading.1)]

end Link

theorem Hub.relink_wanes (h : Hub) {i j : ConnId} {link : Link}
    (wanes : (h.conn j).Wanes link.conn) : (h.conn i).Wanes ((h.relink j link).conn i) := by
  by_cases same : i = j
  · subst same
    rw [Hub.conn_relink]
    exact wanes
  · rw [h.conn_relink_of_ne same]
    exact .refl _

theorem Hub.setConn_wanes (h : Hub) {i j : ConnId} {conn : Connection}
    (wanes : (h.conn j).Wanes conn) : (h.conn i).Wanes ((h.setConn j conn).conn i) := by
  have linked : (h.conn i).Wanes ((h.relink j ⟨conn, h.env⟩).conn i) := h.relink_wanes wanes
  exact linked

section

variable {most : Nat} {served : ConnId → Prop} {before h h' : Hub} {i : ConnId}

theorem Deed.wanes (deed : Deed most served h h') (i : ConnId) : (h.conn i).Wanes (h'.conn i) := by
  cases deed with
  | mark j mark own =>
      apply h.setConn_wanes
      cases mark with
      | shut => exact ⟨fun opened => absurd opened Bool.false_ne_true, id, fun _ => rfl⟩
      | fragment | pong | notified | defer => exact ⟨id, id, fun _ => rfl⟩
  | closeSocket j => exact h.relink_wanes (h.link j).closeSocket_wanes
  | closeAfterWrite j => exact h.relink_wanes (h.link j).closeAfterWrite_wanes
  | flush j => exact h.relink_wanes (h.link j).flush_wanes
  | @frame j source payload opcode valid =>
      have sent : (h.conn i).Wanes ((h.relink j ((h.link j).sendFrame payload opcode).2).conn i) :=
        h.relink_wanes ((h.link j).sendFrame_wanes _ _)
      simp only [Hub.sendFrame]
      split <;> exact sent
  | respond | emit | raise | seen | stop => exact .refl _

theorem Deeds.wanes (deeds : Deeds most served h h') (i : ConnId) :
    (h.conn i).Wanes (h'.conn i) := by
  induction deeds with
  | refl => exact .refl _
  | tail _ deed ih => exact ih.trans (deed.wanes i)

theorem Deed.sent (deed : Deed most served h h') (closed : (h.conn i).isOpen = false) :
    h'.trace.sent i = h.trace.sent i := by
  cases deed with
  | @frame j source payload opcode valid =>
      by_cases same : j = i
      · subst same
        rw [Hub.sendFrame_refused fun reading => Bool.false_ne_true (closed.symm.trans reading.1)]
      · simp only [Hub.sendFrame]
        split
        · have other : Trace.sent [.frame j source opcode payload] i = [] := by
            simp [Trace.sent, Event.sentTo, same]
          exact (Trace.sent_append ..).trans (by rw [other, List.append_nil]; rfl)
        · rfl
  | emit other => exact h.emit_sent other i
  | mark | closeSocket | closeAfterWrite | flush | respond | raise | seen | stop => rfl

/-- Since `before`, the connection has been closed, and nothing has been sent on it. -/
structure Hub.Spent (before h : Hub) (i : ConnId) : Prop where
  isOpen : (h.conn i).isOpen = false
  fd : (h.conn i).fd = none
  wire : (h.conn i).wire = (before.conn i).wire
  sent : h.trace.sent i = before.trace.sent i

namespace Hub.Spent

theorem wanes (spent : before.Spent h i) (wanes : (h.conn i).Wanes (h'.conn i))
    (sent : h'.trace.sent i = h.trace.sent i) : before.Spent h' i :=
  ⟨wanes.shut spent.isOpen, wanes.fd spent.fd, (wanes.wire spent.isOpen).trans spent.wire,
    sent.trans spent.sent⟩

theorem of_same (spent : before.Spent h i) (conn : h'.conn i = h.conn i)
    (sent : h'.trace.sent i = h.trace.sent i) : before.Spent h' i := by
  apply spent.wanes _ sent
  rw [conn]
  exact .refl _

theorem emit (spent : before.Spent h i) {e : Event} (other : e.isFrame = false) :
    before.Spent (h.emit e) i :=
  spent.of_same rfl (h.emit_sent other i)

theorem deed (spent : before.Spent h i) (deed : Deed most served h h') : before.Spent h' i :=
  spent.wanes (deed.wanes i) (deed.sent spent.isOpen)

theorem deeds (spent : before.Spent h i) (deeds : Deeds most served h h') : before.Spent h' i := by
  induction deeds with
  | refl => exact spent
  | tail _ deed ih => exact ih.deed deed

end Hub.Spent

end

section

variable {server : Server} {served : ConnId → Prop} {before : Hub} {w w' : World} {i : ConnId}

theorem Hub.Spent.openConnection (spent : before.Spent w.toHub i) (born : i < w.nextConnectionId)
    (fd : Nat) : before.Spent (w.openConnection server fd).2.toHub i := by
  have conn : (w.openConnection server fd).2.conn i = w.conn i :=
    ((World.openConnection_admits w fd).old i born).1
  apply spent.of_same conn
  cases watched : (w.env.now.2.watchRead fd).1 with
  | true =>
      rw [World.openConnection_watched watched]
      have accepted : Trace.sent [.accepted w.nextConnectionId] i = [] := rfl
      exact (Trace.sent_append ..).trans (by rw [accepted, List.append_nil]; rfl)
  | false =>
      rw [World.openConnection_unwatched watched]
      rfl

theorem Effect.spent (effect : Effect server served w w') (spent : before.Spent w.toHub i)
    (born : i < w.nextConnectionId) : before.Spent w'.toHub i := by
  have marked {j : ConnId} {conn : Connection} (isOpen : conn.isOpen = (w.conn j).isOpen)
      (fd : conn.fd = (w.conn j).fd) (wire : conn.wire = (w.conn j).wire) :
      before.Spent (w.setConn j conn) i :=
    spent.wanes (w.setConn_wanes ⟨isOpen.symm.trans, fd.trans, fun _ => wire⟩) rfl
  cases effect with
  | deed deed => exact spent.deed deed
  | stamp | beat | upgrade => exact marked rfl rfl rfl
  | approve _ _ told => exact (spent.deeds told).emit rfl
  | admission fd => exact spent.openConnection born fd
  | @remove index j h here told =>
      have shut : Deed 0 served w.toHub (w.shut j) := w.shut_deed j
      have gone : before.Spent { w.shutDown j with connections := w.connections.eraseIdx index } i :=
        (spent.deed shut).of_same rfl rfl
      have closed : Deed 0 served h (h.closeSocket j) := .closeSocket h j
      exact (gone.deeds told).deed closed
  | unlisten =>
      simp only [Hub.unlistened]
      split
      · exact spent
      · exact spent.of_same rfl rfl
  | answered | fill | discard | listen => exact spent.of_same rfl rfl

theorem Effects.spent (effects : Effects server served w w') (spent : before.Spent w.toHub i)
    (born : i < w.nextConnectionId) : before.Spent w'.toHub i := by
  induction effects with
  | refl => exact spent
  | tail first effect ih =>
      exact effect.spent ih (Nat.lt_of_lt_of_le born (Effects.next_le first))

end

/-! ## What a run leaves -/

/-- A connection that has a descriptor is in the table. -/
def World.Owned (w : World) : Prop := ∀ i, (w.conn i).fd ≠ none → i ∈ w.connections

section

variable {server : Server} {served : ConnId → Prop} {w w' : World}

namespace World.Owned

theorem wanes (owned : w.Owned) (wanes : ∀ i, (w.conn i).Wanes (w'.conn i))
    (connections : w'.connections = w.connections) : w'.Owned := by
  intro i holds
  rw [connections]
  exact owned i fun gone => holds ((wanes i).fd gone)

theorem marked (owned : w.Owned) (i : ConnId) {conn : Connection} (wanes : (w.conn i).Wanes conn) :
    World.Owned { w with toHub := w.setConn i conn } :=
  owned.wanes (fun _ => w.setConn_wanes wanes) rfl

theorem openConnection (owned : w.Owned) (fd : Nat) : (w.openConnection server fd).2.Owned := by
  intro i holds
  by_cases same : i = w.nextConnectionId
  · subst same
    cases watched : (w.env.now.2.watchRead fd).1 with
    | true =>
        rw [World.openConnection_watched watched]
        exact List.mem_append_right _ (List.mem_singleton_self _)
    | false =>
        rw [World.openConnection_unwatched watched] at holds
        have gone : (((w.newcomer server fd).closeSocket w.nextConnectionId).conn
            w.nextConnectionId).fd = none := by
          rw [Hub.closeSocket, Hub.conn_relink]
          rfl
        exact absurd gone holds
  · rw [World.openConnection_elsewhere fd same] at holds
    exact World.openConnection_table fd (owned i holds)

theorem remove (owned : w.Owned) {index : Nat} {i : ConnId} {h : Hub}
    (here : w.connections[index]? = some i)
    (told : Deeds server.options.maxMessageSize served
      { w.shutDown i with connections := w.connections.eraseIdx index } h) :
    World.Owned { w with toHub := h.closeSocket i } := by
  intro j holds
  have shut : Deed 0 served w.toHub (w.shut i) := w.shut_deed i
  have wanes : (w.conn j).Wanes (h.conn j) := (shut.wanes j).trans (told.wanes j)
  have closed : Deed 0 served h (h.closeSocket i) := .closeSocket h i
  have other : j ≠ i := by
    rintro rfl
    apply holds
    change ((h.closeSocket j).conn j).fd = none
    rw [Hub.closeSocket, Hub.conn_relink]
    rfl
  apply World.remove_table here told other
  exact owned j fun gone => holds ((wanes.trans (closed.wanes j)).fd gone)

theorem effect (effect : Effect server served w w') (owned : w.Owned) : w'.Owned := by
  cases effect with
  | deed deed => exact owned.wanes deed.wanes deed.connections
  | stamp | beat | upgrade => exact owned.marked _ ⟨id, id, fun _ => rfl⟩
  | approve _ _ told => exact owned.wanes told.wanes told.connections
  | admission fd => exact owned.openConnection fd
  | remove here told => exact owned.remove here told
  | unlisten =>
      simp only [Hub.unlistened]
      split <;> exact owned
  | answered | fill | discard | listen => exact owned

end World.Owned

end

section

variable {most : Nat} {served : ConnId → Prop} {h h' : Hub}

theorem Deed.listenerFd (deed : Deed most served h h') : h'.listenerFd = h.listenerFd := by
  cases deed with
  | @frame i source payload opcode valid =>
      simp only [Hub.sendFrame]
      split <;> rfl
  | _ => rfl

theorem Deeds.listenerFd (deeds : Deeds most served h h') : h'.listenerFd = h.listenerFd := by
  induction deeds with
  | refl => rfl
  | tail _ deed ih => exact deed.listenerFd.trans ih

variable (server : Server)

theorem Hub.closeConnectionAt_listenerFd (h : Hub) (index : Nat) (notify : Bool) :
    (h.closeConnectionAt server index notify).2.listenerFd = h.listenerFd := by
  simp only [Hub.closeConnectionAt]
  split
  · rfl
  · split
    · have told {h : Hub} (i : ConnId) :
          Deeds 0 (fun _ => True) h (h.notifyConnectionClosed server i).2 :=
        h.notifyConnectionClosed_deeds server i
      exact (told _).listenerFd
    · rfl

theorem Hub.closeAllFrom_listenerFd (h : Hub) (fuel : Nat) (notify : Bool) :
    (h.closeAllFrom server fuel notify).2.listenerFd = h.listenerFd := by
  induction fuel generalizing h with
  | zero => rfl
  | succ fuel ih =>
      have closed := h.closeConnectionAt_listenerFd server (h.connections.length - 1) notify
      simp only [Hub.closeAllFrom]
      split
      · rfl
      · split
        · exact (ih _).trans closed
        · exact closed

theorem Hub.runtimeClose_listenerFd (h : Hub) (notify : Bool) :
    (h.runtimeClose server notify).listenerFd = none := by
  have unlistened : h.unlistened.listenerFd = none := by
    unfold Hub.unlistened
    split
    · assumption
    · rfl
  have closed : (h.unlistened.closeAllConnections server notify).2.listenerFd = none :=
    (Hub.closeAllFrom_listenerFd server _ _ notify).trans unlistened
  rw [Hub.runtimeClose_eq]
  dsimp only
  split
  · exact closed
  · exact (Hub.closeAllFrom_listenerFd server _ _ false).trans closed

/-- Nothing is watched for connections that are gone. -/
theorem Deed.driver (deed : Deed most served h h')
    (gone : ∀ i, (h.conn i).isOpen = false ∧ (h.conn i).fd = none) :
    h'.env.driver = h.env.driver := by
  cases deed with
  | closeSocket i =>
      change (h.link i).closeSocket.env.driver = _
      have none : (h.link i).conn.fd = none := (gone i).2
      simp only [Link.closeSocket, none]
      rfl
  | closeAfterWrite i =>
      have closed : (h.link i).conn.isOpen = false := (gone i).1
      change (h.link i).closeAfterWrite.env.driver = _
      simp only [Link.closeAfterWrite, closed]
      rfl
  | flush i =>
      change (h.link i).flush.2.env.driver = _
      rw [Link.flush_refused (.inl (gone i).1)]
      rfl
  | @frame i source payload opcode valid =>
      rw [Hub.sendFrame_refused fun reading => Bool.false_ne_true ((gone i).1.symm.trans reading.1)]
  | respond => exact Tidy.sendBytes_driver _ _ _
  | mark | emit | raise | seen | stop => rfl

end

/-- No run is going on: as when a server is `Idle`, but the driver may not be there yet. -/
structure World.Rested (w : World) : Prop where
  connections : w.connections = []
  listener : w.listenerFd = none
  closed : ∀ i, (w.conn i).isOpen = false ∧ (w.conn i).fd = none
  driver : ∀ d, w.env.driver = some d → (∀ n, d.reads n = false) ∧ ∀ n, d.writes n = false

section

variable {server : Server} {w w' after : World} {waits : List WaitResult} {ok : Bool}

namespace World

theorem runtimeRun_unlistened (unlistened : w.listenerFd = none)
    (returned : w.runtimeRun server waits = .returned ok after) : after.listenerFd = none := by
  unfold runtimeRun at returned
  cases listener : w.env.listener with
  | error e =>
      simp only [listener] at returned
      cases returned
      exact unlistened
  | ok fd =>
      simp only [listener] at returned
      split at returned
      · cases returned
        exact Hub.runtimeClose_listenerFd server _ _
      · split at returned
        · cases returned
        · cases returned
          exact Hub.runtimeClose_listenerFd server _ _

theorem effects_of_run {r : RunResult} (ran : w.runtimeRun server waits = r) :
    Effects server (fun _ => True) w r.world := by
  rw [← ran]
  exact w.runtimeRun_effects server (fun _ => trivial) waits

/-- A run that has returned leaves the server as it found it, for the next one. -/
theorem runtimeRun_idle (idle : Idle w.toHub)
    (unused : ∀ fd, w.env.listener = .ok fd → (w.listens fd).RunUnused server waits)
    (returned : w.runtimeRun server waits = .returned ok after) : Idle after.toHub := by
  have agrees := runtimeRun_agrees idle False.elim waits unused
  have effects : Effects server (fun _ => True) w after := effects_of_run returned
  rw [returned] at agrees
  obtain ⟨empty, d, own, -, unwatched⟩ := agrees
  have rooted : w.Rooted := fun i opened =>
    absurd ((idle.closed i).1.symm.trans opened) Bool.false_ne_true
  have owned : w.Owned := fun i holds => absurd (idle.closed i).2 holds
  have nobody (i : ConnId) : i ∉ after.connections := by
    rw [empty]
    exact List.not_mem_nil
  have owners : after.Owned := effects.invariant Owned.effect owned
  refine ⟨empty, runtimeRun_unlistened idle.listener returned, fun i => ⟨?_, ?_⟩, d, own, unwatched⟩
  · exact Bool.eq_false_iff.mpr fun opened => nobody i ((Rooted.effects effects rooted) i opened).1
  · by_contra holds
    exact nobody i (owners i holds)

namespace RunResult

def isWaiting : RunResult → Bool
  | .waiting _ => true
  | .returned _ _ => false

theorem eq_waiting {r : RunResult} (waits : r.isWaiting = true) : r = .waiting r.world := by
  cases r with
  | waiting w => rfl
  | returned ok w => cases waits

theorem ended_returned {r : RunResult} (returned : r.ended = .returned ok after) :
    ∃ w, r = .returned ok w ∧ after = { w with running := false } := by
  cases r with
  | waiting w => cases returned
  | returned ok w =>
      cases returned
      exact ⟨w, rfl, rfl⟩

theorem ended_waiting {r : RunResult} (waiting : r.ended = .waiting after) : r = .waiting after := by
  cases r with
  | waiting w => exact waiting
  | returned ok w => cases waiting

theorem eq_returned {r : RunResult} (left : r.isWaiting = false) : ∃ ok, r = .returned ok r.world := by
  cases r with
  | waiting w => cases left
  | returned ok w => exact ⟨ok, rfl⟩

end RunResult

variable {listening : Bool} {best : Option String}

/-- How `run` returns: it has been refused, or it has run. -/
theorem run_returned (returned : w.run server listening best waits = .returned ok after) :
    (∃ e, after = { w with toHub := w.raise e }) ∨
      ∃ d left, w.chosen best = some d ∧ (w.begun d).runtimeRun server waits = .returned ok left ∧
        after = { left with running := false } := by
  unfold run at returned
  split at returned
  · cases returned
    exact .inl ⟨_, rfl⟩
  · split at returned
    · cases returned
      exact .inl ⟨_, rfl⟩
    · rename_i d chosen
      obtain ⟨left, ran, same⟩ := RunResult.ended_returned returned
      exact .inr ⟨d, left, chosen, ran, same⟩

theorem run_waiting (waiting : w.run server listening best waits = .waiting after) :
    ∃ d, w.chosen best = some d ∧ (w.begun d).runtimeRun server waits = .waiting after := by
  unfold run at waiting
  split at waiting
  · cases waiting
  · split at waiting
    · cases waiting
    · rename_i d chosen
      exact ⟨d, chosen, RunResult.ended_waiting waiting⟩

namespace Rested

theorem request (env : Env) : (World.request env).Rested :=
  ⟨rfl, rfl, fun _ => ⟨rfl, rfl⟩, fun _ none => by cases none⟩

theorem of_idle (idle : Idle w.toHub) : w.Rested := by
  obtain ⟨d, driver, nothing⟩ := idle.driver
  refine ⟨idle.connections, idle.listener, idle.closed, fun other same => ?_⟩
  cases driver.symm.trans same
  exact nothing

theorem idle (rested : w.Rested) {d : Driver} (chosen : w.chosen best = some d) :
    Idle (w.begun d).toHub := by
  refine ⟨rested.connections, rested.listener, rested.closed, d, rfl, ?_⟩
  unfold World.chosen at chosen
  split at chosen
  · rename_i driver
    cases chosen
    exact rested.driver d driver
  · obtain ⟨name, -, rfl⟩ := Option.map_eq_some_iff.mp chosen
    exact ⟨fun _ => rfl, fun _ => rfl⟩

theorem deeds_driver {served : ConnId → Prop} {most : Nat} {h : Hub} (rested : w.Rested)
    (deeds : Deeds most served w.toHub h) : h.env.driver = w.env.driver := by
  induction deeds with
  | refl => rfl
  | tail first deed ih =>
      have gone (i : ConnId) := Deeds.wanes first i
      refine (deed.driver fun i => ?_).trans ih
      exact ⟨(gone i).shut (rested.closed i).1, (gone i).fd (rested.closed i).2⟩

theorem deeds {served : ConnId → Prop} {most : Nat} {h : Hub} (rested : w.Rested)
    (deeds : Deeds most served w.toHub h) : World.Rested { w with toHub := h } := by
  have closed : ∀ i, (h.conn i).isOpen = false ∧ (h.conn i).fd = none := fun i =>
    ⟨(deeds.wanes i).shut (rested.closed i).1, (deeds.wanes i).fd (rested.closed i).2⟩
  refine ⟨deeds.connections.trans rested.connections, deeds.listenerFd.trans rested.listener,
    closed, ?_⟩
  change ∀ d, h.env.driver = some d → _
  rw [rested.deeds_driver deeds]
  exact rested.driver

end Rested

end World

namespace ScriptStep

theorem rested (step : ScriptStep w w') (rested : w.Rested) : w'.Rested := by
  cases step with
  | perform c =>
      have performed : Deeds 0 (fun _ => True) w.toHub (w.perform c).2 := w.perform_deeds c
      exact rested.deeds performed
  | resume env => exact ⟨rested.connections, rested.listener, rested.closed, rested.driver⟩
  | run unused returned =>
      rcases World.run_returned returned with ⟨e, rfl⟩ | ⟨d, left, chosen, ran, rfl⟩
      · exact ⟨rested.connections, rested.listener, rested.closed, rested.driver⟩
      · have idle := World.runtimeRun_idle (rested.idle chosen) (fun fd => unused d fd chosen) ran
        have left := World.Rested.of_idle idle
        exact ⟨left.connections, left.listener, left.closed, left.driver⟩

/-- A connection that is gone stays so, in a later run too. -/
theorem spent (step : ScriptStep w w') {before : Hub} {i : ConnId} (born : i < w.nextConnectionId)
    (spent : before.Spent w.toHub i) : i < w'.nextConnectionId ∧ before.Spent w'.toHub i := by
  cases step with
  | perform c =>
      have performed : Deeds 0 (fun _ => True) w.toHub (w.perform c).2 := w.perform_deeds c
      exact ⟨performed.ops.steady.next ▸ born, spent.deeds performed⟩
  | resume env => exact ⟨born, spent.of_same rfl rfl⟩
  | @run _ server _ _ _ waits unused returned =>
      rcases World.run_returned returned with ⟨e, rfl⟩ | ⟨d, left, chosen, ran, rfl⟩
      · exact ⟨born, spent.of_same rfl rfl⟩
      · have effects : Effects server (fun _ => True) (w.begun d) left := World.effects_of_run ran
        have begun : before.Spent (w.begun d).toHub i := spent.of_same rfl rfl
        exact ⟨Nat.lt_of_lt_of_le born effects.next_le, (effects.spent begun born).of_same rfl rfl⟩

end ScriptStep

namespace ScriptSteps

theorem rested (steps : ScriptSteps w w') (rested : w.Rested) : w'.Rested := by
  induction steps with
  | refl => exact rested
  | tail _ step ih => exact step.rested ih

theorem spent (steps : ScriptSteps w w') {before : Hub} {i : ConnId} (born : i < w.nextConnectionId)
    (spent : before.Spent w.toHub i) : i < w'.nextConnectionId ∧ before.Spent w'.toHub i := by
  induction steps with
  | refl => exact ⟨born, spent⟩
  | tail _ step ih => exact step.spent ih.1 ih.2

end ScriptSteps

/-! ## What a run serves -/

/-- All connections in the table are numbered from `n` on. -/
structure World.Newer (n : Nat) (w : World) : Prop where
  next : n ≤ w.nextConnectionId
  table : ∀ i ∈ w.connections, n ≤ i

theorem Effect.newer {served : ConnId → Prop} {n : Nat} (effect : Effect server served w w')
    (newer : w.Newer n) : w'.Newer n := by
  refine ⟨newer.next.trans effect.next_le, fun i mem => ?_⟩
  cases effect with
  | deed deed => exact newer.table i (deed.connections ▸ mem)
  | approve _ _ told => exact newer.table i (told.connections ▸ mem)
  | admission fd =>
      simp only [World.openConnection] at mem
      split at mem
      · exact newer.table i mem
      · rcases List.mem_append.mp mem with old | new
        · exact newer.table i old
        · exact (List.mem_singleton.mp new).symm ▸ newer.next
  | @remove index j h here told =>
      have table : (h.closeSocket j).connections = w.connections.eraseIdx index := told.connections
      exact newer.table i (List.mem_of_mem_eraseIdx (table ▸ mem))
  | unlisten =>
      simp only [Hub.unlistened] at mem
      split at mem <;> exact newer.table i mem
  | stamp | beat | upgrade | answered | fill | discard | listen => exact newer.table i mem

theorem World.Rested.newer (rested : w.Rested) : w.Newer w.nextConnectionId := by
  refine ⟨le_rfl, fun i mem => ?_⟩
  rw [rested.connections] at mem
  exact absurd mem List.not_mem_nil

end

/-- In every request, whatever a script does between its runs: once a run has returned, nothing
    is listed, open or watched; no later run serves a connection of an earlier one or sends on it;
    and while a run waits, its connections, its descriptors and the driver agree as in a first
    run. -/
theorem runs_take_turns (env : Env) {w later : World} (first : ScriptSteps (World.request env) w)
    (steps : ScriptSteps w later) :
    later.Rested ∧ (∀ i < w.nextConnectionId, i < later.nextConnectionId ∧ w.toHub.Spent later.toHub i) ∧
      ∀ server listening best waits after, later.Unused server best waits →
        later.run server listening best waits = .waiting after →
        (∃ fd, later.env.listener = .ok fd ∧ DescriptorsAgree server fd after.toHub) ∧
          ∀ i, (i < later.nextConnectionId → later.toHub.Spent after.toHub i) ∧
            (i ∈ after.connections → later.nextConnectionId ≤ i) := by
  have here : w.Rested := first.rested (.request env)
  have there : later.Rested := steps.rested here
  refine ⟨there, fun i born => ?_, ?_⟩
  · exact steps.spent born ⟨(here.closed i).1, (here.closed i).2, rfl, rfl⟩
  · intro server listening best waits after unused waiting
    obtain ⟨d, chosen, ran⟩ := World.run_waiting waiting
    have effects : Effects server (fun _ => True) (later.begun d) after :=
      World.effects_of_run ran
    have agrees := runtimeRun_agrees (there.idle chosen) False.elim waits fun fd => unused d fd chosen
    rw [ran] at agrees
    obtain ⟨fd, listening, tidy⟩ := agrees
    refine ⟨⟨fd, listening, tidy.agree⟩, fun i => ⟨?_, ?_⟩⟩
    · intro born
      have begun : later.toHub.Spent (later.begun d).toHub i :=
        ⟨(there.closed i).1, (there.closed i).2, rfl, rfl⟩
      exact effects.spent begun born
    · have begun : (later.begun d).Newer later.nextConnectionId := ⟨le_rfl, there.newer.table⟩
      exact (effects.invariant (fun effect => effect.newer) begun).table i

theorem World.runUnused_failures {server : Server} (errors : List Errno) (w : World) :
    w.RunUnused server (errors.map .failed) := by
  induction errors generalizing w with
  | nil => trivial
  | cons e rest ih => exact fun _ => ⟨fun _ same => (by cases same), fun _ => ih _⟩

theorem World.Rested.unused {server : Server} {best : Option String} {w : World} (rested : w.Rested)
    {listener fd : Nat} (other : listener ≠ fd) (listening : w.env.listener = .ok listener)
    (accepts : w.env.accepts = [.client fd none]) (errors : List Errno) :
    w.Unused server best (.ready listener :: errors.map .failed) := by
  intro d own _ same
  cases listening.symm.trans same
  intro _
  refine ⟨fun _ _ _ => ?_, fun _ => World.runUnused_failures errors _⟩
  have begun : ((w.begun d).listens listener).env.accepts = w.env.accepts := by
    simp only [World.listens, World.begun, Env.watchRead]
    split <;> rfl
  rw [begun, accepts]
  refine fun _ => ⟨⟨fun same => other (Option.some.inj same), fun i own => ?_⟩, fun _ => trivial, ?_⟩
  · have gone : (w.conn i).fd = none := (rested.closed i).2
    exact Option.some_ne_none fd (own.symm.trans gone)
  · intro _ _ _
    exact trivial

/-- The first run ends with an error of the driver; in the second one, the connection has another
    number and the same descriptor. -/
theorem runs_take_turns_twice :
    let server : Server := { options := .array fun _ => none, lib := sampleLib }
    let env : Env := { accepts := [.client 5 none] }
    let left := ((World.request env).run server true (some "poll") [.ready 3, .failed .ebadf]).world
    let later : World :=
      { left with env := { env with driver := left.env.driver, exception := none } }
    let after := (later.run server true none [.ready 3]).world
    left.nextConnectionId = 1 ∧ after.connections = [1] ∧ (after.conn 1).fd = some 5 ∧
      left.toHub.Spent later.toHub 0 ∧ later.toHub.Spent after.toHub 0 := by
  intro server env left later after
  have unused : (World.request env).Unused server (some "poll") [.ready 3, .failed .ebadf] :=
    World.Rested.unused (.request env) (by decide) rfl rfl [.ebadf]
  obtain ⟨ok, returned⟩ : ∃ ok, (World.request env).run server true (some "poll")
      [.ready 3, .failed .ebadf] = .returned ok left :=
    World.RunResult.eq_returned (by decide +kernel)
  have first : ScriptSteps (World.request env) left := .single (.run unused returned)
  have steps : ScriptSteps left later := .single (.resume left env)
  have rested : later.Rested := ScriptSteps.rested (first.trans steps) (.request env)
  have again : later.Unused server none [.ready 3] := rested.unused (by decide) rfl rfl []
  have waiting : later.run server true none [.ready 3] = .waiting after :=
    World.RunResult.eq_waiting (by decide +kernel)
  obtain ⟨-, old, waits⟩ := runs_take_turns env first steps
  have born : left.nextConnectionId = 1 := by decide +kernel
  have zero : 0 < left.nextConnectionId := born ▸ Nat.zero_lt_one
  obtain ⟨-, gone⟩ := waits server true none [.ready 3] after again waiting
  refine ⟨born, by decide +kernel, by decide +kernel, (old 0 zero).2, ?_⟩
  exact (gone 0).1 (old 0 zero).1

/-! ## What `poll` reports -/

/-- The driver waits for what its calls have left. -/
def World.Recorded (w : World) : Prop := ∀ d, w.env.driver = some d → d.Recorded

section

variable {server : Server} {w w' : World} {best : Option String} {waits : List WaitResult}

theorem World.Recorded.chosen (recorded : w.Recorded) {d : Driver} (chosen : w.chosen best = some d) :
    (w.begun d).Recorded := by
  rintro _ ⟨⟩
  unfold World.chosen at chosen
  split at chosen
  · rename_i driver
    cases chosen
    exact recorded d driver
  · obtain ⟨name, -, rfl⟩ := Option.map_eq_some_iff.mp chosen
    exact ⟨0, trivial, rfl, rfl⟩

theorem ScriptStep.recorded (step : ScriptStep w w') (rested : w.Rested) (recorded : w.Recorded) :
    w'.Recorded := by
  cases step with
  | perform c =>
      have performed : Deeds 0 (fun _ => True) w.toHub (w.perform c).2 := w.perform_deeds c
      change ∀ d, (w.perform c).2.env.driver = some d → d.Recorded
      rw [rested.deeds_driver performed]
      exact recorded
  | resume env => exact recorded
  | run unused returned =>
      rcases World.run_returned returned with ⟨e, rfl⟩ | ⟨d, left, chosen, ran, rfl⟩
      · exact recorded
      · have agrees := runtimeRun_agrees (rested.idle chosen) (fun _ : True => recorded.chosen chosen)
          _ fun fd => unused d fd chosen
        rw [ran] at agrees
        obtain ⟨-, last, driver, kept, -⟩ := agrees
        intro other same
        cases driver.symm.trans same
        exact kept trivial

theorem ScriptSteps.recorded (steps : ScriptSteps w w') (rested : w.Rested)
    (recorded : w.Recorded) : w'.Recorded := by
  induction steps with
  | refl => exact recorded
  | tail first step ih => exact step.recorded (ScriptSteps.rested first rested) ih

end

/-- In every run of a request, the table that the calls of `poll` have left reports, whenever the
    server waits, the listener or the descriptor of exactly one connection of the server, and
    nothing only where there is nothing to be done on any of them. -/
theorem reports_known (env : Env) {later after : World}
    (steps : ScriptSteps (World.request env) later) {server : Server} {listening : Bool}
    {best : Option String} {waits : List WaitResult} (unused : later.Unused server best waits)
    (waiting : later.run server listening best waits = .waiting after) :
    ∃ fd d, later.env.listener = .ok fd ∧ after.env.driver = some d ∧
      ∀ uses : List DriverUse, uses.filterMap DriverUse.driverCall = d.calls →
        ∀ condition, KernelAnswer.Valid d (.found condition) →
          Reports fd after.toHub condition ((PollTable.after uses).wait (.found condition)).1.result := by
  have rested : later.Rested := steps.rested (.request env)
  have recorded : later.Recorded := steps.recorded (.request env) fun _ none => by cases none
  obtain ⟨d, chosen, ran⟩ := World.run_waiting waiting
  have agrees := runtimeRun_agrees (rested.idle chosen) (fun _ : True => recorded.chosen chosen)
    waits fun fd => unused d fd chosen
  rw [ran] at agrees
  obtain ⟨fd, listening, tidy⟩ := agrees
  obtain ⟨own, driver, kept, -⟩ := tidy.driver
  refine ⟨fd, own, listening, driver, fun uses made condition valid => ?_⟩
  exact tidy.agree.reports driver ((kept trivial).shows made) valid

/-- The one client that has been accepted can be read from. -/
theorem reports_known_accepted :
    let server : Server := { options := .array fun _ => none, lib := sampleLib }
    let env : Env := { accepts := [.client 5 none] }
    let uses : List DriverUse :=
      [.call (.watchRead 3), .wait (.found fun fd => { readable := fd = 3 }), .call (.watchRead 5)]
    let condition : Nat → Condition := fun fd => { readable := fd = 5 }
    ∃ after, (World.request env).run server true (some "poll") [.ready 3] = .waiting after ∧
      ((PollTable.after uses).wait (.found condition)).1.result = .ready 5 ∧
      ∃! i, i ∈ after.connections ∧ (after.conn i).fd = some 5 := by
  intro server env uses condition
  let after := ((World.request env).run server true (some "poll") [.ready 3]).world
  have unused : (World.request env).Unused server (some "poll") [.ready 3] :=
    World.Rested.unused (.request env) (by decide) rfl rfl []
  have waiting : (World.request env).run server true (some "poll") [.ready 3] = .waiting after :=
    World.RunResult.eq_waiting (by decide +kernel)
  have calls : after.env.driver.map Driver.calls = some [.watchRead 3, .watchRead 5] := by
    decide +kernel
  obtain ⟨fd, d, listener, driver, reports⟩ := reports_known env .refl unused waiting
  cases listener
  rw [driver] at calls
  have ready : ((PollTable.after uses).wait (.found condition)).1.result = .ready 5 := by
    decide +kernel
  have told := reports uses (Option.some.inj calls).symm condition fun _ _ => rfl
  exact ⟨after, waiting, ready, (told.known 5 ready).resolve_left (by decide)⟩

end PhpWebSocket
