import Mathlib.Logic.Relation
import PhpWebSocket.Life

/-! # The moves of the server

Every function of the server is a run of moves, and a move is a step in the life of
one connection, a change of the table, or a change that no connection sees. `Acts`
are the moves that user code, frames and timeouts can make; asking the handshake
callback and raising an exception are moves of their own, as they are what the
reading loops may do once only.
-/

namespace PhpWebSocket

open Lib Relation

namespace Hub

def life (h : Hub) (i : ConnId) : Life := ⟨h.conn i, h.trace.of i⟩

/-- No exception is pending. -/
def Quiet (h : Hub) : Prop := h.env.exception = none

/-- One connection moves on: its new state, the environment, and its new events. -/
def evolve (h : Hub) (i : ConnId) (conn : Connection) (env : Env) (events : Trace) : Hub :=
  { h with conn := Function.update h.conn i conn, env, trace := h.trace ++ events }

theorem setConn_eq (h : Hub) (i : ConnId) (conn : Connection) :
    h.setConn i conn = h.evolve i conn h.env [] := by
  simp [setConn, evolve]

theorem relink_eq (h : Hub) (i : ConnId) (link : Link) :
    h.relink i link = h.evolve i link.conn link.env [] := by
  simp [relink, evolve]

theorem emit_eq (h : Hub) (i : ConnId) (e : Event) :
    h.emit e = h.evolve i (h.conn i) h.env [e] := by
  simp [emit, evolve]

theorem life_evolve_self (h : Hub) {i : ConnId} (conn : Connection) (env : Env) {events : Trace}
    (about : ∀ e ∈ events, e.about = some i) :
    (h.evolve i conn env events).life i = ⟨conn, h.trace.of i ++ events⟩ := by
  have own : Trace.of events i = events := by
    rw [Trace.of, List.filter_eq_self]
    intro e mem
    exact by simp [about e mem]
  simp only [life, evolve, Function.update_self, Trace.of, List.filter_append] at own ⊢
  rw [own]

theorem life_evolve_of_ne (h : Hub) {i j : ConnId} (other : j ≠ i) (conn : Connection) (env : Env)
    {events : Trace} (about : ∀ e ∈ events, e.about = some i) :
    (h.evolve i conn env events).life j = h.life j := by
  have none : Trace.of events j = [] := by
    rw [Trace.of, List.filter_eq_nil_iff]
    intro e mem
    exact by simp [about e mem, other.symm]
  simp only [life, evolve, Function.update_of_ne other, Trace.of, List.filter_append] at none ⊢
  rw [none, List.append_nil]

end Hub

/-- The moves that may happen at any time. -/
inductive Act (server : Server) : Hub → Hub → Prop
  /-- A step in the life of one connection, without a call of the handshake callback. -/
  | own {h h' : Hub} (i : ConnId) (born : i < h'.nextConnectionId)
      (step : Life.Step server i h.Quiet (i ∈ h.connections) (h.life i) (h'.life i))
      (calm : ∀ r, .handshake i r ∈ h'.trace.of i → .handshake i r ∈ h.trace.of i)
      (others : ∀ j, j ≠ i → h'.life j = h.life j)
      (connections : h'.connections = h.connections)
      (exception : h'.env.exception = h.env.exception) (handled : h'.handled = h.handled)
      (next : h.nextConnectionId ≤ h'.nextConnectionId) : Act server h h'
  /-- A change outside the connections. -/
  | world {h h' : Hub} (lives : ∀ i, h'.life i = h.life i)
      (connections : h'.connections = h.connections)
      (exception : h'.env.exception = h.env.exception) (handled : h'.handled = h.handled)
      (next : h.nextConnectionId ≤ h'.nextConnectionId) : Act server h h'
  | enlist {h : Hub} (i : ConnId) (born : i < h.nextConnectionId) :
      Act server h { h with connections := h.connections ++ [i] }
  /-- A connection leaves the table; its end has been told, unless an exception is
      pending or nobody asked. -/
  | remove {h : Hub} (index : Nat) {i : ConnId} (here : h.connections[index]? = some i)
      (closed : (h.conn i).isOpen = false)
      (told : h.Quiet → (∀ t, (server.handlers t).onClose.isSome) → (h.conn i).upgraded = true →
        (h.conn i).closeNotified = true) :
      Act server h { h with connections := h.connections.eraseIdx index }

/-- A move of the server. -/
inductive Move (server : Server) : Hub → Hub → Prop
  | act {h h' : Hub} (act : Act server h h') : Move server h h'
  | ask {h : Hub} (i : ConnId) (request : Request) (born : i < h.nextConnectionId)
      (step : Life.Step server i h.Quiet (i ∈ h.connections) (h.life i)
        ⟨h.conn i, h.trace.of i ++ [.handshake i request]⟩) :
      Move server h (h.emit (.handshake i request))
  | raise {h : Hub} (e : PhpError) : Move server h (h.raise e)
  | seen {h : Hub} (x : Handled) : Move server h { h with handled := h.handled ++ [x] }

def Acts (server : Server) : Hub → Hub → Prop := ReflTransGen (Act server)

def Moves (server : Server) : Hub → Hub → Prop := ReflTransGen (Move server)

/-- Ids beyond the next one are unused, and the table holds used ones, among them every
    open connection. -/
structure Grounded (h : Hub) : Prop where
  listed : ∀ i ∈ h.connections, i < h.nextConnectionId
  present : ∀ i, (h.conn i).isOpen = true → i ∈ h.connections
  unborn : ∀ i, h.nextConnectionId ≤ i → h.life i = ⟨{}, []⟩

/-- If the connection still waits for its upgrade, it has not been put to the handshake
    callback. -/
def Unasked (h : Hub) (i : ConnId) : Prop :=
  (h.conn i).isOpen = true → (h.conn i).upgraded = false →
    ∀ request, .handshake i request ∉ h.trace.of i

/-! ## What moves keep -/

namespace Act

variable {server : Server} {h h' : Hub}

theorem exception (act : Act server h h') : h'.env.exception = h.env.exception := by
  cases act with
  | own _ _ _ _ _ _ exception _ _ => exact exception
  | world _ _ exception _ _ => exact exception
  | enlist | remove => rfl

theorem handled (act : Act server h h') : h'.handled = h.handled := by
  cases act with
  | own _ _ _ _ _ _ _ handled _ => exact handled
  | world _ _ _ handled _ => exact handled
  | enlist | remove => rfl

theorem prefix_of (act : Act server h h') (i : ConnId) : h.trace.of i <+: h'.trace.of i := by
  cases act with
  | own j _ step _ others =>
      by_cases same : i = j
      · subst same
        exact step.prefix_of
      · have log : h'.trace.of i = h.trace.of i := congrArg Life.log (others i same)
        rw [log]
  | world lives =>
      have log : h'.trace.of i = h.trace.of i := congrArg Life.log (lives i)
      rw [log]
  | enlist | remove => exact List.prefix_rfl

theorem next_le (act : Act server h h') : h.nextConnectionId ≤ h'.nextConnectionId := by
  cases act with
  | own _ _ _ _ _ _ _ _ next => exact next
  | world _ _ _ _ next => exact next
  | enlist | remove => exact Nat.le_refl _

theorem grounded (act : Act server h h') (ground : Grounded h) : Grounded h' := by
  obtain ⟨listed, present, unborn⟩ := ground
  cases act with
  | own i born step calm others connections _ _ next =>
      refine ⟨?_, ?_, ?_⟩
      · intro j mem
        rw [connections] at mem
        exact Nat.lt_of_lt_of_le (listed j mem) next
      · intro j isOpen
        rw [connections]
        by_cases same : j = i
        · subst same
          exact (step.opens isOpen).elim (present j) id
        · have conn : h'.conn j = h.conn j := congrArg Life.conn (others j same)
          rw [conn] at isOpen
          exact present j isOpen
      · intro j later
        have other : j ≠ i := Nat.ne_of_gt (Nat.lt_of_lt_of_le born later)
        rw [others j other]
        exact unborn j (Nat.le_trans next later)
  | world lives connections _ _ next =>
      refine ⟨?_, ?_, ?_⟩
      · intro j mem
        rw [connections] at mem
        exact Nat.lt_of_lt_of_le (listed j mem) next
      · intro j isOpen
        have conn : h'.conn j = h.conn j := congrArg Life.conn (lives j)
        rw [conn] at isOpen
        rw [connections]
        exact present j isOpen
      · intro j later
        rw [lives j]
        exact unborn j (Nat.le_trans next later)
  | enlist i born =>
      refine ⟨?_, ?_, unborn⟩
      · intro j mem
        rcases List.mem_append.mp mem with old | new
        · exact listed j old
        · rw [List.mem_singleton.mp new]
          exact born
      · intro j isOpen
        exact List.mem_append_left _ (present j isOpen)
  | @remove index i here closed told =>
      refine ⟨fun j mem => listed j (List.mem_of_mem_eraseIdx mem), ?_, unborn⟩
      intro j isOpen
      obtain ⟨k, within, atK⟩ := List.getElem_of_mem (present j isOpen)
      refine List.mem_eraseIdx_iff_getElem?.mpr ⟨k, ?_, by rw [List.getElem?_eq_getElem within, atK]⟩
      rintro rfl
      rw [List.getElem?_eq_getElem within, atK] at here
      cases here
      rw [closed] at isOpen
      cases isOpen

theorem unasked (act : Act server h h') {j : ConnId} (before : Unasked h j) : Unasked h' j := by
  have unchanged : h'.life j = h.life j → Unasked h' j := by
    intro same isOpen fresh request asked
    have conn : h'.conn j = h.conn j := congrArg Life.conn same
    have log : h'.trace.of j = h.trace.of j := congrArg Life.log same
    rw [conn] at isOpen fresh
    rw [log] at asked
    exact before isOpen fresh request asked
  cases act with
  | own i born step calm others =>
      by_cases same : j = i
      · subst same
        intro isOpen fresh request asked
        rcases step.backward isOpen fresh with ⟨wasOpen, wasFresh⟩ | empty
        · exact before wasOpen wasFresh request (calm request asked)
        · change .handshake j request ∈ (h'.life j).log at asked
          rw [empty] at asked
          exact List.not_mem_nil asked
      · exact unchanged (others j same)
  | world lives => exact unchanged (lives j)
  | enlist | remove => exact before

end Act

namespace Acts

variable {server : Server} {h h' h'' : Hub}

theorem refl (h : Hub) : Acts server h h := ReflTransGen.refl

theorem single (act : Act server h h') : Acts server h h' := ReflTransGen.single act

theorem trans (first : Acts server h h') (next : Acts server h' h'') : Acts server h h'' :=
  ReflTransGen.trans first next

theorem exception (acts : Acts server h h') : h'.env.exception = h.env.exception := by
  induction acts with
  | refl => rfl
  | tail _ act ih => rw [act.exception, ih]

theorem handled (acts : Acts server h h') : h'.handled = h.handled := by
  induction acts with
  | refl => rfl
  | tail _ act ih => rw [act.handled, ih]

theorem prefix_of (acts : Acts server h h') (i : ConnId) : h.trace.of i <+: h'.trace.of i := by
  induction acts with
  | refl => exact List.prefix_rfl
  | tail _ act ih => exact ih.trans (act.prefix_of i)

theorem next_le (acts : Acts server h h') : h.nextConnectionId ≤ h'.nextConnectionId := by
  induction acts with
  | refl => exact Nat.le_refl _
  | tail _ act ih => exact Nat.le_trans ih act.next_le

theorem grounded (acts : Acts server h h') (ground : Grounded h) : Grounded h' := by
  induction acts with
  | refl => exact ground
  | tail _ act ih => exact act.grounded ih

theorem unasked (acts : Acts server h h') {j : ConnId} (before : Unasked h j) : Unasked h' j := by
  induction acts with
  | refl => exact before
  | tail _ act ih => exact act.unasked ih

theorem moves (acts : Acts server h h') : Moves server h h' :=
  ReflTransGen.mono (fun _ _ => Move.act) _ _ acts

end Acts

/-! ## The functions on one connection -/

theorem Act.evolve {server : Server} {h : Hub} {i : ConnId} {conn : Connection} {env : Env}
    {events : Trace} (born : i < h.nextConnectionId) (exception : env.exception = h.env.exception)
    (about : ∀ e ∈ events, e.about = some i) (calm : ∀ r, .handshake i r ∉ events)
    (step : Life.Step server i h.Quiet (i ∈ h.connections) (h.life i)
      ⟨conn, h.trace.of i ++ events⟩) :
    Act server h (h.evolve i conn env events) := by
  have life := h.life_evolve_self conn env about
  refine Act.own i born ?_ ?_ (fun j other => h.life_evolve_of_ne other conn env about) rfl
    exception rfl (Nat.le_refl _)
  · rw [life]
    exact step
  · intro r asked
    change .handshake i r ∈ ((h.evolve i conn env events).life i).log at asked
    rw [life] at asked
    exact (List.mem_append.mp asked).resolve_right (calm r)

namespace Hub

variable {server : Server} {h : Hub} {i : ConnId}

theorem evolve_yields (born : i < h.nextConnectionId) {conn : Connection} {env : Env}
    (exception : env.exception = h.env.exception)
    (yields : Yields server.options.maxMessageSize (h.conn i) conn) :
    Acts server h (h.evolve i conn env []) := by
  refine Acts.single (Act.evolve born exception (by simp) (by simp) ?_)
  rw [List.append_nil]
  exact Life.Step.yield yields

theorem setConn_acts (born : i < h.nextConnectionId) {conn : Connection}
    (yields : Yields server.options.maxMessageSize (h.conn i) conn) :
    Acts server h (h.setConn i conn) := by
  rw [setConn_eq]
  exact evolve_yields born rfl yields

theorem relink_acts (born : i < h.nextConnectionId) {link : Link}
    (exception : link.env.exception = h.env.exception)
    (yields : Yields server.options.maxMessageSize (h.conn i) link.conn) :
    Acts server h (h.relink i link) := by
  rw [relink_eq]
  exact evolve_yields born exception yields

theorem env_acts {env : Env} (exception : env.exception = h.env.exception) :
    Acts server h { h with env } :=
  Acts.single (Act.world (fun _ => rfl) rfl exception rfl (Nat.le_refl _))

end Hub

namespace Link

theorem closeSocket_exception (link : Link) :
    link.closeSocket.env.exception = link.env.exception := by
  unfold closeSocket
  split <;> rfl

theorem closeAfterWrite_exception (link : Link) :
    link.closeAfterWrite.env.exception = link.env.exception := by
  unfold closeAfterWrite
  split
  · rfl
  · split
    · exact link.closeSocket_exception
    · rfl

theorem watchWrite_exception (env : Env) (fd : Option Nat) :
    (env.watchWrite fd).2.exception = env.exception := by
  unfold Env.watchWrite
  split <;> rfl

theorem queueFrame_exception (link : Link) (frame : Bytes) (offset : Nat) :
    (link.queueFrame frame offset).2.env.exception = link.env.exception := by
  simp only [queueFrame]
  split
  · rfl
  · split
    · split <;> exact watchWrite_exception _ _
    · rfl

theorem settle_exception (result : Bool × Link) :
    (settle result).2.env.exception = result.2.env.exception := by
  unfold settle
  split <;> rfl

theorem sendFrame_exception (link : Link) (payload : Bytes) (opcode : UInt8) :
    (link.sendFrame payload opcode).2.env.exception = link.env.exception := by
  simp only [sendFrame, packPayload_server]
  split
  · rfl
  · split
    · rfl
    · split
      · rw [settle_exception, queueFrame_exception]
      · split
        · rw [settle_exception, queueFrame_exception]
          rfl
        · rw [settle_exception]
          rfl

theorem flushLoop_exception (queue : List Bytes) (link : Link) :
    (flushLoop queue link).2.env.exception = link.env.exception := by
  induction queue generalizing link with
  | nil => rfl
  | cons frame rest ih =>
      simp only [flushLoop]
      split
      · rfl
      · split
        · rfl
        · rw [ih]
          rfl

theorem flush_exception (link : Link) : link.flush.2.env.exception = link.env.exception := by
  have looped := flushLoop_exception link.conn.writeQueue link
  simp only [flush]
  split
  · rfl
  · cases (flushLoop link.conn.writeQueue link).1 with
    | broken | blocked => exact looped
    | drained =>
        refine Eq.trans ?_ looped
        dsimp only
        split <;> split
        · rw [closeSocket_exception]
          rfl
        · rfl
        · exact closeSocket_exception _
        · rfl

end Link

namespace Hub

variable {server : Server} {h : Hub} {i : ConnId}

theorem shut_acts (born : i < h.nextConnectionId) : Acts server h (h.shut i) :=
  setConn_acts born (Yields.shut _)

theorem clearFragment_acts (born : i < h.nextConnectionId) : Acts server h (h.clearFragment i) :=
  setConn_acts born (Yields.clearFragment _)

theorem closeSocket_acts (born : i < h.nextConnectionId) : Acts server h (h.closeSocket i) :=
  relink_acts born (h.link i).closeSocket_exception (Yields.closeSocket _)

theorem closeAfterWrite_acts (born : i < h.nextConnectionId) :
    Acts server h (h.closeAfterWrite i) :=
  relink_acts born (h.link i).closeAfterWrite_exception (Link.closeAfterWrite_yields _ (h.link i))

theorem flush_acts (born : i < h.nextConnectionId) : Acts server h (h.flush i).2 :=
  relink_acts born (h.link i).flush_exception (Link.flush_yields _ (h.link i))

theorem sendFrame_acts (server : Server) (born : i < h.nextConnectionId) {source : FrameSource}
    {payload : Bytes} {opcode : UInt8}
    (offered : Offered i (h.trace.of i) opcode payload source) :
    Acts server h (h.sendFrame i source payload opcode).2 := by
  simp only [sendFrame]
  split
  · rename_i sent
    obtain ⟨reading, fits⟩ := Link.sendFrame_accepts sent
    rw [show (h.relink i ((h.link i).sendFrame payload opcode).2).emit
        (.frame i source opcode payload) = h.evolve i ((h.link i).sendFrame payload opcode).2.conn
          ((h.link i).sendFrame payload opcode).2.env [.frame i source opcode payload] from rfl]
    refine Acts.single (Act.evolve born (Link.sendFrame_exception _ _ _) (by simp [Event.about])
      (by simp) ?_)
    exact Life.Step.send offered reading fits (Link.sendFrame_yields _ (h.link i) _ _)
  · exact relink_acts born (Link.sendFrame_exception _ _ _) (Link.sendFrame_yields _ (h.link i) _ _)

/-- A Close frame of the server's own: refused, or accepted with the close behind it. -/
theorem bye_acts (server : Server) (born : i < h.nextConnectionId) (source : FrameSource)
    {payload : Bytes} (own : source ≠ .send) (valid : ClosePayload payload) (short : payload.length ≤ 125) :
    if (h.sendFrame i source payload opcodeClose).1 then
      Acts server h ((h.sendFrame i source payload opcodeClose).2.closeAfterWrite i)
    else Acts server h (h.sendFrame i source payload opcodeClose).2 := by
  simp only [sendFrame]
  split
  · rename_i sent
    obtain ⟨reading, fits⟩ := Link.sendFrame_accepts sent
    have closed : ((h.relink i ((h.link i).sendFrame payload opcodeClose).2).emit
        (.frame i source opcodeClose payload)).closeAfterWrite i =
          h.evolve i ((h.link i).sendFrame payload opcodeClose).2.closeAfterWrite.conn
            ((h.link i).sendFrame payload opcodeClose).2.closeAfterWrite.env
            [.frame i source opcodeClose payload] := by
      simp [closeAfterWrite, relink, emit, link, evolve]
    rw [closed]
    refine Acts.single (Act.evolve born ?_ (by simp [Event.about]) (by simp) ?_)
    · rw [Link.closeAfterWrite_exception, Link.sendFrame_exception]
      rfl
    · exact Life.Step.bye own valid short reading fits
        ((Link.sendFrame_yields _ (h.link i) _ _).trans (Link.closeAfterWrite_yields _ _))
        (Link.closeAfterWrite_not_reading _)
  · exact relink_acts born (Link.sendFrame_exception _ _ _) (Link.sendFrame_yields _ (h.link i) _ _)

end Hub

end PhpWebSocket
