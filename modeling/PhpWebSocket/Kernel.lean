import PhpWebSocket.Descriptors
import PhpWebSocket.Lib.Inbox
import PhpWebSocket.Steady

/-! # The server and its kernel

A script may answer anything. Here the answers are a kernel's: the octets of a peer wait in
its socket, each with the time of its arrival, until `recv` takes them off the front, and
clients wait in the backlog until `accept` does. A `Site` is a server with its kernel and
the place the loop of `run` has come to. Arrivals can come between any two calls of the
kernel, so the callbacks may take as long as they like, and descriptors may become ready in
any order. Each step of a site runs one function of the loop, and `Walk.runs` says that the
steps together are `runLoop`.
-/

namespace PhpWebSocket

open Lib Relation

/-- An octet of a peer, and when it reached the socket. -/
structure Arrival where
  octet : UInt8
  time : Nat
  deriving Repr, DecidableEq

/-- The receive buffer of a socket. Its mark is the undelivered read event that `EV_CLEAR`
    leaves behind; octets that are there before the descriptor is watched activate the event
    when it is. -/
abbrev Socket := Inbox Arrival

structure Kernel where
  sockets : ConnId → Socket := fun _ => {}
  /-- The clients that `accept` has not returned. -/
  backlog : Inbox Unit := {}
  time : Nat := 0

namespace Kernel

/-- Time goes by, and octets and clients arrive. -/
structure Grows (k k' : Kernel) : Prop where
  time : k.time ≤ k'.time
  sockets : ∀ i, (k.sockets i).Grows (fun a => k.time ≤ a.time ∧ a.time ≤ k'.time) (k'.sockets i)
  backlog : k.backlog.Grows (fun _ => True) k'.backlog

def setSocket (k : Kernel) (i : ConnId) (s : Socket) : Kernel :=
  { k with sockets := Function.update k.sockets i s }

/-- The answers `used` of `recv` on the socket of `i`, with the reading of the clock behind
    each that delivers octets. `EAGAIN` and the end of the stream come from an empty buffer. -/
inductive Serves (i : ConnId) : Kernel → List RecvResult → List Nat → Kernel → Prop
  | done (k : Kernel) : Serves i k [] [] k
  | data {k k₁ k₂ k' : Kernel} {chunk : Chunk} {used : List RecvResult} {ticks : List Nat}
      (grows : k.Grows k₁)
      (front : ((k₁.sockets i).waiting.take chunk.octets.length).map Arrival.octet = chunk.octets)
      (later : (k₁.setSocket i ((k₁.sockets i).take chunk.octets.length)).Grows k₂)
      (serves : Serves i k₂ used ticks k') :
      Serves i k (.data chunk :: used) (k₂.time :: ticks) k'
  | eof {k k₁ k' : Kernel} {used : List RecvResult} {ticks : List Nat} (grows : k.Grows k₁)
      (empty : (k₁.sockets i).waiting = []) (serves : Serves i k₁ used ticks k') :
      Serves i k (.eof :: used) ticks k'
  | failed {k k₁ k' : Kernel} {e : Errno} {used : List RecvResult} {ticks : List Nat}
      (grows : k.Grows k₁) (empty : e = .eagain ∨ e = .ewouldblock → (k₁.sockets i).waiting = [])
      (serves : Serves i k₁ used ticks k') : Serves i k (.failed e :: used) ticks k'

/-- The answers `used` of `accept`. A failed one may lose the client it was to return. -/
inductive Accepts : Kernel → List AcceptResult → Kernel → Prop
  | done (k : Kernel) : Accepts k [] k
  | client {k k₁ k' : Kernel} {fd : Nat} {nonblocking : Option Errno} {used : List AcceptResult}
      (grows : k.Grows k₁) (waits : k₁.backlog.waiting ≠ [])
      (accepts : Accepts { k₁ with backlog := k₁.backlog.take 1 } used k') :
      Accepts k (.client fd nonblocking :: used) k'
  | failed {k k₁ k' : Kernel} {e : Errno} {used : List AcceptResult} (lost : Nat)
      (grows : k.Grows k₁) (empty : e = .eagain ∨ e = .ewouldblock → k₁.backlog.waiting = [])
      (accepts : Accepts { k₁ with backlog := k₁.backlog.take lost } used k') :
      Accepts k (.failed e :: used) k'

/-- What the kernel does while a function serves the connection `i`: it gives the answers
    the function takes off the scripts, the last of them in `mid`. The scripts outlast it. -/
structure Call (i : ConnId) (w w' : World) (used : List RecvResult) (k mid k' : Kernel) : Prop where
  recvs : w.env.recvs = used ++ w'.env.recvs
  more : w'.env.recvs ≠ []
  serves : ∃ ticks, w.env.clock = ticks ++ w'.env.clock ∧ Serves i k used ticks mid
  later : mid.Grows k'

/-- What the kernel does during `accept_pending`. -/
structure Acceptance (w w' : World) (used : List AcceptResult) (k mid k' : Kernel) : Prop where
  accepts : w.env.accepts = used ++ w'.env.accepts
  more : w'.env.accepts ≠ []
  served : k.Accepts used mid
  clock : ∃ ticks, w.env.clock = ticks ++ w'.env.clock ∧ ∀ t ∈ ticks, k.time ≤ t ∧ t ≤ k'.time
  later : mid.Grows k'

/-- The read event of a descriptor is returned. -/
def report (k : Kernel) (w : World) (fd : Nat) : Kernel :=
  { k with sockets := fun i =>
      if i ∈ w.connections ∧ (w.conn i).fd = some fd then (k.sockets i).report else k.sockets i }

def reportBacklog (k : Kernel) : Kernel := { k with backlog := k.backlog.report }

/-! ## What answers leave -/

variable {k k' k'' : Kernel} {i j : ConnId} {used : List RecvResult} {ticks : List Nat}

theorem Grows.refl (k : Kernel) : k.Grows k :=
  ⟨le_rfl, fun _ => Inbox.Grows.refl _, Inbox.Grows.refl _⟩

theorem setSocket_other (k : Kernel) (other : j ≠ i) (s : Socket) :
    (k.setSocket i s).sockets j = k.sockets j := Function.update_of_ne other ..

theorem setSocket_self (k : Kernel) (i : ConnId) (s : Socket) : (k.setSocket i s).sockets i = s :=
  Function.update_self ..

theorem grows_arrive (k : Kernel) (i : ConnId) {fresh : List Arrival}
    (now : ∀ a ∈ fresh, a.time = k.time) : k.Grows (k.setSocket i ((k.sockets i).arrive fresh)) := by
  refine ⟨le_rfl, ?_, Inbox.Grows.refl _⟩
  intro j
  by_cases same : j = i
  · subst same
    rw [setSocket_self]
    exact ⟨fresh, fun a mem => ⟨(now a mem).ge, (now a mem).le⟩, rfl⟩
  · rw [setSocket_other _ same]
    exact Inbox.Grows.refl _

theorem Serves.time (serves : k.Serves i used ticks k') : k.time ≤ k'.time := by
  induction serves with
  | done => exact le_rfl
  | data grows _ later _ ih => exact (grows.time.trans later.time).trans ih
  | eof grows _ _ ih | failed grows _ _ ih => exact grows.time.trans ih

theorem Serves.others (serves : k.Serves i used ticks k') (other : j ≠ i) :
    (k.sockets j).Grows (fun a => k.time ≤ a.time ∧ a.time ≤ k'.time) (k'.sockets j) := by
  induction serves with
  | done => exact Inbox.Grows.refl _
  | @data k k₁ k₂ k' chunk used ticks grows front later serves ih =>
      have taken := later.sockets j
      rw [setSocket_other _ other] at taken
      have times := serves.time
      have first := grows.time
      have next : k₁.time ≤ k₂.time := later.time
      refine ((grows.sockets j).mono ?_).trans
        ((taken.mono ?_).trans (ih.mono ?_))
      · intro a at₁
        exact ⟨at₁.1, by omega⟩
      · intro a at₂
        exact ⟨first.trans at₂.1, at₂.2.trans times⟩
      · intro a at₃
        exact ⟨by omega, at₃.2⟩
  | eof grows _ serves ih | failed grows _ serves ih =>
      exact ((grows.sockets j).mono fun a at₁ => ⟨at₁.1, at₁.2.trans serves.time⟩).trans
        (ih.mono fun a at₂ => ⟨grows.time.trans at₂.1, at₂.2⟩)

/-- Taking octets strands none. -/
theorem Serves.signalled (serves : k.Serves i used ticks k') (signalled : (k.sockets j).Signalled) :
    (k'.sockets j).Signalled := by
  by_cases same : j = i
  · subst same
    induction serves with
    | done => exact signalled
    | @data k k₁ k₂ k' chunk used ticks grows front later serves ih =>
        have taken := later.sockets j
        rw [setSocket_self] at taken
        exact ih (((signalled.grows (grows.sockets j)).take _).grows taken)
    | eof grows _ _ ih | failed grows _ _ ih => exact ih (signalled.grows (grows.sockets j))
  · exact signalled.grows (serves.others same)

theorem Serves.unreported (serves : k.Serves i used ticks k') :
    (k.sockets i).Unreported (k'.sockets i) := by
  induction serves with
  | done => exact .refl _
  | @data k k₁ k₂ k' chunk used ticks grows front later serves ih =>
      have taken := (later.sockets i).unreported
      rw [setSocket_self] at taken
      exact ((grows.sockets i).unreported.trans (.take _ _)).trans (taken.trans ih)
  | eof grows _ _ ih | failed grows _ _ ih => exact (grows.sockets i).unreported.trans ih

theorem Serves.backlog (serves : k.Serves i used ticks k') :
    k.backlog.Grows (fun _ => True) k'.backlog := by
  induction serves with
  | done => exact Inbox.Grows.refl _
  | data grows _ later _ ih => exact (grows.backlog.trans later.backlog).trans ih
  | eof grows _ _ ih | failed grows _ _ ih => exact grows.backlog.trans ih

/-- The answers end with the one that says that there is nothing more. -/
def Dry (used : List RecvResult) : Prop :=
  ∃ e, (e = .eagain ∨ e = .ewouldblock) ∧ used.getLast? = some (.failed e)

theorem Dry.cons (answer : RecvResult) (dry : Dry used) : Dry (answer :: used) := by
  obtain ⟨e, empty, last⟩ := dry
  exact ⟨e, empty, by rw [List.getLast?_cons, last, Option.getD_some]⟩

theorem dry_singleton {e : Errno} (empty : e = .eagain ∨ e = .ewouldblock) : Dry [.failed e] :=
  ⟨e, empty, rfl⟩

theorem Serves.dry (serves : k.Serves i used ticks k') (dry : Dry used) : (k'.sockets i).waiting = [] := by
  obtain ⟨e, empty, last⟩ := dry
  induction serves with
  | done => cases last
  | data _ _ _ serves ih | eof _ _ serves ih =>
      rw [List.getLast?_cons] at last
      apply ih
      cases atLast : List.getLast? _ with
      | none =>
          rw [atLast] at last
          cases last
      | some answer =>
          rw [atLast] at last
          exact last
  | failed grows silent serves ih =>
      rw [List.getLast?_cons] at last
      cases serves with
      | done =>
          cases last
          exact silent empty
      | data | eof | failed =>
          apply ih
          rw [List.getLast?_cons] at last ⊢
          exact last

/-- `accept` says at last that nobody is there. -/
def AcceptsDry (used : List AcceptResult) : Prop :=
  ∃ e, (e = .eagain ∨ e = .ewouldblock) ∧ used.getLast? = some (.failed e)

theorem Accepts.dry {used : List AcceptResult} (accepts : k.Accepts used k') (dry : AcceptsDry used) :
    k'.backlog.waiting = [] := by
  obtain ⟨e, empty, last⟩ := dry
  induction accepts with
  | done => cases last
  | client _ _ accepts ih =>
      rw [List.getLast?_cons] at last
      apply ih
      cases atLast : List.getLast? _ with
      | none =>
          rw [atLast] at last
          cases last
      | some answer =>
          rw [atLast] at last
          exact last
  | failed lost grows silent accepts ih =>
      rw [List.getLast?_cons] at last
      cases accepts with
      | done =>
          cases last
          rw [Inbox.take, silent empty, List.drop_nil]
      | client | failed =>
          apply ih
          rw [List.getLast?_cons] at last ⊢
          exact last

theorem Accepts.unreported {used : List AcceptResult} (accepts : k.Accepts used k') :
    k.backlog.Unreported k'.backlog := by
  induction accepts with
  | done => exact .refl _
  | client grows _ _ ih | failed _ grows _ _ ih =>
      exact (grows.backlog.unreported.trans (.take _ _)).trans ih

theorem Accepts.time {used : List AcceptResult} (accepts : k.Accepts used k') : k.time ≤ k'.time := by
  induction accepts with
  | done => exact le_rfl
  | client grows _ _ ih | failed _ grows _ _ ih => exact grows.time.trans ih

theorem Accepts.sockets {used : List AcceptResult} (accepts : k.Accepts used k') (i : ConnId) :
    (k.sockets i).Grows (fun a => k.time ≤ a.time ∧ a.time ≤ k'.time) (k'.sockets i) := by
  induction accepts with
  | done => exact Inbox.Grows.refl _
  | client grows _ accepts ih | failed _ grows _ accepts ih =>
      exact ((grows.sockets i).mono fun a at₁ => ⟨at₁.1, at₁.2.trans accepts.time⟩).trans
        (ih.mono fun a at₂ => ⟨grows.time.trans at₂.1, at₂.2⟩)

end Kernel

/-- A place in the loop of `run`. -/
inductive Phase where
  /-- in `driver->wait` -/
  | waiting
  /-- `process_connection_fd` has read the clock -/
  | serving (fd nowUsec : Nat)
  /-- before `process_connections` -/
  | served
  /-- in `process_connections`, before the connections `rest` -/
  | scanning (nowUsec : Nat) (rest : List ConnId)

structure Site where
  world : World
  kernel : Kernel
  phase : Phase

/-- What a step asked of the kernel. -/
inductive Label where
  | quiet
  | accepted (used : List AcceptResult) (mid : Kernel)
  /-- `process_connection_fd` for the connection `i` -/
  | served (i : ConnId) (used : List RecvResult) (mid : Kernel)
  /-- `process_connections` at the connection `i` -/
  | checked (i : ConnId) (used : List RecvResult) (mid : Kernel)

namespace World

/-- The condition of the loop of `run`. -/
def Going (w : World) : Prop := w.running = true ∧ w.stopped = false

end World

/-- A step in the loop of `run`, or of the kernel alone. The steps that end a run are not
    among them: there is no wait behind one. -/
inductive Site.Step (server : Server) : Site → Label → Site → Prop
  | arrive {w : World} {k k' : Kernel} {phase : Phase} (grows : k.Grows k') :
      Step server ⟨w, k, phase⟩ .quiet ⟨w, k', phase⟩
  | interrupt {w : World} {k : Kernel} (going : w.Going) :
      Step server ⟨w, k, .waiting⟩ .quiet ⟨w.setErrno .eintr, k, .waiting⟩
  | timeout {w : World} {k : Kernel} (going : w.Going) :
      Step server ⟨w, k, .waiting⟩ .quiet ⟨w, k, .served⟩
  | listener {w : World} {k mid k' : Kernel} {fd : Nat} {used : List AcceptResult} (going : w.Going)
      (listening : w.listenerFd = some fd) (unused : w.AcceptsUnused server w.env.accepts 0)
      (ok : (w.acceptPending server).1 = true)
      (accepts : k.reportBacklog.Acceptance w (w.acceptPending server).2 used mid k') :
      Step server ⟨w, k, .waiting⟩ (.accepted used mid) ⟨(w.acceptPending server).2, k', .served⟩
  /-- A descriptor is ready to be read or, with the read event left alone, to be written. -/
  | ready {w : World} {k k' : Kernel} {fd : Nat} {clock : List Nat} (going : w.Going)
      (other : w.listenerFd ≠ some fd) (reported : k' = k.report w fd ∨ k' = k)
      (readable : w.env.clock = k.time :: clock) :
      Step server ⟨w, k, .waiting⟩ .quiet ⟨w.tick, k', .serving fd k.time⟩
  | absent {w : World} {k : Kernel} {fd nowUsec : Nat} (absent : w.findFd fd = none) :
      Step server ⟨w, k, .serving fd nowUsec⟩ .quiet ⟨w, k, .served⟩
  | serve {w : World} {k mid k' : Kernel} {fd nowUsec : Nat} {i : ConnId} {used : List RecvResult}
      (found : w.findFd fd = some i) (ok : (w.serveReady server i nowUsec).1 = true)
      (call : Kernel.Call i w (w.serveReady server i nowUsec).2 used k mid k') :
      Step server ⟨w, k, .serving fd nowUsec⟩ (.served i used mid)
        ⟨(w.serveReady server i nowUsec).2, k', .served⟩
  | scan {w : World} {k : Kernel} {clock : List Nat} (readable : w.env.clock = k.time :: clock) :
      Step server ⟨w, k, .served⟩ .quiet ⟨w.tick, k, .scanning k.time w.connections⟩
  | check {w : World} {k mid k' : Kernel} {nowUsec : Nat} {i : ConnId} {rest : List ConnId}
      {used : List RecvResult} (ok : (w.processConnection server i nowUsec).1 = true)
      (call : Kernel.Call i w (w.processConnection server i nowUsec).2 used k mid k') :
      Step server ⟨w, k, .scanning nowUsec (i :: rest)⟩ (.checked i used mid)
        ⟨(w.processConnection server i nowUsec).2, k', .scanning nowUsec rest⟩
  | purge {w : World} {k : Kernel} {nowUsec : Nat} (ok : (w.purgeClosedConnections server).1 = true) :
      Step server ⟨w, k, .scanning nowUsec []⟩ .quiet
        ⟨{ w with toHub := (w.purgeClosedConnections server).2 }, k, .waiting⟩

/-- The site at which a run begins to wait: nothing of a new connection has been read, and
    no event has been returned. -/
structure Site.Starts (fd : Nat) (m : Site) : Prop where
  world : ∃ w : World, Idle w.toHub ∧ (w.env.watchRead fd).1 = true ∧ m.world = w.listens fd
  untaken : ∀ i, (m.kernel.sockets i).taken = []
  signalled : ∀ i, (m.kernel.sockets i).Signalled
  backlog : m.kernel.backlog.Signalled
  past : ∀ i, ∀ a ∈ (m.kernel.sockets i).waiting, a.time ≤ m.kernel.time
  phase : m.phase = .waiting

/-- A run all of whose steps meet a condition. -/
inductive Site.Walk (server : Server) (meets : Site → Label → Site → Prop) : Site → Site → Prop
  | start (m : Site) : Walk server meets m m
  | step {m m' m'' : Site} {label : Label} (walk : Walk server meets m m')
      (step : Site.Step server m' label m'') (met : meets m' label m'') : Walk server meets m m''

theorem Site.Walk.mono {server : Server} {meets meets' : Site → Label → Site → Prop} {m m' : Site}
    (weaker : ∀ a label b, meets a label b → meets' a label b) (walk : Site.Walk server meets m m') :
    Site.Walk server meets' m m' := by
  induction walk with
  | start => exact .start _
  | step _ step met ih => exact ih.step step (weaker _ _ _ met)

/-! ## The loop of run -/

section Loop

variable {server : Server}

namespace World

variable (server)

/-- What is left of a round behind the ready descriptor. -/
def endRound (w : World) : Bool × World :=
  let processed := w.processConnections server
  if !processed.1 then (false, processed.2)
  else processed.2.onHub (processed.2.purgeClosedConnections server)

/-- What is left of a round. -/
def restOfRound (w : World) : Phase → Bool × World
  | .waiting => (true, w)
  | .serving fd nowUsec =>
      match w.findFd fd with
      | none => w.endRound server
      | some i =>
          let served := w.serveReady server i nowUsec
          if !served.1 then (false, served.2) else served.2.endRound server
  | .served => w.endRound server
  | .scanning nowUsec rest =>
      let scanned := w.processEach server nowUsec rest
      if !scanned.1 then (false, scanned.2)
      else scanned.2.onHub (scanned.2.purgeClosedConnections server)

/-- The rounds that follow. -/
def afterRound (waits : List WaitResult) (round : Bool × World) : LoopState × World :=
  if round.1 then round.2.runLoop server waits else (.left, round.2)

end World

theorem Site.Step.round {m m' : Site} {label : Label} (step : Site.Step server m label m') :
    m.world.restOfRound server m.phase = m'.world.restOfRound server m'.phase ∨
      (m.phase = .waiting ∧ m.world.Going ∧ ∃ wait,
        m.world.runRound server wait = m'.world.restOfRound server m'.phase) := by
  cases step with
  | arrive => exact Or.inl rfl
  | interrupt going => exact Or.inr ⟨rfl, going, .failed .eintr, rfl⟩
  | timeout going => exact Or.inr ⟨rfl, going, .idle, rfl⟩
  | @listener w k mid k' fd used going listening unused ok accepts =>
      refine Or.inr ⟨rfl, going, .ready fd, ?_⟩
      simp only [World.runRound, World.serve, World.processReady, listening, if_true, ok]
      rfl
  | @ready w k k' fd clock going other reported readable =>
      refine Or.inr ⟨rfl, going, .ready fd, ?_⟩
      have found : w.tick.findFd fd = w.findFd fd := rfl
      have now : w.now.1 = k.time := by simp only [Hub.now, Env.now, readable]
      simp only [World.runRound, World.serve, World.processReady, if_neg other,
        World.processConnectionFd_eq, World.restOfRound, found, now]
      cases w.findFd fd with
      | none => rfl
      | some i => rfl
  | absent absent => exact Or.inl (by simp only [World.restOfRound, absent])
  | serve found ok => exact Or.inl (by simp [World.restOfRound, found, ok])
  | @scan w k clock readable =>
      have now : w.now.1 = k.time := by simp only [Hub.now, Env.now, readable]
      apply Or.inl
      simp only [World.restOfRound, World.endRound, World.processConnections, now]
      rfl
  | check ok => exact Or.inl (by simp [World.restOfRound, World.processEach, ok])
  | purge ok => exact Or.inl (by simp [World.restOfRound, World.processEach, World.onHub, ok])

/-- The worlds along the steps of a site are those of the loop of `run`, for some answers of
    the driver. -/
theorem Site.Walk.runs {meets : Site → Label → Site → Prop} {m m' : Site}
    (walk : Site.Walk server meets m m') : ∃ waits, ∀ more,
      World.afterRound server (waits ++ more) (m.world.restOfRound server m.phase) =
        World.afterRound server more (m'.world.restOfRound server m'.phase) := by
  induction walk with
  | start => exact ⟨[], fun _ => rfl⟩
  | step _ step _ ih =>
      obtain ⟨waits, same⟩ := ih
      rcases step.round with round | ⟨waiting, going, wait, round⟩
      · exact ⟨waits, fun more => (same more).trans (by rw [round])⟩
      · refine ⟨waits ++ [wait], ?_⟩
        intro more
        rw [List.append_assoc, same, waiting, World.restOfRound, World.afterRound, if_pos rfl,
          List.singleton_append, World.runLoop, going.1, going.2, ← round]
        rfl

/-- From one wait to another the loop of `run` has made some rounds. -/
theorem Site.Walk.runLoop {meets : Site → Label → Site → Prop} {m m' : Site}
    (walk : Site.Walk server meets m m') (start : m.phase = .waiting) (waits : m'.phase = .waiting) :
    ∃ answers, ∀ more, m.world.runLoop server (answers ++ more) = m'.world.runLoop server more := by
  have runs := walk.runs
  rw [start, waits] at runs
  exact runs

end Loop

end PhpWebSocket
