import PhpWebSocket.Drivers
import PhpWebSocket.Operations
import PhpWebSocket.Reached
import PhpWebSocket.Lib.Interest

/-! # Descriptors and the driver

Each connection in the table has a descriptor of its own or none, and the driver watches
those descriptors and the listener's, for writing those whose connection says so. Every
function keeps this, whatever it returns: what closes a descriptor unwatches it first,
and a connection outside the table is closed, so that no call of user code reaches its
descriptor.
-/

namespace PhpWebSocket

open Lib

/-- A connection that had the descriptor `first`, and what the driver watches, where `reads`
    and `writes` are the interest of the others. If the calls are `logged`, they have led to
    that. -/
structure Link.Wired (logged : Prop) (first : Option Nat) (reads writes : Nat → Prop)
    (link : Link) : Prop where
  kept : ∀ n, link.conn.fd = some n → first = some n
  driver : ∃ d, link.env.driver = some d ∧ (logged → d.Recorded) ∧
    (∀ n, d.reads n = true ↔ reads n ∨ link.conn.fd = some n) ∧
    ∀ n, d.writes n = true ↔ writes n ∨ (link.conn.fd = some n ∧ link.conn.writeWatched = true)
  apart : ∀ n, link.conn.fd = some n → ¬ reads n ∧ ¬ writes n

/-- The table, the descriptors and the driver agree; the server listens on `listener`. -/
structure Tidy (logged : Prop) (server : Server) (listener : Option Nat) (h : Hub) : Prop where
  listening : h.listenerFd = listener
  nodup : h.connections.Nodup
  known : ∀ i ∈ h.connections, i < h.nextConnectionId
  present : ∀ i, (h.conn i).isOpen = true → i ∈ h.connections
  exclusive : Exclusive fun i => (h.conn i).fd
  apart : ∀ i n, (h.conn i).fd = some n → listener ≠ some n
  driver : ∃ d, h.env.driver = some d ∧ (logged → d.Recorded) ∧
    Watches (fun n => listener = some n) (· ∈ h.connections) (fun i => (h.conn i).fd)
      (fun _ => True) d.reads ∧
    Watches (fun _ => False) (· ∈ h.connections) (fun i => (h.conn i).fd)
      (fun i => (h.conn i).writeWatched = true) d.writes
  room : h.connections.length ≤ server.options.maxConnections

/-! ## One connection -/

theorem unwatch_driver {env : Env} {d : Driver} (driver : env.driver = some d) (fd : Option Nat) :
    ∃ d', (if fd.isSome then env.unwatch fd else env).driver = some d' ∧
      (d.Recorded → d'.Recorded) ∧
      (∀ n, d'.reads n = true ↔ d.reads n = true ∧ fd ≠ some n) ∧
      ∀ n, d'.writes n = true ↔ d.writes n = true ∧ fd ≠ some n := by
  cases fd with
  | none => exact ⟨d, driver, id, fun n => by simp, fun n => by simp⟩
  | some own =>
      rw [Option.isSome_some, if_pos rfl, Env.unwatch, Env.rewatch, driver]
      have legal : (DriverCall.unwatch own).Legal 0 d := trivial
      exact ⟨_, rfl, fun recorded => recorded.called legal,
        fun n => by simp [Driver.called, Driver.call, @eq_comm _ n own],
        fun n => by simp [Driver.called, Driver.call, @eq_comm _ n own]⟩

/-- Only a descriptor that is watched for reading is watched for writing. -/
theorem rewatch_watchWrite {env : Env} {d : Driver} (driver : env.driver = some d) {fd : Option Nat}
    (watched : ∀ n, fd = some n → d.reads n = true) :
    ∃ d', (env.rewatch (fd.map .watchWrite)).driver = some d' ∧ (d.Recorded → d'.Recorded) ∧
      d'.reads = d.reads ∧ ∀ n, d'.writes n = true ↔ d.writes n = true ∨ fd = some n := by
  cases fd with
  | none =>
      rw [Env.rewatch, driver]
      exact ⟨d, rfl, id, rfl, fun n => by simp⟩
  | some own =>
      rw [Env.rewatch, driver]
      have legal : (DriverCall.watchWrite own).Legal 0 d := watched own rfl
      exact ⟨_, rfl, fun recorded => recorded.called legal, rfl,
        fun n => by simp [Driver.called, Driver.call, @eq_comm _ n own]⟩

theorem unwatchWrite_driver {env : Env} {d : Driver} (driver : env.driver = some d)
    (fd : Option Nat) :
    ∃ d', (env.unwatchWrite fd).driver = some d' ∧ (d.Recorded → d'.Recorded) ∧
      d'.reads = d.reads ∧ ∀ n, d'.writes n = true ↔ d.writes n = true ∧ fd ≠ some n := by
  cases fd with
  | none =>
      rw [Env.unwatchWrite, Env.rewatch, driver]
      exact ⟨d, rfl, id, rfl, fun n => by simp⟩
  | some own =>
      rw [Env.unwatchWrite, Env.rewatch, driver]
      have legal : (DriverCall.unwatchWrite own).Legal 0 d := trivial
      exact ⟨_, rfl, fun recorded => recorded.called legal, rfl,
        fun n => by simp [Driver.called, Driver.call, @eq_comm _ n own]⟩

namespace Link

variable {logged : Prop} {first : Option Nat} {reads writes : Nat → Prop} {link : Link}

theorem Wired.of_same {link' : Link} (wired : link.Wired logged first reads writes)
    (fd : link'.conn.fd = link.conn.fd)
    (watched : link'.conn.writeWatched = link.conn.writeWatched)
    (driver : link'.env.driver = link.env.driver) : link'.Wired logged first reads writes := by
  constructor
  · rw [fd]
    exact wired.kept
  · rw [fd, watched, driver]
    exact wired.driver
  · rw [fd]
    exact wired.apart

theorem closeSocket_wired (wired : link.Wired logged first reads writes) :
    link.closeSocket.Wired logged first reads writes := by
  obtain ⟨d, driver, recorded, atReads, atWrites⟩ := wired.driver
  obtain ⟨d', after, kept, readsAfter, writesAfter⟩ := unwatch_driver driver link.conn.fd
  have closed : ∀ n, link.closeSocket.conn.fd ≠ some n := nofun
  refine ⟨fun n own => absurd own (closed n), ⟨d', after, fun log => kept (recorded log), ?_, ?_⟩,
    fun n own => absurd own (closed n)⟩
  · intro n
    rw [readsAfter, atReads, or_iff_left (closed n)]
    refine ⟨fun ⟨watched, free⟩ => watched.resolve_right free, fun other => ⟨Or.inl other, ?_⟩⟩
    intro own
    exact (wired.apart n own).1 other
  · intro n
    have given : ¬ (link.closeSocket.conn.fd = some n ∧
        link.closeSocket.conn.writeWatched = true) := fun own => closed n own.1
    rw [writesAfter, atWrites, or_iff_left given]
    refine ⟨fun ⟨watched, free⟩ => watched.resolve_right fun own => free own.1,
      fun other => ⟨Or.inl other, ?_⟩⟩
    intro own
    exact (wired.apart n own).2 other

theorem closeAfterWrite_wired (wired : link.Wired logged first reads writes) :
    link.closeAfterWrite.Wired logged first reads writes := by
  unfold closeAfterWrite
  split
  · exact wired
  · split
    · exact closeSocket_wired wired
    · exact wired.of_same rfl rfl rfl

/-- A frame is queued with its descriptor watched for writing, if the driver agrees. -/
theorem queueFrame_wired (wired : link.Wired logged first reads writes) (frame : Bytes) (offset : Nat) :
    (link.queueFrame frame offset).2.Wired logged first reads writes := by
  obtain ⟨d, driver, recorded, atReads, atWrites⟩ := wired.driver
  have watch := link.env.watchWrite_driver link.conn.fd
  simp only [queueFrame]
  split
  · exact wired.of_same rfl rfl rfl
  · split
    · rename_i unwatched
      simp only [Bool.not_eq_true', Bool.and_eq_true] at unwatched
      split
      · rename_i agreed
        rw [if_pos agreed] at watch
        obtain ⟨d', after, kept, readsAfter, writesAfter⟩ :=
          rewatch_watchWrite driver fun n own => (atReads n).mpr (Or.inr own)
        refine ⟨wired.kept, ⟨d', watch.trans after, fun log => kept (recorded log), ?_, ?_⟩,
          wired.apart⟩
        · rw [readsAfter]
          exact atReads
        · intro n
          rw [writesAfter, atWrites, unwatched.1]
          simp [Connection.enqueue]
      · rename_i refused
        rw [if_neg refused] at watch
        exact wired.of_same rfl rfl watch
    · exact wired.of_same rfl rfl rfl

theorem settle_wired {result : Bool × Link} (wired : result.2.Wired logged first reads writes) :
    (settle result).2.Wired logged first reads writes := by
  unfold settle
  split
  · exact wired.of_same rfl rfl rfl
  · exact wired

theorem sendFrame_wired (wired : link.Wired logged first reads writes) (payload : Bytes)
    (opcode : UInt8) :
    (link.sendFrame payload opcode).2.Wired logged first reads writes := by
  simp only [sendFrame, packPayload_server]
  split
  · exact wired
  · split
    · exact wired.of_same rfl rfl rfl
    · split
      · exact settle_wired (queueFrame_wired wired _ _)
      · split
        · refine settle_wired (queueFrame_wired ?_ _ _)
          exact wired.of_same rfl rfl rfl
        · apply settle_wired
          exact wired.of_same rfl rfl rfl

theorem flushLoop_wired (queue : List Bytes) (wired : link.Wired logged first reads writes) :
    (flushLoop queue link).2.Wired logged first reads writes := by
  induction queue generalizing link with
  | nil => exact wired
  | cons frame rest ih =>
      simp only [flushLoop]
      split
      · exact wired.of_same rfl rfl rfl
      · split
        · exact wired.of_same rfl rfl rfl
        · apply ih
          exact wired.of_same rfl rfl rfl

theorem unwatchWrite_wired (wired : link.Wired logged first reads writes) :
    Link.Wired logged first reads writes
      { conn := { link.conn with writeWatched := false }
        env := link.env.unwatchWrite link.conn.fd } := by
  obtain ⟨d, driver, recorded, atReads, atWrites⟩ := wired.driver
  obtain ⟨d', after, kept, readsAfter, writesAfter⟩ := unwatchWrite_driver driver link.conn.fd
  refine ⟨wired.kept, ⟨d', after, fun log => kept (recorded log), readsAfter ▸ atReads, ?_⟩,
    wired.apart⟩
  intro n
  rw [writesAfter, atWrites]
  simp only [Bool.false_eq_true, and_false, or_false]
  refine ⟨fun ⟨watched, other⟩ => watched.resolve_right fun own => other own.1, ?_⟩
  intro watched
  exact ⟨Or.inl watched, fun same => (wired.apart n same).2 watched⟩

theorem flush_wired (wired : link.Wired logged first reads writes) :
    link.flush.2.Wired logged first reads writes := by
  have looped := flushLoop_wired link.conn.writeQueue wired
  simp only [flush]
  split
  · exact wired
  · cases (flushLoop link.conn.writeQueue link).1 with
    | broken | blocked => exact looped
    | drained =>
        dsimp only
        split <;> split
        · exact closeSocket_wired (unwatchWrite_wired looped)
        · exact unwatchWrite_wired looped
        · exact closeSocket_wired looped
        · exact looped

end Link

/-! ## The table -/

namespace Hub

/-- What the driver watches for reading besides the descriptor of `i`. -/
def readOthers (listener : Option Nat) (h : Hub) (i : ConnId) : Nat → Prop :=
  others (fun n => listener = some n) (· ∈ h.connections) (fun i => (h.conn i).fd)
    (fun _ => True) i

/-- What the driver watches for writing besides the descriptor of `i`. -/
def writeOthers (h : Hub) (i : ConnId) : Nat → Prop :=
  others (fun _ => False) (· ∈ h.connections) (fun i => (h.conn i).fd)
    (fun i => (h.conn i).writeWatched = true) i

theorem conn_relink_of_ne (h : Hub) {i j : ConnId} (other : j ≠ i) (link : Link) :
    (h.relink i link).conn j = h.conn j :=
  Function.update_of_ne other ..

end Hub

namespace Tidy

variable {logged : Prop} {server : Server} {listener : Option Nat} {h h' : Hub} {i : ConnId}

theorem of_same (tidy : Tidy logged server listener h) (connections : h'.connections = h.connections)
    (next : h.nextConnectionId ≤ h'.nextConnectionId) (listens : h'.listenerFd = h.listenerFd)
    (driver : h'.env.driver = h.env.driver) (fd : ∀ j, (h'.conn j).fd = (h.conn j).fd)
    (watched : ∀ j, (h'.conn j).writeWatched = (h.conn j).writeWatched)
    (isOpen : ∀ j, (h'.conn j).isOpen = true → (h.conn j).isOpen = true) :
    Tidy logged server listener h' := by
  constructor
  · rw [listens]
    exact tidy.listening
  · rw [connections]
    exact tidy.nodup
  · rw [connections]
    intro j listed
    exact Nat.lt_of_lt_of_le (tidy.known j listed) next
  · rw [connections]
    intro j opened
    exact tidy.present j (isOpen j opened)
  · simp only [fd]
    exact tidy.exclusive
  · simp only [fd]
    exact tidy.apart
  · simp only [connections, driver, fd, watched]
    exact tidy.driver
  · rw [connections]
    exact tidy.room

theorem wired (tidy : Tidy logged server listener h) (here : i ∈ h.connections) :
    (h.link i).Wired logged (h.conn i).fd (h.readOthers listener i) (h.writeOthers i) := by
  obtain ⟨d, driver, recorded, reads, writes⟩ := tidy.driver
  constructor
  · intro n own
    exact own
  · refine ⟨d, driver, recorded, ?_, ?_⟩
    · intro n
      rw [(watches_iff i).mp reads n]
      exact or_congr_right ⟨fun own => own.2.1, fun own => ⟨here, own, trivial⟩⟩
    · intro n
      rw [(watches_iff i).mp writes n]
      exact or_congr_right ⟨fun own => own.2, fun own => ⟨here, own⟩⟩
  · intro n own
    exact ⟨not_others tidy.exclusive own (tidy.apart i n own), not_others tidy.exclusive own id⟩

/-- A listed connection that keeps its descriptor or loses it. -/
theorem relink (tidy : Tidy logged server listener h) (here : i ∈ h.connections) {link : Link}
    (wired : link.Wired logged (h.conn i).fd (h.readOthers listener i) (h.writeOthers i)) :
    Tidy logged server listener (h.relink i link) := by
  have held : ∀ j n, ((h.relink i link).conn j).fd = some n → (h.conn j).fd = some n := by
    intro j n has
    by_cases same : j = i
    · subst same
      rw [Hub.conn_relink] at has
      exact wired.kept n has
    · rwa [h.conn_relink_of_ne same] at has
  have elsewhere : ∀ j, j ≠ i → ((h.relink i link).conn j) = h.conn j :=
    fun j other => h.conn_relink_of_ne other link
  constructor
  · exact tidy.listening
  · exact tidy.nodup
  · exact tidy.known
  · intro j opened
    by_cases same : j = i
    · exact same ▸ here
    · rw [elsewhere j same] at opened
      exact tidy.present j opened
  · intro j k n first second
    exact tidy.exclusive (held j n first) (held k n second)
  · intro j n has
    exact tidy.apart j n (held j n has)
  · obtain ⟨d, driver, recorded, reads, writes⟩ := wired.driver
    refine ⟨d, driver, recorded, (watches_iff i).mpr ?_, (watches_iff i).mpr ?_⟩
    · intro n
      rw [reads, Hub.conn_relink]
      refine or_congr (Iff.symm ?_) ⟨fun own => ⟨here, own, trivial⟩, fun own => own.2.1⟩
      exact others_congr (fun _ _ => Iff.rfl) (fun j other => by rw [elsewhere j other])
        (fun _ _ => Iff.rfl) n
    · intro n
      rw [writes, Hub.conn_relink]
      refine or_congr (Iff.symm ?_) ⟨fun own => ⟨here, own⟩, fun own => own.2⟩
      exact others_congr (fun _ _ => Iff.rfl) (fun j other => by rw [elsewhere j other])
        (fun j other => by rw [elsewhere j other]) n
  · exact tidy.room

theorem absent (tidy : Tidy logged server listener h) (gone : i ∉ h.connections) :
    (h.conn i).isOpen = false :=
  Bool.eq_false_iff.mpr fun opened => gone (tidy.present i opened)

theorem setConn (tidy : Tidy logged server listener h) {conn : Connection} (fd : conn.fd = (h.conn i).fd)
    (watched : conn.writeWatched = (h.conn i).writeWatched)
    (isOpen : conn.isOpen = true → (h.conn i).isOpen = true) :
    Tidy logged server listener (h.setConn i conn) := by
  have same (j : ConnId) : (h.setConn i conn).conn j = h.conn j ∨
      (j = i ∧ (h.setConn i conn).conn j = conn) := by
    by_cases same : j = i
    · exact Or.inr ⟨same, by rw [same, Hub.conn_setConn]⟩
    · exact Or.inl (Function.update_of_ne same ..)
  refine tidy.of_same rfl le_rfl rfl rfl ?_ ?_ ?_
  · intro j
    rcases same j with same | ⟨rfl, same⟩ <;> rw [same]
    exact fd
  · intro j
    rcases same j with same | ⟨rfl, same⟩ <;> rw [same]
    exact watched
  · intro j opened
    rcases same j with same | ⟨rfl, same⟩ <;> rw [same] at opened
    · exact opened
    · exact isOpen opened

theorem env (tidy : Tidy logged server listener h) {env : Env} (driver : env.driver = h.env.driver) :
    Tidy logged server listener { h with env } :=
  tidy.of_same rfl le_rfl rfl driver (fun _ => rfl) (fun _ => rfl) fun _ => id

theorem emit (tidy : Tidy logged server listener h) (e : Event) :
    Tidy logged server listener (h.emit e) :=
  tidy.of_same rfl le_rfl rfl rfl (fun _ => rfl) (fun _ => rfl) fun _ => id

theorem raise (tidy : Tidy logged server listener h) (e : PhpError) :
    Tidy logged server listener (h.raise e) :=
  tidy.env rfl

theorem closeSocket (tidy : Tidy logged server listener h) (i : ConnId) :
    Tidy logged server listener (h.closeSocket i) := by
  have elsewhere : ∀ j, j ≠ i → (h.closeSocket i).conn j = h.conn j :=
    fun j other => h.conn_relink_of_ne other _
  have closed : (h.closeSocket i).conn i = (h.conn i).closeSocket := h.conn_relink i _
  have held : ∀ j n, ((h.closeSocket i).conn j).fd = some n → (h.conn j).fd = some n := by
    intro j n has
    by_cases same : j = i
    · rw [same, closed] at has
      cases has
    · rwa [elsewhere j same] at has
  constructor
  · exact tidy.listening
  · exact tidy.nodup
  · exact tidy.known
  · intro j opened
    by_cases same : j = i
    · rw [same, closed] at opened
      cases opened
    · rw [elsewhere j same] at opened
      exact tidy.present j opened
  · intro j k n first second
    exact tidy.exclusive (held j n first) (held k n second)
  · intro j n has
    exact tidy.apart j n (held j n has)
  · obtain ⟨d, driver, recorded, reads, writes⟩ := tidy.driver
    obtain ⟨d', after, kept, readsAfter, writesAfter⟩ := unwatch_driver driver (h.conn i).fd
    have gone : ((h.closeSocket i).conn i).fd = none := by rw [closed]; rfl
    refine ⟨d', after, fun log => kept (recorded log), ?_, ?_⟩
    · exact reads.drop tidy.exclusive (tidy.apart i) readsAfter (fun _ _ => Iff.rfl)
        (fun j other => by rw [elsewhere j other]) (fun _ _ => Iff.rfl) fun _ => gone
    · exact writes.drop tidy.exclusive (fun _ _ => id) writesAfter (fun _ _ => Iff.rfl)
        (fun j other => by rw [elsewhere j other]) (fun j other => by rw [elsewhere j other])
        fun _ => gone
  · exact tidy.room

/-- What an operation does to a listed connection, when it leaves the others alone. -/
theorem operate (tidy : Tidy logged server listener h) {link : Link}
    (wired : ∀ first reads writes, (h.link i).Wired logged first reads writes →
      link.Wired logged first reads writes)
    (refused : (h.conn i).isOpen = false → link = h.link i) :
    Tidy logged server listener (h.relink i link) := by
  by_cases here : i ∈ h.connections
  · exact tidy.relink here (wired _ _ _ (tidy.wired here))
  · rw [refused (tidy.absent here)]
    exact tidy.of_same rfl le_rfl rfl rfl (fun j => by simp [Hub.relink, Hub.link])
      (fun j => by simp [Hub.relink, Hub.link]) fun j opened => by
        simpa [Hub.relink, Hub.link] using opened

theorem sendBytes_driver (env : Env) (fd : Option Nat) (text : Bytes) :
    (env.sendBytes fd text).2.driver = env.driver := by
  unfold Env.sendBytes
  split
  · split <;> rfl
  · rfl

theorem op (tidy : Tidy logged server listener h) (op : Op h h') :
    Tidy logged server listener h' := by
  cases op with
  | mark i mark =>
      cases mark with
      | shut => exact tidy.setConn rfl rfl nofun
      | fragment | pong | notified | defer => exact tidy.setConn rfl rfl id
  | closeSocket => exact tidy.closeSocket _
  | closeAfterWrite i =>
      apply tidy.operate (fun _ _ _ => Link.closeAfterWrite_wired)
      intro shut
      rw [Link.closeAfterWrite, if_pos (by simp [Hub.link, shut])]
  | flush i =>
      apply tidy.operate (fun _ _ _ => Link.flush_wired)
      intro shut
      rw [Link.flush, if_pos (by simp [Hub.link, shut])]
  | send i payload opcode =>
      apply tidy.operate (fun _ _ _ wired => Link.sendFrame_wired wired payload opcode)
      intro shut
      have refused : ¬ (h.link i).conn.Reading := fun reading =>
        Bool.false_ne_true (shut.symm.trans reading.1)
      rw [Link.sendFrame_refused refused]
  | respond => exact tidy.env (sendBytes_driver _ _ _)
  | emit => exact tidy.emit _
  | raise => exact tidy.raise _
  | seen | stop => exact tidy.of_same rfl le_rfl rfl rfl (fun _ => rfl) (fun _ => rfl) fun _ => id

theorem ops (tidy : Tidy logged server listener h) (ops : Ops h h') :
    Tidy logged server listener h' := by
  induction ops with
  | refl => exact tidy
  | tail _ op ih => exact ih.op op

theorem now (tidy : Tidy logged server listener h) : Tidy logged server listener h.now.2 := by
  apply tidy.env
  unfold Env.now
  split <;> rfl

theorem heeds {w w' : World} (heeds : Heeds i w w') (tidy : Tidy logged server listener w.toHub) :
    Tidy logged server listener w'.toHub := by
  induction heeds with
  | refl => exact tidy
  | tail _ heed ih =>
      cases heed with
      | recvs => exact ih.env rfl
      | touch => exact ih.now.setConn rfl rfl id
      | turn turn =>
          cases turn with
          | op op => exact ih.op op
          | errno => exact ih.env rfl
          | reads => exact ih
          | beat | upgrade => exact ih.setConn rfl rfl id

/-! ### The table -/

theorem mem_eraseIdx {connections : List ConnId} (nodup : connections.Nodup) {index : Nat}
    (here : connections[index]? = some i) (j : ConnId) :
    j ∈ connections.eraseIdx index ↔ j ∈ connections ∧ j ≠ i := by
  rw [List.mem_eraseIdx_iff_getElem?]
  constructor
  · rintro ⟨k, other, atK⟩
    refine ⟨List.mem_of_getElem? atK, fun same => other ?_⟩
    obtain ⟨inside, -⟩ := List.getElem?_eq_some_iff.mp atK
    exact (List.getElem?_inj inside nodup).mp (by rw [atK, same, here])
  · rintro ⟨member, other⟩
    obtain ⟨k, atK⟩ := List.getElem?_of_mem member
    refine ⟨k, fun same => other ?_, atK⟩
    rw [same, here] at atK
    exact (Option.some.inj atK).symm

theorem remove (tidy : Tidy logged server listener h) {index : Nat} (here : h.connections[index]? = some i) :
    Tidy logged server listener { h.shutDown i with connections := h.connections.eraseIdx index } := by
  have member (j : ConnId) := mem_eraseIdx tidy.nodup here j
  have elsewhere : ∀ j, j ≠ i → (h.shutDown i).conn j = h.conn j :=
    fun j other => Function.update_of_ne other ..
  have fd : ∀ j, ((h.shutDown i).conn j).fd = (h.conn j).fd := by
    intro j
    by_cases same : j = i
    · rw [same, Hub.shutDown, Hub.shut, Hub.conn_setConn]
    · rw [elsewhere j same]
  constructor
  · exact tidy.listening
  · exact tidy.nodup.eraseIdx index
  · intro j listed
    exact tidy.known j (List.mem_of_mem_eraseIdx listed)
  · intro j opened
    have other : j ≠ i := by
      rintro rfl
      exact Bool.false_ne_true ((h.shutDown_closed j).symm.trans opened)
    refine (member j).mpr ⟨tidy.present j ?_, other⟩
    rw [← elsewhere j other]
    exact opened
  · simp only [fd]
    exact tidy.exclusive
  · simp only [fd]
    exact tidy.apart
  · obtain ⟨d, driver, recorded, reads, writes⟩ := tidy.driver
    obtain ⟨d', after, kept, readsAfter, writesAfter⟩ := unwatch_driver driver (h.conn i).fd
    have gone {held : Option Nat} (listed : i ∈ h.connections.eraseIdx index) : held = none :=
      absurd rfl ((member i).mp listed).2
    have list (j : ConnId) (other : j ≠ i) : j ∈ h.connections.eraseIdx index ↔ j ∈ h.connections :=
      (member j).trans (and_iff_left other)
    refine ⟨d', after, fun log => kept (recorded log), ?_, ?_⟩
    · exact reads.drop tidy.exclusive (tidy.apart i) readsAfter list (fun j _ => fd j)
        (fun _ _ => Iff.rfl) gone
    · exact writes.drop tidy.exclusive (fun _ _ => id) writesAfter list (fun j _ => fd j)
        (fun j other => by rw [elsewhere j other]) gone
  · exact (List.length_eraseIdx_le _ _).trans tidy.room

theorem closeConnectionAt (tidy : Tidy logged server listener h) (index : Nat) (notify : Bool) :
    Tidy logged server listener (h.closeConnectionAt server index notify).2 := by
  cases here : h.connections[index]? with
  | none =>
      rw [Hub.closeConnectionAt, here]
      exact tidy
  | some i =>
      have gone := tidy.remove here
      rw [Hub.closeConnectionAt_eq here]
      dsimp only
      split
      · exact (gone.ops (Hub.notifyConnectionClosed_calm server _ i).ops).closeSocket i
      · exact gone.closeSocket i

theorem purgeFrom (tidy : Tidy logged server listener h) (fuel index : Nat) :
    Tidy logged server listener (h.purgeFrom server fuel index).2 := by
  induction fuel generalizing h index with
  | zero => exact tidy
  | succ fuel ih =>
      simp only [Hub.purgeFrom]
      split
      · exact tidy
      · split
        · split
          · exact ih (tidy.closeConnectionAt index true) index
          · exact tidy.closeConnectionAt index true
        · exact ih tidy (index + 1)

theorem closeAllFrom (tidy : Tidy logged server listener h) (fuel : Nat) (notify : Bool) :
    Tidy logged server listener (h.closeAllFrom server fuel notify).2 := by
  induction fuel generalizing h with
  | zero => exact tidy
  | succ fuel ih =>
      simp only [Hub.closeAllFrom]
      split
      · exact tidy
      · split
        · exact ih (tidy.closeConnectionAt _ notify)
        · exact tidy.closeConnectionAt _ notify

theorem unlistened (tidy : Tidy logged server listener h) :
    Tidy logged server none h.unlistened := by
  obtain ⟨d, driver, recorded, reads, writes⟩ := tidy.driver
  obtain ⟨d', after, kept, readsAfter, writesAfter⟩ := unwatch_driver driver listener
  have other {i n} (own : (h.conn i).fd = some n) : listener ≠ some n := tidy.apart i n own
  have shape : h.unlistened = { h with
      listenerFd := none, env := if listener.isSome then h.env.unwatch listener else h.env } := by
    rw [Hub.unlistened, tidy.listening]
    cases listener with
    | none =>
        have same : { h with listenerFd := none } = h := by rw [← tidy.listening]
        exact same.symm
    | some fd => rfl
  rw [shape]
  refine ⟨rfl, tidy.nodup, tidy.known, tidy.present, tidy.exclusive,
    fun _ _ _ same => (Option.some_ne_none _).symm same,
    ⟨d', after, fun log => kept (recorded log), ?_, ?_⟩, tidy.room⟩
  · intro n
    rw [readsAfter, reads n]
    constructor
    · rintro ⟨own | held, free⟩
      · exact absurd own free
      · exact Or.inr held
    · rintro (none | held)
      · cases none
      · exact ⟨Or.inr held, other held.choose_spec.2.1⟩
  · intro n
    rw [writesAfter, writes n]
    refine ⟨fun watched => watched.1, ?_⟩
    rintro (never | held)
    · exact never.elim
    · exact ⟨Or.inr held, other held.choose_spec.2.1⟩

theorem closeAllConnections (tidy : Tidy logged server listener h) (notify : Bool) :
    Tidy logged server listener (h.closeAllConnections server notify).2 :=
  tidy.closeAllFrom _ notify

/-- The second attempt tells nobody, and so it closes all that is left. -/
theorem runtimeClose (tidy : Tidy logged server listener h) (notify : Bool) :
    Tidy logged server none (h.runtimeClose server notify) ∧
      (h.runtimeClose server notify).connections = [] := by
  have first := tidy.unlistened.closeAllConnections notify
  rw [Hub.runtimeClose_eq]
  dsimp only
  split
  · rename_i ok
    exact ⟨first, Hub.closeAllFrom_empty _ _ notify le_rfl ok⟩
  · exact ⟨first.closeAllConnections false,
      Hub.closeAllFrom_empty _ _ false le_rfl (Hub.closeAllFrom_silent _ _)⟩

end Tidy

/-! ## New connections -/

namespace Tidy

variable {logged : Prop} {server : Server} {listener : Option Nat} {h h' : Hub} {fd : Nat}

/-- The table grows by a connection with a descriptor that nobody has. -/
theorem enlist (tidy : Tidy logged server listener h)
    (connections : h'.connections = h.connections ++ [h.nextConnectionId])
    (next : h'.nextConnectionId = h.nextConnectionId + 1) (listening : h'.listenerFd = h.listenerFd)
    (elsewhere : ∀ j, j ≠ h.nextConnectionId → h'.conn j = h.conn j)
    (own : (h'.conn h.nextConnectionId).fd = some fd)
    (unwatched : (h'.conn h.nextConnectionId).writeWatched = false)
    (listens : listener ≠ some fd) (unused : ∀ i, (h.conn i).fd ≠ some fd)
    (room : h.connections.length < server.options.maxConnections)
    (driver : h'.env.driver = h.env.driver.map fun d => d.called (.watchRead fd)) :
    Tidy logged server listener h' := by
  have absent : h.nextConnectionId ∉ h.connections := fun listed =>
    Nat.lt_irrefl _ (tidy.known _ listed)
  have list (j : ConnId) : j ∈ h'.connections ↔ j ∈ h.connections ∨ j = h.nextConnectionId := by
    rw [connections, List.mem_append, List.mem_singleton]
  have old {j n} (other : j ≠ h.nextConnectionId) (has : (h'.conn j).fd = some n) :
      (h.conn j).fd = some n ∧ n ≠ fd := by
    rw [elsewhere j other] at has
    exact ⟨has, fun same => unused j (same ▸ has)⟩
  have new {n} (has : (h'.conn h.nextConnectionId).fd = some n) : n = fd :=
    Option.some.inj (has.symm.trans own)
  constructor
  · rw [listening]
    exact tidy.listening
  · rw [connections, List.nodup_append]
    refine ⟨tidy.nodup, List.nodup_singleton _, fun j listed k here same => absent ?_⟩
    rw [← List.mem_singleton.mp here, ← same]
    exact listed
  · intro j listed
    rw [next]
    rcases (list j).mp listed with earlier | rfl
    · exact Nat.lt_succ_of_lt (tidy.known j earlier)
    · exact Nat.lt_succ_self _
  · intro j opened
    by_cases same : j = h.nextConnectionId
    · exact (list j).mpr (Or.inr same)
    · rw [elsewhere j same] at opened
      exact (list j).mpr (Or.inl (tidy.present j opened))
  · intro j k n first second
    by_cases atJ : j = h.nextConnectionId <;> by_cases atK : k = h.nextConnectionId
    · exact atJ.trans atK.symm
    · exact absurd (new (atJ ▸ first)) (old atK second).2
    · exact absurd (new (atK ▸ second)) (old atJ first).2
    · exact tidy.exclusive (old atJ first).1 (old atK second).1
  · intro j n has
    by_cases same : j = h.nextConnectionId
    · have at_fd : n = fd := new (same ▸ has)
      rw [at_fd]
      exact listens
    · exact tidy.apart j n (old same has).1
  · obtain ⟨d, before, recorded, reads, writes⟩ := tidy.driver
    rw [before] at driver
    have unread : d.reads fd = false := by
      rw [Bool.eq_false_iff, Ne, reads fd]
      rintro (listening | ⟨j, -, has, -⟩)
      · exact listens listening
      · exact unused j has
    have legal : (DriverCall.watchRead fd).Legal (fd + 1) d := ⟨Nat.lt_succ_self fd, unread⟩
    refine ⟨_, driver, fun log => (recorded log).called legal, ?_, ?_⟩
    · apply reads.enlist absent list (fun j other => by rw [elsewhere j other])
        (fun _ _ => Iff.rfl) own
      intro n
      simp only [Driver.called, Driver.call]
      rw [Bool.or_eq_true, decide_eq_true_iff, and_true, @eq_comm _ n fd]
    · apply writes.enlist absent list (fun j other => by rw [elsewhere j other])
        (fun j other => by rw [elsewhere j other]) own
      intro n
      simp [Driver.called, Driver.call, unwatched]
  · rw [connections, List.length_append, List.length_singleton]
    exact room

theorem discard (tidy : Tidy logged server listener h) (connections : h'.connections = h.connections)
    (next : h'.nextConnectionId = h.nextConnectionId + 1) (listening : h'.listenerFd = h.listenerFd)
    (elsewhere : ∀ j, j ≠ h.nextConnectionId → h'.conn j = h.conn j)
    (closed : (h'.conn h.nextConnectionId).fd = none)
    (shut : (h'.conn h.nextConnectionId).isOpen = false)
    (listens : listener ≠ some fd) (unused : ∀ i, (h.conn i).fd ≠ some fd)
    (driver : h'.env.driver = (h.env.unwatch (some fd)).driver) :
    Tidy logged server listener h' := by
  have absent : h.nextConnectionId ∉ h.connections := fun listed =>
    Nat.lt_irrefl _ (tidy.known _ listed)
  have listed : ∀ j ∈ h.connections, h'.conn j = h.conn j := fun j member =>
    elsewhere j fun same => absent (same ▸ member)
  have old {j n} (has : (h'.conn j).fd = some n) : (h.conn j).fd = some n := by
    by_cases same : j = h.nextConnectionId
    · rw [same, closed] at has
      cases has
    · rwa [elsewhere j same] at has
  obtain ⟨d, before, recorded, reads, writes⟩ := tidy.driver
  obtain ⟨d', after, kept, readsAfter, writesAfter⟩ := unwatch_driver before (some fd)
  constructor
  · rw [listening]
    exact tidy.listening
  · rw [connections]
    exact tidy.nodup
  · rw [connections, next]
    intro j listed
    exact Nat.lt_succ_of_lt (tidy.known j listed)
  · intro j opened
    by_cases same : j = h.nextConnectionId
    · rw [same, shut] at opened
      cases opened
    · rw [elsewhere j same] at opened
      rw [connections]
      exact tidy.present j opened
  · intro j k n first second
    exact tidy.exclusive (old first) (old second)
  · intro j n has
    exact tidy.apart j n (old has)
  · have free {n} : d.reads n = true → some fd ≠ some n := by
      rintro watched ⟨⟩
      rcases (reads fd).mp watched with listening | ⟨j, -, has, -⟩
      · exact listens listening
      · exact unused j has
    have free' {n} : d.writes n = true → some fd ≠ some n := by
      rintro watched ⟨⟩
      rcases (writes fd).mp watched with never | ⟨j, -, has, -⟩
      · exact never
      · exact unused j has
    have list (j : ConnId) : j ∈ h'.connections ↔ j ∈ h.connections := by rw [connections]
    have readsSame : Watches (fun n => listener = some n) (· ∈ h.connections)
        (fun i => (h.conn i).fd) (fun _ => True) d'.reads := fun n => by
      rw [readsAfter, ← reads n, and_iff_left_of_imp free]
    have writesSame : Watches (fun _ => False) (· ∈ h.connections) (fun i => (h.conn i).fd)
        (fun i => (h.conn i).writeWatched = true) d'.writes := fun n => by
      rw [writesAfter, ← writes n, and_iff_left_of_imp free']
    exact ⟨d', driver.trans after, fun log => kept (recorded log),
      readsSame.congr list (fun j here => by rw [listed j here]) fun _ _ => Iff.rfl,
      writesSame.congr list (fun j here => by rw [listed j here]) fun j here => by
        rw [listed j here]⟩
  · rw [connections]
    exact tidy.room

end Tidy

/-- `accept` returns no descriptor that is open. -/
def AcceptResult.Unused (w : World) : AcceptResult → Prop
  | .client fd _ => w.listenerFd ≠ some fd ∧ ∀ i, (w.conn i).fd ≠ some fd
  | .failed _ => True

namespace World

variable {logged : Prop} {server : Server} {listener : Option Nat} {w : World} {i : ConnId}

/-- A new client is listed and watched, or closed again. -/
theorem openConnection_tidy (tidy : Tidy logged server listener w.toHub) {fd : Nat}
    (listens : listener ≠ some fd) (unused : ∀ i, (w.conn i).fd ≠ some fd)
    (room : w.connections.length < server.options.maxConnections) :
    Tidy logged server listener (w.openConnection server fd).2.toHub := by
  have watch := w.env.now.2.watchRead_driver fd
  have clock : w.env.now.2.driver = w.env.driver := by
    unfold Env.now
    split <;> rfl
  have elsewhere : ∀ j, j ≠ w.nextConnectionId → (w.newcomer server fd).conn j = w.conn j :=
    fun j other => Function.update_of_ne other ..
  have here : (w.newcomer server fd).conn w.nextConnectionId = { Connection.opened fd with
      acceptedAtUsec := w.env.now.1
      lastActivityUsec := w.env.now.1
      maxQueuedBytes := server.options.maxQueuedBytes } := Function.update_self ..
  cases watched : (w.env.now.2.watchRead fd).1 with
  | true =>
      rw [watched, if_pos rfl, Env.rewatch, clock] at watch
      rw [openConnection_watched watched]
      have listed : Tidy logged server listener (w.newcomer server fd) :=
        tidy.enlist rfl rfl rfl elsewhere (by rw [here]; rfl) (by rw [here]; rfl) listens unused room
          watch
      exact listed.emit _
  | false =>
      rw [watched, if_neg Bool.false_ne_true, clock] at watch
      rw [openConnection_unwatched watched]
      have closed : Tidy logged server listener
          { (w.newcomer server fd).closeSocket w.nextConnectionId with
            connections := w.connections } := by
        refine tidy.discard rfl rfl rfl ?_ ?_ ?_ listens unused ?_
        · intro j other
          exact (Hub.conn_relink_of_ne _ other _).trans (elsewhere j other)
        · exact congrArg Connection.fd (Hub.conn_relink _ _ _)
        · exact congrArg Connection.isOpen (Hub.conn_relink _ _ _)
        · have own : ((w.newcomer server fd).conn w.nextConnectionId).fd = some fd := by
            rw [here]
            rfl
          have unwatched : ((w.newcomer server fd).closeSocket w.nextConnectionId).env =
              (w.env.now.2.watchRead fd).2.unwatch (some fd) := by
            simp only [Hub.closeSocket, Hub.relink, Link.closeSocket, Hub.link, own,
              Option.isSome_some, if_true]
            rfl
          change ((w.newcomer server fd).closeSocket w.nextConnectionId).env.driver = _
          rw [unwatched, Env.unwatch, Env.rewatch, watch]
          rfl
      exact closed.raise _

theorem acceptConnection_tidy (tidy : Tidy logged server listener w.toHub) (answer : AcceptResult)
    (unused : answer.Unused w) :
    Tidy logged server listener (w.acceptConnection server answer).2.toHub := by
  cases answer with
  | failed e => exact tidy.env rfl
  | client fd nonblocking =>
      obtain ⟨listens, unused⟩ := unused
      rw [tidy.listening] at listens
      have cleared : Tidy logged server listener { w.toHub with env := { w.env with errno := none } } :=
        tidy.env rfl
      simp only [acceptConnection, acceptClient]
      split
      · exact (cleared.env (Tidy.sendBytes_driver _ _ _)).emit _
      · rename_i full
        split
        · exact cleared.raise _
        · exact openConnection_tidy
            (w := { w with env := { w.env with errno := none } }) cleared listens unused
            (Nat.lt_of_not_le full)

variable (server) in
/-- `accept` returns no descriptor that is open, as long as the loop of `accept_pending`
    asks. -/
def AcceptsUnused : List AcceptResult → Nat → World → Prop
  | [], _, _ => True
  | answer :: rest, accepted, w =>
      (w.running && !w.stopped && accepted < acceptBatchLimit) = true →
        let asked := { w with env := { w.env with accepts := rest } }
        let done := asked.acceptConnection server answer
        answer.Unused w ∧ (done.1 = true → AcceptsUnused rest (accepted + 1) done.2) ∧
          (done.1 = false → done.2.env.exception = none → done.2.env.errno = some .eintr →
            AcceptsUnused rest accepted done.2)

theorem acceptLoop_tidy (answers : List AcceptResult) (accepted : Nat)
    (tidy : Tidy logged server listener w.toHub) (unused : AcceptsUnused server answers accepted w) :
    Tidy logged server listener (w.acceptLoop server answers accepted).2.toHub := by
  induction answers generalizing w accepted with
  | nil =>
      unfold acceptLoop
      split
      · exact tidy
      · exact tidy.env rfl
  | cons answer rest ih =>
      unfold acceptLoop
      split
      · exact tidy
      · rename_i asks
        obtain ⟨fresh, later, again⟩ := unused (by simpa using asks)
        have done := acceptConnection_tidy (w := { w with env := { w.env with accepts := rest } })
          (tidy.env rfl) answer fresh
        dsimp only at later again ⊢
        split
        · rename_i ok
          exact ih _ done (later ok)
        · rename_i failed
          split
          · exact done
          · rename_i quiet
            split
            · exact done
            · split
              · rename_i interrupted
                exact ih _ done (again (by simpa using failed) (by simpa using quiet) interrupted)
              · exact done

/-! ## The loop -/

theorem processConnectionFd_tidy (tidy : Tidy logged server listener w.toHub) (fd : Nat) :
    Tidy logged server listener (w.processConnectionFd server fd).2.toHub := by
  rw [processConnectionFd_eq]
  split
  · exact tidy.now
  · exact Tidy.heeds (serveReady_heeds server _ _) tidy.now

theorem processEach_tidy (nowUsec : Nat) (connections : List ConnId)
    (tidy : Tidy logged server listener w.toHub) :
    Tidy logged server listener (w.processEach server nowUsec connections).2.toHub := by
  induction connections generalizing w with
  | nil => exact tidy
  | cons i rest ih =>
      have done := Tidy.heeds (processConnection_heeds server (i := i) w nowUsec) tidy
      simp only [processEach]
      split
      · exact ih done
      · exact done

theorem processConnections_tidy (tidy : Tidy logged server listener w.toHub) :
    Tidy logged server listener (w.processConnections server).2.toHub :=
  processEach_tidy _ _ tidy.now

theorem processReady_tidy (tidy : Tidy logged server listener w.toHub) (wait : WaitResult)
    (unused : ∀ fd, wait = .ready fd → w.listenerFd = some fd →
      AcceptsUnused server w.env.accepts 0 w) :
    Tidy logged server listener (w.processReady server wait).2.toHub := by
  cases wait with
  | ready fd =>
      simp only [processReady]
      split
      · rename_i listening
        exact acceptLoop_tidy _ _ tidy (unused fd rfl listening)
      · exact processConnectionFd_tidy tidy fd
  | idle | failed => exact tidy

theorem runRound_tidy (tidy : Tidy logged server listener w.toHub) (wait : WaitResult)
    (unused : ∀ fd, wait = .ready fd → w.listenerFd = some fd →
      AcceptsUnused server w.env.accepts 0 w) :
    Tidy logged server listener (w.runRound server wait).2.toHub := by
  have served : Tidy logged server listener (w.serve server wait).2.toHub := by
    have ready := processReady_tidy tidy wait unused
    have processed := processConnections_tidy ready
    simp only [serve]
    split
    · exact ready
    · split
      · exact processed
      · exact processed.purgeFrom _ _
  cases wait with
  | ready | idle => exact served
  | failed e =>
      have told : Tidy logged server listener (w.setErrno e).toHub := tidy.env rfl
      simp only [runRound]
      split
      · exact told
      · exact told.raise _

variable (server) in
/-- `accept` returns no descriptor that is open, in any round of the loop. -/
def RunUnused : List WaitResult → World → Prop
  | [], _ => True
  | wait :: rest, w =>
      (w.running && !w.stopped) = true →
        (∀ fd, wait = .ready fd → w.listenerFd = some fd → AcceptsUnused server w.env.accepts 0 w) ∧
          ((w.runRound server wait).1 = true → RunUnused rest (w.runRound server wait).2)

theorem runLoop_tidy (waits : List WaitResult) (tidy : Tidy logged server listener w.toHub)
    (unused : RunUnused server waits w) :
    Tidy logged server listener (w.runLoop server waits).2.toHub := by
  induction waits generalizing w with
  | nil =>
      unfold runLoop
      split <;> exact tidy
  | cons wait rest ih =>
      unfold runLoop
      split
      · exact tidy
      · rename_i going
        obtain ⟨fresh, later⟩ := unused (by simpa using going)
        have round := runRound_tidy tidy wait fresh
        dsimp only
        split
        · rename_i ok
          exact ih round (later ok)
        · exact round

end World

/-! ## Runs -/

/-- No run is going on: the table is empty, and the driver watches nothing. -/
structure Idle (h : Hub) : Prop where
  connections : h.connections = []
  listener : h.listenerFd = none
  closed : ∀ i, (h.conn i).isOpen = false ∧ (h.conn i).fd = none
  driver : ∃ d, h.env.driver = some d ∧ (∀ n, d.reads n = false) ∧ ∀ n, d.writes n = false

/-- The server listens on `fd`. -/
def World.listens (w : World) (fd : Nat) : World :=
  { w with listenerFd := some fd, env := (w.env.watchRead fd).2 }

/-- The table, the descriptors and the driver agree while the server waits. -/
structure DescriptorsAgree (server : Server) (listener : Nat) (h : Hub) : Prop where
  listening : h.listenerFd = some listener
  nodup : h.connections.Nodup
  distinct : ∀ i ∈ h.connections, ∀ j ∈ h.connections, ∀ n, (h.conn i).fd = some n →
    (h.conn j).fd = some n → i = j
  apart : ∀ i ∈ h.connections, (h.conn i).fd ≠ some listener
  reads : ∃ d, h.env.driver = some d ∧ ∀ n, d.reads n = true ↔
    n = listener ∨ ∃ i ∈ h.connections, (h.conn i).fd = some n
  writes : ∃ d, h.env.driver = some d ∧ ∀ n, d.writes n = true ↔
    ∃ i ∈ h.connections, (h.conn i).fd = some n ∧ (h.conn i).writeWatched = true
  room : h.connections.length ≤ server.options.maxConnections

theorem Tidy.agree {logged : Prop} {server : Server} {listener : Nat} {h : Hub}
    (tidy : Tidy logged server (some listener) h) : DescriptorsAgree server listener h := by
  obtain ⟨d, driver, -, reads, writes⟩ := tidy.driver
  refine ⟨tidy.listening, tidy.nodup, fun i _ j _ n first second => tidy.exclusive first second,
    fun i _ own => tidy.apart i listener own rfl, ⟨d, driver, ?_⟩, ⟨d, driver, ?_⟩,
    tidy.room⟩
  · intro n
    refine (reads n).trans (or_congr ?_ ?_)
    · exact Option.some_inj.trans eq_comm
    · exact exists_congr fun i => and_congr_right fun _ => and_iff_left trivial
  · intro n
    exact (writes n).trans (or_iff_right id)

theorem Idle.tidy {logged : Prop} {server : Server} {w : World} (idle : Idle w.toHub)
    (recorded : logged → ∀ d, w.env.driver = some d → d.Recorded) {fd : Nat}
    (watched : (w.env.watchRead fd).1 = true) :
    Tidy logged server (some fd) (w.listens fd).toHub := by
  have watch := w.env.watchRead_driver fd
  obtain ⟨d, driver, reads, writes⟩ := idle.driver
  rw [watched, if_pos rfl, Env.rewatch, driver] at watch
  have legal : (DriverCall.watchRead fd).Legal (fd + 1) d := ⟨Nat.lt_succ_self fd, reads fd⟩
  have listed (i : ConnId) : i ∉ (w.listens fd).connections := by
    change i ∉ w.connections
    rw [idle.connections]
    exact List.not_mem_nil
  have none (i : ConnId) (n : Nat) : ((w.listens fd).conn i).fd ≠ some n := by
    change (w.conn i).fd ≠ some n
    rw [(idle.closed i).2]
    nofun
  constructor
  · rfl
  · change w.connections.Nodup
    rw [idle.connections]
    exact List.nodup_nil
  · intro i here
    exact absurd here (listed i)
  · intro i opened
    exact absurd ((idle.closed i).1.symm.trans opened) Bool.false_ne_true
  · intro i j n own
    exact absurd own (none i n)
  · intro i n own
    exact absurd own (none i n)
  · refine ⟨_, watch, fun log => (recorded log d driver).called legal, ?_, ?_⟩
    · intro n
      change (d.reads n || decide (n = fd)) = true ↔ some fd = some n ∨ _
      rw [reads, Bool.false_or, decide_eq_true_iff, Option.some_inj, @eq_comm _ n fd]
      exact (or_iff_left fun ⟨i, here, _⟩ => listed i here).symm
    · intro n
      change d.writes n = true ↔ _
      rw [writes]
      exact iff_of_false Bool.false_ne_true fun both => both.elim id fun ⟨i, here, _⟩ => listed i here
  · change w.connections.length ≤ _
    rw [idle.connections]
    exact Nat.zero_le _

theorem Idle.abandon {logged : Prop} {server : Server} {w : World} (idle : Idle w.toHub)
    (recorded : logged → ∀ d, w.env.driver = some d → d.Recorded) {fd : Nat}
    (refused : (w.env.watchRead fd).1 = false) (e : PhpError) (notify : Bool) :
    let after := ((w.listens fd).raise e).runtimeClose server notify
    after.connections = [] ∧ ∃ d, after.env.driver = some d ∧ (logged → d.Recorded) ∧
      (∀ n, d.reads n = false) ∧ ∀ n, d.writes n = false := by
  have watch := w.env.watchRead_driver fd
  obtain ⟨d, driver, reads, writes⟩ := idle.driver
  rw [refused, if_neg Bool.false_ne_true, driver] at watch
  have nobody (h : Hub) (empty : h.connections = []) :
      h.closeAllConnections server notify = (true, h) := by
    rw [Hub.closeAllConnections, empty]
    rfl
  have same := nobody ((w.listens fd).raise e).unlistened idle.connections
  rw [Hub.runtimeClose_eq, same]
  refine ⟨idle.connections, ?_⟩
  obtain ⟨d', after, kept, readsAfter, writesAfter⟩ := unwatch_driver watch (some fd)
  refine ⟨d', after, fun log => kept (recorded log d driver), ?_, ?_⟩
  · intro n
    rw [Bool.eq_false_iff, Ne, readsAfter, reads]
    intro both
    exact Bool.false_ne_true both.1
  · intro n
    rw [Bool.eq_false_iff, Ne, writesAfter, writes]
    intro both
    exact Bool.false_ne_true both.1

theorem Tidy.watches_nothing {logged : Prop} {server : Server} {h : Hub} (tidy : Tidy logged server none h)
    (empty : h.connections = []) : ∃ d, h.env.driver = some d ∧ (logged → d.Recorded) ∧
      (∀ n, d.reads n = false) ∧ ∀ n, d.writes n = false := by
  obtain ⟨d, driver, recorded, reads, writes⟩ := tidy.driver
  have listed (i : ConnId) : i ∉ h.connections := by
    rw [empty]
    exact List.not_mem_nil
  refine ⟨d, driver, recorded, ?_, ?_⟩
  · intro n
    rw [Bool.eq_false_iff, Ne, reads n]
    intro both
    exact both.elim nofun fun ⟨i, here, _⟩ => listed i here
  · intro n
    rw [Bool.eq_false_iff, Ne, writes n]
    intro both
    exact both.elim id fun ⟨i, here, _⟩ => listed i here

/-- The driver watches nothing, and the table is empty. -/
def Vacant (h : Hub) : Prop :=
  h.connections = [] ∧ ∃ d, h.env.driver = some d ∧ (∀ n, d.reads n = false) ∧ ∀ n, d.writes n = false

/-- The descriptors, wherever a run has come to. -/
def RunAgrees (logged : Prop) (server : Server) (w : World) : World.RunResult → Prop
  | .waiting after => ∃ fd, w.env.listener = .ok fd ∧ Tidy logged server (some fd) after.toHub
  | .returned _ after => after.connections = [] ∧ ∃ d, after.env.driver = some d ∧
      (logged → d.Recorded) ∧ (∀ n, d.reads n = false) ∧ ∀ n, d.writes n = false

theorem runtimeRun_agrees {logged : Prop} {server : Server} {w : World} (idle : Idle w.toHub)
    (recorded : logged → ∀ d, w.env.driver = some d → d.Recorded) (waits : List WaitResult)
    (unused : ∀ fd, w.env.listener = .ok fd → (w.listens fd).RunUnused server waits) :
    RunAgrees logged server w (w.runtimeRun server waits) := by
  unfold World.runtimeRun
  cases listener : w.env.listener with
  | error e =>
      obtain ⟨d, driver, unwatched⟩ := idle.driver
      exact ⟨idle.connections, d, driver, fun log => recorded log d driver, unwatched⟩
  | ok fd =>
      cases watched : (w.env.watchRead fd).1 with
      | false =>
          simp only [watched, Bool.not_false, if_true]
          exact idle.abandon recorded watched _ false
      | true =>
          have tidy := World.runLoop_tidy waits (idle.tidy recorded watched)
            (unused fd listener)
          simp only [watched, Bool.not_true, Bool.false_eq_true, if_false]
          cases atEnd : ((w.listens fd).runLoop server waits).1 with
          | waiting =>
              unfold World.listens at atEnd
              simp only [atEnd]
              exact ⟨fd, listener, tidy⟩
          | left =>
              unfold World.listens at atEnd
              simp only [atEnd]
              obtain ⟨unlistened, empty⟩ := tidy.runtimeClose _
              exact ⟨empty, unlistened.watches_nothing empty⟩

/-- For every run and every order of its events: whenever the server waits, the table, the
    descriptors and the driver agree, and when `run` returns, the table is empty and the
    driver watches nothing. -/
theorem descriptors_agree {server : Server} {w : World} (idle : Idle w.toHub)
    (waits : List WaitResult)
    (unused : ∀ fd, w.env.listener = .ok fd → (w.listens fd).RunUnused server waits) :
    (∀ after, w.runtimeRun server waits = .waiting after →
      ∃ fd, w.env.listener = .ok fd ∧ DescriptorsAgree server fd after.toHub) ∧
    ∀ ok after, w.runtimeRun server waits = .returned ok after → Vacant after.toHub := by
  have agrees := runtimeRun_agrees idle False.elim waits unused
  constructor
  · intro after waiting
    rw [waiting] at agrees
    obtain ⟨fd, listening, tidy⟩ := agrees
    exact ⟨fd, listening, tidy.agree⟩
  · intro ok after returned
    rw [returned] at agrees
    obtain ⟨empty, d, driver, -, unwatched⟩ := agrees
    exact ⟨empty, d, driver, unwatched⟩

/-- A client is accepted, and the server waits again. -/
theorem descriptors_agree_accepted :
    let server : Server := { options := .array fun _ => none, lib := sampleLib }
    let env : Env := { accepts := [.client 5 none] }
    ∃ after, (World.start env).runtimeRun server [.ready 3] = .waiting after ∧
      after.connections = [0] ∧ (after.conn 0).fd = some 5 ∧ DescriptorsAgree server 3 after.toHub := by
  intro server env
  have idle : Idle (World.start env).toHub :=
    ⟨rfl, rfl, fun _ => ⟨rfl, rfl⟩, {}, rfl, fun _ => rfl, fun _ => rfl⟩
  have unused : ∀ fd, (.ok 3 : Except PhpError Nat) = .ok fd →
      ((World.start env).listens fd).RunUnused server [.ready 3] := by
    rintro fd ⟨⟩ _
    refine ⟨fun _ _ _ _ => ⟨⟨by decide, fun _ => nofun⟩, fun _ => trivial, ?_⟩, fun _ => trivial⟩
    intro _ _ _
    exact trivial
  have evaluated : (match (World.start env).runtimeRun server [.ready 3] with
      | .waiting after => after.connections = [0] && (after.conn 0).fd = some 5
      | .returned _ _ => false) = true := by decide +kernel
  cases atRun : (World.start env).runtimeRun server [.ready 3] with
  | returned ok after =>
      rw [atRun] at evaluated
      cases evaluated
  | waiting after =>
      rw [atRun] at evaluated
      simp only [Bool.and_eq_true, decide_eq_true_eq] at evaluated
      obtain ⟨fd, listening, agree⟩ := (descriptors_agree idle [.ready 3] unused).1 after atRun
      cases listening
      exact ⟨after, rfl, evaluated.1, evaluated.2, agree⟩

end PhpWebSocket
