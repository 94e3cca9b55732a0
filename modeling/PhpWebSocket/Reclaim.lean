import PhpWebSocket.Effects
import PhpWebSocket.Readiness

/-! # Silent clients

A client that is not heard of for longer than its timeout does not keep its place. The
scan of one round closes it or, if a Close frame still waits for the socket, marks it; the
scan of the next round closes what is marked, and the purge behind a scan removes what is
closed. Meanwhile nothing hears the connection, so its timeout stays elapsed.
-/

namespace PhpWebSocket

open Relation

/-! ## What nobody serves -/

/-- A connection that is not reopened, and does not change its mind about closing. -/
structure Connection.Sinks (a b : Connection) : Prop where
  isOpen : b.isOpen = true → a.isOpen = true
  closing : b.isOpen = true → a.closeAfterWrite = true → b.closeAfterWrite = true

/-- Neither is it heard. -/
structure Connection.Rests (a b : Connection) : Prop extends a.Sinks b where
  upgraded : b.upgraded = a.upgraded
  seen : b.isOpen = true → b.lastSeenUsec = a.lastSeenUsec

namespace Connection

variable {a b c : Connection}

theorem Sinks.refl (a : Connection) : a.Sinks a := ⟨id, fun _ => id⟩

theorem Sinks.trans (first : a.Sinks b) (next : b.Sinks c) : a.Sinks c where
  isOpen opened := first.isOpen (next.isOpen opened)
  closing opened closing := next.closing opened (first.closing (next.isOpen opened) closing)

theorem Sinks.live (sinks : a.Sinks b) (live : b.Live) : a.Live := by
  refine ⟨sinks.isOpen live.1, Bool.eq_false_iff.mpr fun closing => ?_⟩
  exact Bool.false_ne_true (live.2.symm.trans (sinks.closing live.1 closing))

theorem Rests.refl (a : Connection) : a.Rests a := ⟨Sinks.refl a, rfl, fun _ => rfl⟩

theorem Rests.trans (first : a.Rests b) (next : b.Rests c) : a.Rests c where
  toSinks := first.toSinks.trans next.toSinks
  upgraded := next.upgraded.trans first.upgraded
  seen opened := (next.seen opened).trans (first.seen (next.isOpen opened))

theorem Rests.of_keeps (keeps : a.Keeps b)
    (accepted : b.isOpen = true → b.acceptedAtUsec = a.acceptedAtUsec) : a.Rests b where
  isOpen := keeps.isOpen
  closing := keeps.closing
  upgraded := keeps.upgraded
  seen opened := by rw [lastSeenUsec, lastSeenUsec, keeps.activity opened, accepted opened]

theorem Rests.expired {options : Options} {now : Nat} (rests : a.Rests b) (opened : b.isOpen = true)
    (expired : connectionExpired options a now = true) : connectionExpired options b now = true := by
  simp only [connectionExpired, rests.upgraded, rests.seen opened] at expired ⊢
  exact expired

end Connection

theorem connectionExpired_mono {options : Options} {conn : Connection} {now later : Nat}
    (expired : connectionExpired options conn now = true) (le : now ≤ later) :
    connectionExpired options conn later = true := by
  simp only [connectionExpired] at expired ⊢
  generalize (if (!conn.upgraded) = true then options.handshakeTimeoutUsec
    else options.idleTimeoutUsec) = timeout at expired ⊢
  split at expired
  · cases expired
  · split at expired
    · cases expired
    · rename_i ticking seen
      simp only [Bool.or_eq_true, decide_eq_true_eq, not_or, Nat.not_lt] at seen
      simp only [Bool.and_eq_true, decide_eq_true_eq] at expired
      rw [if_neg (by omega), if_neg (by simp only [Bool.or_eq_true, decide_eq_true_eq]; omega)]
      simp only [Bool.and_eq_true, decide_eq_true_eq]
      omega

theorem Hub.relink_rests (h : Hub) {i j : ConnId} {link : Link} (keeps : (h.link j).Keeps link)
    (rest : link.conn.isOpen = true → link.conn.unwritten = (h.conn j).unwritten) :
    (h.conn i).Rests ((h.relink j link).conn i) := by
  by_cases same : i = j
  · subst same
    rw [Hub.conn_relink]
    apply Connection.Rests.of_keeps keeps.conn
    intro opened
    have kept := congrArg Connection.acceptedAtUsec (rest opened)
    exact kept
  · rw [show (h.relink j link).conn i = h.conn i from Function.update_of_ne same ..]
    exact Connection.Rests.refl _

theorem Hub.setConn_rests (h : Hub) {i j : ConnId} {conn : Connection}
    (rests : i = j → (h.conn j).Rests conn) : (h.conn i).Rests ((h.setConn j conn).conn i) := by
  by_cases same : i = j
  · subst same
    rw [Hub.conn_setConn]
    exact rests rfl
  · rw [show (h.setConn j conn).conn i = h.conn i from Function.update_of_ne same ..]
    exact Connection.Rests.refl _

theorem Deed.rests {most : Nat} {served : ConnId → Prop} {h h' : Hub} (deed : Deed most served h h')
    (i : ConnId) : (h.conn i).Rests (h'.conn i) := by
  cases deed with
  | mark j mark own =>
      apply h.setConn_rests
      rintro rfl
      apply Connection.Rests.of_keeps (Connection.keeps_mark mark)
      cases mark <;> exact fun _ => rfl
  | closeSocket j =>
      exact h.relink_rests (Link.closeSocket_keeps _) fun opened => absurd opened Bool.false_ne_true
  | closeAfterWrite j =>
      exact h.relink_rests (Link.closeAfterWrite_keeps _) Link.closeAfterWrite_unwritten
  | flush j => exact h.relink_rests (Link.flush_keeps _) Link.flush_unwritten
  | @frame j source payload opcode valid =>
      have sent : (h.conn i).Rests ((h.relink j ((h.link j).sendFrame payload opcode).2).conn i) :=
        h.relink_rests (Link.sendFrame_keeps _ _ _) fun _ => Link.sendFrame_unwritten _ _ _
      simp only [Hub.sendFrame]
      split <;> exact sent
  | respond | emit | raise | seen | stop => exact Connection.Rests.refl _

theorem Deeds.rests {most : Nat} {served : ConnId → Prop} {h h' : Hub} (deeds : Deeds most served h h')
    (i : ConnId) : (h.conn i).Rests (h'.conn i) := by
  induction deeds with
  | refl => exact Connection.Rests.refl _
  | tail _ deed ih => exact ih.trans (deed.rests i)

section

variable {server : Server} {served : ConnId → Prop} {w w' : World} {i : ConnId}

theorem World.openConnection_next (w : World) (fd : Nat) :
    (w.openConnection server fd).2.nextConnectionId = w.nextConnectionId + 1 := by
  cases watched : (w.env.now.2.watchRead fd).1 with
  | true =>
      rw [World.openConnection_watched watched]
      rfl
  | false =>
      rw [World.openConnection_unwatched watched]
      rfl

theorem Effect.next_le (effect : Effect server served w w') :
    w.nextConnectionId ≤ w'.nextConnectionId := by
  cases effect with
  | deed deed => exact deed.ops.steady.next.ge
  | admission fd => exact (Nat.le_succ _).trans (World.openConnection_next w fd).ge
  | remove here told | approve _ _ told => exact told.ops.steady.next.ge
  | unlisten =>
      simp only [Hub.unlistened]
      split <;> exact Nat.le_refl _
  | answered | stamp | beat | upgrade | fill | discard | listen => exact Nat.le_refl _

theorem World.remove_rests {index : Nat} {j : ConnId} {h : Hub}
    (told : Deeds server.options.maxMessageSize served
      { w.shutDown j with connections := w.connections.eraseIdx index } h) :
    (w.conn i).Rests ((h.closeSocket j).conn i) := by
  have shut : Deed server.options.maxMessageSize served w.toHub (w.shut j) := w.shut_deed j
  have closed : Deed server.options.maxMessageSize served h (h.closeSocket j) := .closeSocket h j
  exact ((shut.rests i).trans (told.rests i)).trans (closed.rests i)

theorem Effect.sinks (effect : Effect server served w w') (born : i < w.nextConnectionId) :
    (w.conn i).Sinks (w'.conn i) := by
  have marked {j : ConnId} {conn : Connection} (isOpen : conn.isOpen = (w.conn j).isOpen)
      (closing : conn.closeAfterWrite = (w.conn j).closeAfterWrite) :
      (w.conn i).Sinks ((w.setConn j conn).conn i) := by
    by_cases same : i = j
    · subst same
      rw [Hub.conn_setConn]
      exact ⟨isOpen.symm.trans, fun _ => closing.trans⟩
    · rw [show (w.setConn j conn).conn i = w.conn i from Function.update_of_ne same ..]
      exact Connection.Sinks.refl _
  cases effect with
  | deed deed => exact (deed.rests i).toSinks
  | stamp | beat | upgrade => exact marked rfl rfl
  | approve _ _ told => exact (told.rests i).toSinks
  | admission fd =>
      rw [((World.openConnection_admits w fd).old i born).1]
      exact Connection.Sinks.refl _
  | remove here told => exact (World.remove_rests told).toSinks
  | unlisten =>
      simp only [Hub.unlistened]
      split <;> exact Connection.Sinks.refl _
  | answered | fill | discard | listen => exact Connection.Sinks.refl _

theorem Effect.rests (effect : Effect server served w w') (idle : ¬ served i)
    (born : i < w.nextConnectionId) : (w.conn i).Rests (w'.conn i) := by
  cases effect with
  | deed deed => exact deed.rests i
  | stamp acting | upgrade acting =>
      apply w.setConn_rests
      rintro rfl
      exact absurd acting idle
  | beat =>
      apply w.setConn_rests
      rintro rfl
      exact ⟨⟨id, fun _ => id⟩, rfl, fun _ => rfl⟩
  | approve _ _ told => exact told.rests i
  | admission fd =>
      rw [((World.openConnection_admits w fd).old i born).1]
      exact Connection.Rests.refl _
  | remove here told => exact World.remove_rests told
  | unlisten =>
      simp only [Hub.unlistened]
      split <;> exact Connection.Rests.refl _
  | answered | fill | discard | listen => exact Connection.Rests.refl _

theorem Effects.next_le (effects : Effects server served w w') :
    w.nextConnectionId ≤ w'.nextConnectionId := by
  induction effects with
  | refl => exact Nat.le_refl _
  | tail _ effect ih => exact ih.trans effect.next_le

theorem Effects.sinks (effects : Effects server served w w') (born : i < w.nextConnectionId) :
    (w.conn i).Sinks (w'.conn i) := by
  induction effects with
  | refl => exact Connection.Sinks.refl _
  | tail before effect ih =>
      exact ih.trans (effect.sinks (Nat.lt_of_lt_of_le born (Effects.next_le before)))

theorem Effects.rests (effects : Effects server served w w') (idle : ¬ served i)
    (born : i < w.nextConnectionId) : (w.conn i).Rests (w'.conn i) := by
  induction effects with
  | refl => exact Connection.Rests.refl _
  | tail before effect ih =>
      exact ih.trans (effect.rests idle (Nat.lt_of_lt_of_le born (Effects.next_le before)))

end

/-! ## The table -/

/-- An open connection is in the table. -/
def World.Rooted (w : World) : Prop :=
  ∀ i, (w.conn i).isOpen = true → i ∈ w.connections ∧ i < w.nextConnectionId

section

variable {server : Server} {served : ConnId → Prop} {w w' : World}

theorem Deed.connections {most : Nat} {h h' : Hub} (deed : Deed most served h h') :
    h'.connections = h.connections := by
  cases deed with
  | @frame i source payload opcode valid =>
      simp only [Hub.sendFrame]
      split <;> rfl
  | _ => rfl

theorem Deeds.connections {most : Nat} {h h' : Hub} (deeds : Deeds most served h h') :
    h'.connections = h.connections := by
  induction deeds with
  | refl => rfl
  | tail _ deed ih => exact deed.connections.trans ih

theorem World.openConnection_table (fd : Nat) {i : ConnId} (mem : i ∈ w.connections) :
    i ∈ (w.openConnection server fd).2.connections := by
  simp only [World.openConnection]
  split
  · exact mem
  · exact List.mem_append_left _ mem

theorem World.openConnection_elsewhere (fd : Nat) {i : ConnId} (other : i ≠ w.nextConnectionId) :
    (w.openConnection server fd).2.conn i = w.conn i := by
  have entered : (w.newcomer server fd).conn i = w.conn i := Function.update_of_ne other ..
  cases watched : (w.env.now.2.watchRead fd).1 with
  | true =>
      rw [World.openConnection_watched watched]
      exact entered
  | false =>
      rw [World.openConnection_unwatched watched]
      exact (Function.update_of_ne other ..).trans entered

theorem World.remove_table {index : Nat} {i j : ConnId} {h : Hub}
    (here : w.connections[index]? = some i)
    (told : Deeds server.options.maxMessageSize served
      { w.shutDown i with connections := w.connections.eraseIdx index } h)
    (other : j ≠ i) (mem : j ∈ w.connections) : j ∈ (h.closeSocket i).connections := by
  have table : (h.closeSocket i).connections = w.connections.eraseIdx index := told.connections
  rw [table]
  obtain ⟨k, atK⟩ := List.getElem?_of_mem mem
  refine List.mem_eraseIdx_iff_getElem?.mpr ⟨k, ?_, atK⟩
  rintro rfl
  exact other (Option.some.inj (atK.symm.trans here))

namespace World.Rooted

theorem of_same (rooted : w.Rooted) (isOpen : ∀ i, (w'.conn i).isOpen = true → (w.conn i).isOpen = true)
    (connections : w'.connections = w.connections) (next : w'.nextConnectionId = w.nextConnectionId) :
    w'.Rooted := by
  intro i opened
  rw [connections, next]
  exact rooted i (isOpen i opened)

theorem marked (rooted : w.Rooted) (i : ConnId) {conn : Connection}
    (isOpen : conn.isOpen = (w.conn i).isOpen) :
    World.Rooted { w with toHub := w.setConn i conn } := by
  refine rooted.of_same (fun j opened => ?_) rfl rfl
  by_cases same : j = i
  · subst same
    rw [Hub.conn_setConn] at opened
    exact isOpen.symm.trans opened
  · rw [show (w.setConn i conn).conn j = w.conn j from Function.update_of_ne same ..] at opened
    exact opened

theorem openConnection (rooted : w.Rooted) (fd : Nat) : (w.openConnection server fd).2.Rooted := by
  have next : (w.openConnection server fd).2.nextConnectionId = w.nextConnectionId + 1 :=
    World.openConnection_next w fd
  intro i opened
  rw [next]
  by_cases same : i = w.nextConnectionId
  · subst same
    refine ⟨?_, Nat.lt_succ_self _⟩
    cases watched : (w.env.now.2.watchRead fd).1 with
    | true =>
        rw [World.openConnection_watched watched]
        exact List.mem_append_right _ (List.mem_singleton_self _)
    | false =>
        rw [World.openConnection_unwatched watched] at opened
        have shut : ((w.newcomer server fd).closeSocket w.nextConnectionId |>.conn
            w.nextConnectionId).isOpen = false := by
          rw [Hub.closeSocket, Hub.conn_relink]
          rfl
        exact absurd (shut.symm.trans opened) Bool.false_ne_true
  · rw [World.openConnection_elsewhere fd same] at opened
    exact ⟨World.openConnection_table fd (rooted i opened).1, Nat.lt_succ_of_lt (rooted i opened).2⟩

theorem remove (rooted : w.Rooted) {index : Nat} {i : ConnId} {h : Hub}
    (here : w.connections[index]? = some i)
    (told : Deeds server.options.maxMessageSize served
      { w.shutDown i with connections := w.connections.eraseIdx index } h) :
    World.Rooted { w with toHub := h.closeSocket i } := by
  intro j opened
  have rests : (w.conn j).Rests ((h.closeSocket i).conn j) := World.remove_rests told
  obtain ⟨mem, born⟩ := rooted j (rests.isOpen opened)
  have other : j ≠ i := by
    rintro rfl
    rw [Hub.closeSocket, Hub.conn_relink] at opened
    exact Bool.false_ne_true opened
  have next : (h.closeSocket i).nextConnectionId = w.nextConnectionId := told.ops.steady.next
  exact ⟨World.remove_table here told other mem, next ▸ born⟩

theorem effect (effect : Effect server served w w') (rooted : w.Rooted) : w'.Rooted := by
  cases effect with
  | deed deed =>
      exact rooted.of_same (fun i => (deed.rests i).isOpen) deed.connections deed.ops.steady.next
  | approve _ _ told =>
      exact rooted.of_same (fun i => (told.rests i).isOpen) told.connections told.ops.steady.next
  | answered | fill | discard | listen => exact rooted.of_same (fun _ => id) rfl rfl
  | stamp | beat | upgrade => exact rooted.marked _ rfl
  | admission fd => exact rooted.openConnection fd
  | remove here told => exact rooted.remove here told
  | unlisten =>
      simp only [Hub.unlistened]
      split <;> exact rooted.of_same (fun _ => id) rfl rfl

theorem effects (effects : Effects server served w w') (rooted : w.Rooted) : w'.Rooted :=
  effects.invariant (fun effect => World.Rooted.effect effect) rooted

theorem start (env : Env) : (World.start env).Rooted :=
  fun _ opened => absurd opened Bool.false_ne_true

end World.Rooted

end

/-! ## One scan -/

section

variable {server : Server} {w : World} {i : ConnId} {now : Nat}

theorem Hub.closeExpiredConnection_closes (h : Hub) (i : ConnId)
    (opened : ((h.closeExpiredConnection i).conn i).isOpen = true) :
    ((h.closeExpiredConnection i).conn i).closeAfterWrite = true ∧
      (h.conn i).closeAfterWrite = false := by
  have dying := h.closeExpiredConnection_not_live i
  refine ⟨?_, Bool.eq_false_iff.mpr fun closing => ?_⟩
  · by_contra going
    exact dying ⟨opened, Bool.eq_false_iff.mpr going⟩
  · have refused : ((h.link i).sendCloseFrame closeNormal (ascii "idle timeout")).1 = false := by
      have silent : ¬ (h.link i).conn.Reading := fun reading =>
        Bool.false_ne_true (reading.2.1.symm.trans closing)
      simp only [Link.sendCloseFrame]
      split
      · rfl
      · split
        · rfl
        · rw [Link.sendFrame_refused silent]
    have shut : ((h.closeExpiredConnection i).conn i).isOpen = false := by
      simp only [Hub.closeExpiredConnection, Hub.closeWithCode, Hub.sendCloseFrame, refused]
      split
      · rw [if_neg Bool.false_ne_true, Hub.closeSocket, Hub.conn_relink]
        rfl
      · rw [Hub.closeSocket, Hub.conn_relink]
        rfl
    exact Bool.false_ne_true (shut.symm.trans opened)

namespace World

theorem attend_expired (expired : connectionExpired server.options (w.conn i) now = true) :
    w.attend server i now = (.finished, { w with toHub := w.closeExpiredConnection i }) :=
  if_pos expired

/-- Only a connection that is open and stays so is ready to be read from. -/
theorem attend_live (ready : (w.attend server i now).1 = .ready) : (w.conn i).Live := by
  have tends := (w.attend_turns server (i := i) now).tends
  have going {flushed : Bool × Hub}
      (ready : (if !flushed.1 || !(flushed.2.conn i).isOpen || (flushed.2.conn i).closeAfterWrite
        then (Attention.finished, { w with toHub := flushed.2 })
        else (Attention.ready, { w with toHub := flushed.2 })).1 = .ready) :
      ((if !flushed.1 || !(flushed.2.conn i).isOpen || (flushed.2.conn i).closeAfterWrite
        then (Attention.finished, { w with toHub := flushed.2 })
        else (Attention.ready, { w with toHub := flushed.2 })).2.conn i).Live := by
    split at ready
    · cases ready
    · rename_i going
      rw [if_neg going]
      simp only [Bool.or_eq_true, Bool.not_eq_true', not_or, Bool.not_eq_false,
        Bool.not_eq_true] at going
      exact ⟨going.1.2, going.2⟩
  apply tends.live
  simp only [attend] at ready ⊢
  split at ready
  · cases ready
  · rename_i waits
    rw [if_neg waits]
    split at ready
    · cases ready
    · rename_i beaten
      rw [if_neg beaten]
      exact going ready

/-- What is expired or no longer alive is not served, even in its turn. -/
def Unserved (server : Server) (conn : Connection) (now : Nat) : Prop :=
  conn.Live → connectionExpired server.options conn now = true

theorem attend_unserved (unserved : Unserved server (w.conn i) now) :
    (w.attend server i now).1 ≠ .ready := by
  intro ready
  have expired := unserved (attend_live ready)
  rw [attend_expired expired] at ready
  cases ready

theorem serveReady_unserved {served : ConnId → Prop} (unserved : Unserved server (w.conn i) now) :
    Effects server served w (w.serveReady server i now).2 := by
  have attended : Effects server served w (w.attend server i now).2 := w.attend_effects server i now
  have idle := attend_unserved unserved
  simp only [serveReady]
  split
  · exact Effects.refl w
  · split
    · exact attended
    · exact attended
    · rename_i ready
      exact absurd ready idle

theorem processConnection_unserved {served : ConnId → Prop} (unserved : Unserved server (w.conn i) now) :
    Effects server served w (w.processConnection server i now).2 := by
  have attended : Effects server served w (w.attend server i now).2 := w.attend_effects server i now
  have idle := attend_unserved unserved
  rw [processConnection_eq]
  dsimp only
  split
  · exact Effects.refl w
  · split
    · exact attended
    · exact attended
    · rename_i ready
      exact absurd ready idle

/-- While a connection is expired, the scan does not hear it. -/
theorem processEach_unserved (list : List ConnId) (w : World) (born : i < w.nextConnectionId)
    (unserved : Unserved server (w.conn i) now) :
    Effects server (fun j => j ≠ i) w (w.processEach server now list).2 := by
  induction list generalizing w with
  | nil => exact Effects.refl w
  | cons j rest ih =>
      have first : Effects server (fun j => j ≠ i) w (w.processConnection server j now).2 := by
        by_cases same : j = i
        · subst same
          exact processConnection_unserved unserved
        · exact w.processConnection_effects server same now
      have rests := first.rests (fun acting => acting rfl) born
      simp only [processEach]
      split
      · refine first.trans (ih _ (Nat.lt_of_lt_of_le born first.next_le) fun live => ?_)
        exact rests.expired live.1 (unserved (rests.toSinks.live live))
      · exact first

/-- A scan that runs to its end closes what is expired, or marks it if it was not. -/
theorem processEach_closes (list : List ConnId) (w : World) (born : i < w.nextConnectionId)
    (mem : i ∈ list)
    (expired : (w.conn i).isOpen = true → connectionExpired server.options (w.conn i) now = true)
    (done : (w.processEach server now list).1 = true)
    (opened : ((w.processEach server now list).2.conn i).isOpen = true) :
    ((w.processEach server now list).2.conn i).closeAfterWrite = true ∧
      (w.conn i).closeAfterWrite = false := by
  induction list generalizing w with
  | nil => exact absurd mem List.not_mem_nil
  | cons j rest ih =>
      have unserved : Unserved server (w.conn i) now := fun live => expired live.1
      simp only [processEach] at done opened ⊢
      by_cases went : (w.processConnection server j now).1 = true
      · rw [if_pos went] at done opened ⊢
        by_cases same : j = i
        · subst same
          have first : Effects server (fun _ => True) w (w.processConnection server j now).2 :=
            processConnection_unserved unserved
          have scan : Effects server (fun _ => True) (w.processConnection server j now).2
              ((w.processConnection server j now).2.processEach server now rest).2 :=
            processEach_effects server _ (fun _ => trivial) now rest
          have sinks := scan.sinks (Nat.lt_of_lt_of_le born first.next_le)
          have still := sinks.isOpen opened
          have before := (first.sinks born).isOpen still
          have closing : ((w.processConnection server j now).2.conn j).closeAfterWrite = true ∧
              (w.conn j).closeAfterWrite = false := by
            have shut : w.processConnection server j now =
                (true, { w with toHub := w.closeExpiredConnection j }) := by
              rw [processConnection_eq]
              simp only [before, Bool.not_true, Bool.false_eq_true, if_false,
                attend_expired (expired before)]
            rw [shut] at still ⊢
            exact w.closeExpiredConnection_closes j still
          exact ⟨sinks.closing opened closing.1, closing.2⟩
        · have first : Effects server (fun j => j ≠ i) w (w.processConnection server j now).2 :=
            w.processConnection_effects server same now
          have rests := first.rests (fun acting => acting rfl) born
          have later : i ∈ rest := (List.mem_cons.mp mem).resolve_left (Ne.symm same)
          obtain ⟨closing, fresh⟩ := ih _ (Nat.lt_of_lt_of_le born first.next_le) later
            (fun still => rests.expired still (expired (rests.isOpen still))) done opened
          refine ⟨closing, Bool.eq_false_iff.mpr fun marked => ?_⟩
          have scan : Effects server (fun _ => True) (w.processConnection server j now).2
              ((w.processConnection server j now).2.processEach server now rest).2 :=
            processEach_effects server _ (fun _ => trivial) now rest
          have whole := scan.sinks (Nat.lt_of_lt_of_le born first.next_le)
          exact Bool.false_ne_true (fresh.symm.trans (rests.closing (whole.isOpen opened) marked))
      · rw [if_neg went] at done
        exact absurd done Bool.false_ne_true

end World

/-- A purge that runs to its end leaves nothing in the table that was closed before it. -/
theorem Hub.purgeFrom_removes (fuel index : Nat) (h : Hub) (enough : h.connections.length ≤ index + fuel)
    (closed : (h.conn i).isOpen = false) (passed : i ∉ h.connections.take index)
    (done : (h.purgeFrom server fuel index).1 = true) :
    i ∉ (h.purgeFrom server fuel index).2.connections := by
  induction fuel generalizing h index with
  | zero =>
      have all : h.connections.take index = h.connections := List.take_of_length_le enough
      rw [all] at passed
      exact passed
  | succ fuel ih =>
      simp only [Hub.purgeFrom] at done ⊢
      cases here : h.connections[index]? with
      | none =>
          rw [List.take_of_length_le (List.getElem?_eq_none_iff.mp here)] at passed
          exact passed
      | some j =>
          rw [here] at done
          dsimp only at done ⊢
          have inside : index < h.connections.length := (List.getElem?_eq_some_iff.mp here).1
          by_cases shut : (!(h.conn j).isOpen) = true
          · rw [if_pos shut] at done ⊢
            by_cases went : (h.closeConnectionAt server index true).1 = true
            · rw [if_pos went] at done ⊢
              have steady := h.closeConnectionAt_steady server index true
              have table : (h.closeConnectionAt server index true).2.connections =
                  h.connections.eraseIdx index := h.closeConnectionAt_connections index true
              apply ih index _ _ _ _ done
              · rw [table, List.length_eraseIdx_of_lt inside]
                omega
              · apply Bool.eq_false_iff.mpr
                intro reopened
                exact Bool.false_ne_true (closed.symm.trans ((steady.conns i).isOpen reopened))
              · rw [table, List.take_eraseIdx_eq_take_of_le _ _ _ (Nat.le_refl index)]
                exact passed
            · rw [if_neg went] at done
              exact absurd done Bool.false_ne_true
          · rw [if_neg shut] at done ⊢
            apply ih (index + 1) h (by omega) closed _ done
            rw [List.take_add_one, here]
            intro mem
            rcases List.mem_append.mp mem with old | last
            · exact passed old
            · have same : i = j := by simpa using last
              subst same
              simp [closed] at shut

end

/-! ## Two rounds -/

section

variable {server : Server} {w w1 w2 : World} {i : ConnId} {a b wait : WaitResult}

namespace World

/-- What the scan of a round starts from. -/
def atScan (server : Server) (w : World) (wait : WaitResult) : World := (w.processReady server wait).2

/-- The time that the scan of a round reads. -/
def scanUsec (server : Server) (w : World) (wait : WaitResult) : Nat := (w.atScan server wait).now.1

/-- What the scan leaves to the purge. -/
def scanned (server : Server) (w : World) (wait : WaitResult) : World :=
  ((w.atScan server wait).processConnections server).2

/-- Waits that a signal interrupts, before a round. -/
def interrupted (server : Server) : Nat → World → World
  | 0, w => w
  | n + 1, w => interrupted server n (w.runRound server (.failed .eintr)).2

theorem interrupted_effects (server : Server) (served : ConnId → Prop) (n : Nat) (w : World) :
    Effects server served w (w.interrupted server n) := by
  induction n generalizing w with
  | zero => exact Effects.refl w
  | succ n ih => exact (Effects.single (w.setErrno_effect server .eintr)).trans (ih _)

theorem serve_done (done : w.serve server wait = (true, w1)) :
    ((w.atScan server wait).processConnections server).1 = true ∧
      ((w.scanned server wait).purgeClosedConnections server).1 = true ∧
      w1 = { w.scanned server wait with
        toHub := ((w.scanned server wait).purgeClosedConnections server).2 } := by
  simp only [serve] at done
  split at done
  · simp at done
  · split at done
    · simp at done
    · rename_i scanned
      simp only [Bool.not_eq_true', Bool.not_eq_false] at scanned
      obtain ⟨ok, same⟩ := Prod.mk.inj done
      exact ⟨scanned, ok, same.symm⟩

theorem processReady_unserved (dead : ¬ (w.conn i).Live) :
    Effects server (fun j => j ≠ i) w (w.atScan server wait) := by
  cases wait with
  | idle | failed => exact Effects.refl w
  | ready fd =>
      simp only [atScan, processReady]
      split
      · exact w.acceptLoop_effects server _ _
      · have ticked : Effects server (fun j => j ≠ i) w w.tick := Effects.single (w.tick_effect server)
        rw [processConnectionFd_eq]
        split
        · exact ticked
        · rename_i j _
          by_cases same : j = i
          · subst same
            exact ticked.trans (serveReady_unserved fun live => absurd live dead)
          · exact ticked.trans (serveReady_effects server _ same _)

/-- Closed, or marked and expired. -/
def Doomed (server : Server) (now : Nat) (w : World) (i : ConnId) : Prop :=
  (w.conn i).isOpen = true →
    (w.conn i).closeAfterWrite = true ∧ connectionExpired server.options (w.conn i) now = true

theorem Doomed.rests {now : Nat} {w' : World} (doomed : Doomed server now w i)
    (rests : (w.conn i).Rests (w'.conn i)) : Doomed server now w' i := by
  intro opened
  obtain ⟨closing, expired⟩ := doomed (rests.isOpen opened)
  exact ⟨rests.closing opened closing, rests.expired opened expired⟩

theorem atScan_effects (w : World) : Effects server (fun _ => True) w (w.atScan server wait) :=
  w.processReady_effects server (fun _ => trivial) wait

theorem scan_closes (rooted : w.Rooted) (done : ((w.atScan server wait).processConnections server).1 = true)
    (expired : ((w.atScan server wait).conn i).isOpen = true →
      connectionExpired server.options ((w.atScan server wait).conn i) (w.scanUsec server wait) = true)
    (born : i < (w.atScan server wait).nextConnectionId) :
    ((w.atScan server wait).conn i).Rests ((w.scanned server wait).conn i) ∧
      (((w.scanned server wait).conn i).isOpen = true →
        ((w.scanned server wait).conn i).closeAfterWrite = true ∧
          ((w.atScan server wait).conn i).closeAfterWrite = false) := by
  have unserved : Unserved server ((w.atScan server wait).tick.conn i) (w.scanUsec server wait) :=
    fun live => expired live.1
  have effects := processEach_unserved (w.atScan server wait).connections (w.atScan server wait).tick
    born unserved
  have rests : ((w.atScan server wait).conn i).Rests ((w.scanned server wait).conn i) :=
    effects.rests (fun acting => acting rfl) born
  refine ⟨rests, fun opened => ?_⟩
  have mem := (rooted.effects w.atScan_effects i (rests.isOpen opened)).1
  exact processEach_closes _ (w.atScan server wait).tick born mem expired done opened

/-- The round after the mark is the last. -/
theorem doomed_removed {now : Nat} (rooted : w.Rooted) (born : i < w.nextConnectionId)
    (doomed : Doomed server now w i) (done : w.serve server wait = (true, w1))
    (later : now ≤ w.scanUsec server wait) : i ∉ w1.connections := by
  obtain ⟨scanned, purged, rfl⟩ := serve_done done
  have dead : ¬ (w.conn i).Live := fun live =>
    Bool.false_ne_true (live.2.symm.trans (doomed live.1).1)
  have effects : Effects server (fun j => j ≠ i) w (w.atScan server wait) := processReady_unserved dead
  have still := doomed.rests (effects.rests (fun acting => acting rfl) born)
  have after := Nat.lt_of_lt_of_le born effects.next_le
  obtain ⟨rests, closes⟩ := scan_closes rooted scanned
    (fun opened => connectionExpired_mono (still opened).2 later) after
  apply Hub.purgeFrom_removes _ 0 _ (Nat.le_of_eq (Nat.zero_add _).symm) _ (by simp) purged
  apply Bool.eq_false_iff.mpr
  intro opened
  exact Bool.false_ne_true ((closes opened).2.symm.trans (still (rests.isOpen opened)).1)

theorem expired_doomed (rooted : w.Rooted) (done : w.serve server wait = (true, w1))
    (opened : ((w.atScan server wait).conn i).isOpen = true)
    (expired : connectionExpired server.options ((w.atScan server wait).conn i)
      (w.scanUsec server wait) = true) :
    Doomed server (w.scanUsec server wait) w1 i ∧ i < w1.nextConnectionId := by
  obtain ⟨scanned, purged, rfl⟩ := serve_done done
  have born := (rooted.effects w.atScan_effects i opened).2
  obtain ⟨rests, closes⟩ := scan_closes rooted scanned (fun _ => expired) born
  have scan : Effects server (fun _ => True) (w.atScan server wait) (w.scanned server wait) :=
    (w.atScan server wait).processConnections_effects server fun _ => trivial
  have after : i < (w.scanned server wait).nextConnectionId := Nat.lt_of_lt_of_le born scan.next_le
  have purge : Effects server (fun _ => False) (w.scanned server wait) { w.scanned server wait with
      toHub := ((w.scanned server wait).purgeClosedConnections server).2 } :=
    purgeFrom_effects server _ _ _
  have doomed : Doomed server (w.scanUsec server wait) (w.scanned server wait) i := fun still =>
    ⟨(closes still).1, rests.expired still expired⟩
  exact ⟨doomed.rests (purge.rests id after), Nat.lt_of_lt_of_le after purge.next_le⟩

end World

/-- In every run: an open connection that is past its timeout at the scan of a round is out
    of the table when the next round is over, however often the wait between them is interrupted,
    if the clock has not gone back between the two scans. -/
theorem expired_reclaimed (env : Env) (waits : List WaitResult)
    (reached : ((World.start env).runtimeRun server waits).world = w)
    (first : w.serve server a = (true, w1)) (n : Nat)
    (second : (w1.interrupted server n).serve server b = (true, w2))
    (later : w.scanUsec server a ≤ (w1.interrupted server n).scanUsec server b)
    (opened : ((w.atScan server a).conn i).isOpen = true)
    (expired : connectionExpired server.options ((w.atScan server a).conn i)
      (w.scanUsec server a) = true) : i ∉ w2.connections := by
  have run : Effects server (fun _ => True) (World.start env) w := by
    rw [← reached]
    exact World.runtimeRun_effects server _ (fun _ => trivial) waits
  have rooted : w.Rooted := (World.Rooted.start env).effects run
  have round : Effects server (fun _ => True) w w1 := by
    have served : Effects server (fun _ => True) w (w.serve server a).2 :=
      w.serve_effects server (fun _ => trivial) a
    rw [first] at served
    exact served
  obtain ⟨doomed, born⟩ := World.expired_doomed rooted first opened expired
  have quiet := w1.interrupted_effects server (fun _ => False) n
  have between := (rooted.effects round).effects (w1.interrupted_effects server (fun _ => True) n)
  exact World.doomed_removed between (Nat.lt_of_lt_of_le born quiet.next_le)
    (doomed.rests (quiet.rests id born)) second later

end

/-- A client that is gone, with a socket that takes nothing: the Close frame waits in vain. Two
    signals come in between. -/
theorem expired_reclaimed_blocked :
    let server : Server := { options := .array fun _ => none, lib := sampleLib }
    let env : Env :=
      { accepts := [.client 5 none]
        recvs := [.data sampleRequestChunk]
        sends := [.wrote 4095, .failed .eagain]
        clock := [1, 2, 3, 200000000, 200000001] }
    let w := ((World.start env).runtimeRun server [.ready 3]).world
    let w1 := (w.serve server .idle).2
    let w2 := ((w1.interrupted server 2).serve server .idle).2
    w.connections = [0] ∧ w1.connections = [0] ∧ (w1.conn 0).closeAfterWrite = true ∧
      0 ∉ w2.connections := by
  intro server env w w1 w2
  have first : (w.serve server .idle).1 = true := by decide +kernel
  have second : ((w1.interrupted server 2).serve server .idle).1 = true := by decide +kernel
  have whole {r : Bool × World} (ok : r.1 = true) : r = (true, r.2) := Prod.ext ok rfl
  exact ⟨by decide +kernel, by decide +kernel, by decide +kernel,
    expired_reclaimed env [.ready 3] rfl (whole first) 2 (whole second) (by decide +kernel)
      (by decide +kernel) (by decide +kernel)⟩

end PhpWebSocket
