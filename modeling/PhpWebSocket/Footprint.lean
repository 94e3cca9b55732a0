import Mathlib.Algebra.Order.BigOperators.Group.List
import PhpWebSocket.Effects
import PhpWebSocket.WriteAccount

/-! # What a server holds

How much memory clients can make the server take up. A connection holds its read buffer,
the strings in its write queue and the message it is being sent in fragments; each of the
three is bounded by the options, the table has a bounded length, and both stay so through
every effect, whatever the clients send and however slowly they read.
-/

namespace PhpWebSocket

open Lib

/-- The octets of the strings in the write queue, those already sent included. -/
def Connection.queueSize (conn : Connection) : Nat := (conn.writeQueue.map List.length).sum

/-- The octets that are held for a connection. -/
def World.footprint (w : World) (i : ConnId) : Nat :=
  (w.reads i).capacity + (w.conn i).queueSize + (w.conn i).fragmentSize

/-- The most that one connection may hold. -/
def Options.footprint (options : Options) : Nat :=
  max httpMaxRequestSize (World.readLimit options.maxMessageSize) + 2 * options.maxQueuedBytes +
    options.maxMessageSize

/-! ## One connection -/

/-- A connection, open or not, that keeps to the options. -/
structure Held (options : Options) (conn : Connection) : Prop extends Counted conn where
  lengths : ∀ frame ∈ conn.writeQueue, frame.length ≤ conn.maxQueuedBytes
  limit : conn.isOpen = true ∨ conn.writeQueue ≠ [] → conn.maxQueuedBytes = options.maxQueuedBytes
  fragment : conn.fragmentSize ≤ options.maxMessageSize

namespace Held

variable {options : Options} {conn : Connection} {link : Link}

theorem congr {other : Connection} (held : Held options conn) (queue : other.writeQueue = conn.writeQueue)
    (offset : other.writeQueueOffset = conn.writeQueueOffset)
    (bytes : other.queuedBytes = conn.queuedBytes)
    (limit : other.maxQueuedBytes = conn.maxQueuedBytes)
    (isOpen : other.isOpen = true → conn.isOpen = true)
    (fragment : other.fragmentSize ≤ options.maxMessageSize) : Held options other := by
  refine ⟨held.toCounted.congr queue offset bytes limit, ?_, ?_, fragment⟩
  · rw [queue, limit]
    exact held.lengths
  · rw [queue, limit]
    exact fun live => held.limit (live.imp_left isOpen)

theorem empty (queue : conn.writeQueue = []) (offset : conn.writeQueueOffset = 0)
    (bytes : conn.queuedBytes = 0) (closed : conn.isOpen = false)
    (fragment : conn.fragmentedPayload = none) : Held options conn := by
  refine ⟨.cleared queue offset bytes, ?_, ?_, ?_⟩
  · rw [queue]
    exact fun frame mem => absurd mem List.not_mem_nil
  · rw [queue, closed]
    exact fun live => absurd live (by simp)
  · rw [Connection.fragmentSize, fragment]
    exact Nat.zero_le _

theorem closeSocket (link : Link) : Held options link.closeSocket.conn := empty rfl rfl rfl rfl rfl

theorem enqueue (held : Held options conn) (isOpen : conn.isOpen = true) {frame : Bytes} {offset : Nat}
    (inside : offset < frame.length) (start : conn.writeQueue ≠ [] → offset = 0)
    (short : frame.length ≤ conn.maxQueuedBytes) (room : Room conn (frame.length - offset)) :
    Held options (conn.enqueue frame offset) := by
  refine ⟨held.toCounted.enqueue inside start room, ?_, fun _ => held.limit (Or.inl isOpen),
    held.fragment⟩
  intro other mem
  rcases List.mem_append.mp mem with old | new
  · exact held.lengths other old
  · rw [List.mem_singleton.mp new]
    exact short

/-- The queue holds what is counted, and at most what is sent of its head. -/
theorem queueSize_le (held : Held options conn) : conn.queueSize ≤ 2 * options.maxQueuedBytes := by
  have bound := held.bound
  have bytes := held.bytes
  cases queue : conn.writeQueue with
  | nil => simp [Connection.queueSize, queue]
  | cons frame rest =>
      have limit := held.limit (Or.inr (by simp [queue]))
      have head := held.head frame rest queue
      have short := held.lengths frame (by simp [queue])
      simp only [queue, unsent_cons, List.length_append, List.length_drop, List.length_flatten] at bytes
      simp only [Connection.queueSize, queue, List.map_cons, List.sum_cons]
      omega

theorem queueFrame (held : Held options link.conn) (isOpen : link.conn.isOpen = true) {frame : Bytes}
    {offset : Nat} (inside : offset < frame.length) (start : link.conn.writeQueue ≠ [] → offset = 0)
    (short : frame.length ≤ link.conn.maxQueuedBytes) :
    Held options (link.queueFrame frame offset).2.conn := by
  rcases queueFrame_effect link frame offset with
    ⟨-, full⟩ | ⟨room, -, -, queued⟩ | ⟨room, -, queued, -⟩
  · rw [full]
    exact held
  · rw [queued]
    exact (held.enqueue isOpen inside start short room).congr rfl rfl rfl rfl id held.fragment
  · rw [queued]
    exact held.enqueue isOpen inside start short room

theorem settle {result : Bool × Link} (held : Held options result.2.conn) :
    Held options (Link.settle result).2.conn := by
  unfold Link.settle
  split
  · exact held.congr rfl rfl rfl rfl (fun isOpen => absurd isOpen Bool.false_ne_true) held.fragment
  · exact held

theorem sendFrame (held : Held options link.conn) (payload : Bytes) (opcode : UInt8) :
    Held options (link.sendFrame payload opcode).2.conn := by
  have present : 0 < (serverFrame payload opcode).length := by simp [serverFrame]
  simp only [Link.sendFrame, packPayload_server]
  split
  · exact held
  · rename_i going
    have isOpen : link.conn.isOpen = true := by
      by_contra closed
      exact going (by simp [closed])
    split
    · exact held
    · rename_i short
      replace short := Nat.le_of_not_lt short
      split
      · exact (held.queueFrame isOpen present (fun _ => rfl) short).settle
      · rename_i idle
        have wrote (w : Written) : Held options (link.wrote (serverFrame payload opcode) 0 w).conn :=
          held.congr rfl rfl rfl rfl id held.fragment
        split
        · rename_i part
          simp only [Bool.and_eq_true, decide_eq_true_eq] at part
          exact ((wrote _).queueFrame isOpen part.2 (fun waiting => absurd waiting idle) short).settle
        · apply settle
          apply wrote

theorem flushLoop (queue : List Bytes) (link : Link) (atQueue : link.conn.writeQueue = queue)
    (held : Held options link.conn) : Held options (Link.flushLoop queue link).2.conn := by
  induction queue generalizing link with
  | nil => exact held
  | cons frame rest ih =>
      have present := writeSome_count_le link.env.sends link.env.errno
        (frame.length - link.conn.writeQueueOffset)
      obtain ⟨within, bytes⟩ := held.advance atQueue present
      have limit : link.conn.maxQueuedBytes = options.maxQueuedBytes :=
        held.limit (Or.inr (by simp [atQueue]))
      simp only [Link.flushLoop, Link.wrote]
      generalize writeSome link.env.sends link.env.errno (frame.length - link.conn.writeQueueOffset) =
        w at present within bytes ⊢
      have less : link.conn.queuedBytes - w.count ≤ link.conn.maxQueuedBytes :=
        Nat.le_trans (Nat.sub_le _ _) held.bound
      cases w.ok with
      | false =>
          exact held.congr rfl rfl rfl rfl (fun isOpen => absurd isOpen Bool.false_ne_true) held.fragment
      | true =>
          simp only [Bool.not_true, Bool.false_eq_true, if_false, Nat.not_lt.mpr within]
          split
          · rename_i short
            refine ⟨⟨held.frames, ?_, ?_, ?_, less⟩, held.lengths, fun _ => limit, held.fragment⟩
            · simp [atQueue]
            · intro first others same
              simp only [atQueue, List.cons.injEq] at same ⊢
              rw [← same.1]
              exact short
            · rw [← atQueue] at bytes
              exact bytes
          · rename_i whole
            rw [unsent_cons, List.drop_of_length_le (Nat.le_of_not_lt whole), List.nil_append,
              ← unsent_zero] at bytes
            have later {other : Bytes} (mem : other ∈ rest) : other ∈ link.conn.writeQueue := by
              rw [atQueue]
              exact List.mem_cons_of_mem frame mem
            refine ih _ rfl ⟨⟨fun other mem => held.frames other (later mem), fun _ => rfl, ?_,
              bytes, less⟩, fun other mem => held.lengths other (later mem), fun _ => limit,
              held.fragment⟩
            intro first others same
            dsimp only at same
            exact List.length_pos_iff.mpr (held.frames first (later (by simp [same])))

theorem flush (held : Held options link.conn) : Held options link.flush.2.conn := by
  have looped := flushLoop link.conn.writeQueue link rfl held
  have drained {after : Link} (held : Held options after.conn) :
      Held options (if after.conn.closeAfterWrite then after.closeSocket else after).conn := by
    split
    · exact closeSocket after
    · exact held
  simp only [Link.flush]
  split
  · exact held
  · split
    · exact looped
    · exact looped
    · apply drained
      split
      · exact looped.congr rfl rfl rfl rfl id looped.fragment
      · exact looped

theorem closeAfterWrite (held : Held options link.conn) : Held options link.closeAfterWrite.conn := by
  simp only [Link.closeAfterWrite]
  split
  · exact held
  · split
    · exact closeSocket link
    · exact held.congr rfl rfl rfl rfl id held.fragment

theorem mark {other : Connection} (held : Held options conn) (mark : Mark conn other)
    (small : other.fragmentSize ≤ options.maxMessageSize) : Held options other := by
  cases mark with
  | shut => exact held.congr rfl rfl rfl rfl (fun isOpen => absurd isOpen Bool.false_ne_true) small
  | fragment | pong | notified | defer => exact held.congr rfl rfl rfl rfl id small

theorem opened (options : Options) (fd acceptedAtUsec lastActivityUsec : Nat) :
    Held options { Connection.opened fd with
      acceptedAtUsec, lastActivityUsec, maxQueuedBytes := options.maxQueuedBytes } :=
  ⟨.cleared rfl rfl rfl, fun _ mem => absurd mem List.not_mem_nil, fun _ => rfl, Nat.zero_le _⟩

end Held

/-! ## Read buffers -/

theorem ReadSide.ensureCapacity_capacity {side grown : ReadSide} {appendLen limit : Nat}
    (ensured : side.ensureCapacity appendLen limit = some grown) :
    grown.capacity ≤ max side.capacity limit := by
  simp only [ensureCapacity] at ensured
  split at ensured
  · cases ensured
  · split at ensured
    · cases ensured
      exact Nat.le_max_left _ _
    · cases ensured
      generalize doubleCapacity _ _ _ = capacity
      dsimp only
      split
      · exact Nat.le_max_right _ _
      · rename_i within
        exact Nat.le_trans (Nat.le_of_not_lt within) (Nat.le_max_right _ _)

/-! ## The server -/

/-- The table and the connections keep to the options. -/
structure Hub.Thrifty (server : Server) (h : Hub) : Prop where
  table : h.connections.length ≤ server.options.maxConnections
  held : ∀ i, Held server.options (h.conn i)

namespace Hub.Thrifty

variable {server : Server} {served : ConnId → Prop} {h h' : Hub}

theorem of_same (thrifty : h.Thrifty server) (conn : h'.conn = h.conn)
    (table : h'.connections.length ≤ server.options.maxConnections) : h'.Thrifty server := by
  refine ⟨table, ?_⟩
  rw [conn]
  exact thrifty.held

theorem setConn (thrifty : h.Thrifty server) {i : ConnId} {conn : Connection}
    (held : Held server.options conn) : (h.setConn i conn).Thrifty server := by
  refine ⟨thrifty.table, fun j => ?_⟩
  by_cases same : j = i
  · subst same
    rw [Hub.conn_setConn]
    exact held
  · rw [show (h.setConn i conn).conn j = h.conn j from Function.update_of_ne same ..]
    exact thrifty.held j

theorem relink (thrifty : h.Thrifty server) {i : ConnId} {link : Link}
    (held : Held server.options link.conn) : (h.relink i link).Thrifty server :=
  (thrifty.setConn held).of_same rfl thrifty.table

theorem deed (thrifty : h.Thrifty server) (deed : Deed server.options.maxMessageSize served h h') :
    h'.Thrifty server := by
  cases deed with
  | @mark i conn mark own =>
      apply thrifty.setConn
      apply (thrifty.held i).mark mark
      rcases own with same | ⟨-, small⟩
      · have kept : conn.fragmentedPayload = (h.conn i).fragmentedPayload := congrArg (·.2.2) same
        rw [Connection.fragmentSize, kept]
        exact (thrifty.held i).fragment
      · exact small
  | closeSocket i => exact thrifty.relink (.closeSocket _)
  | closeAfterWrite i => exact thrifty.relink (Held.closeAfterWrite (thrifty.held i))
  | flush i => exact thrifty.relink (Held.flush (thrifty.held i))
  | @frame i source payload opcode valid =>
      have sent : (h.relink i ((h.link i).sendFrame payload opcode).2).Thrifty server :=
        thrifty.relink (Held.sendFrame (thrifty.held i) payload opcode)
      simp only [Hub.sendFrame]
      split
      · exact sent.of_same rfl sent.table
      · exact sent
  | respond | emit | raise | seen | stop => exact thrifty.of_same rfl thrifty.table

theorem deeds (thrifty : h.Thrifty server)
    (deeds : Deeds server.options.maxMessageSize served h h') : h'.Thrifty server := by
  induction deeds with
  | refl => exact thrifty
  | tail _ deed ih => exact ih.deed deed

theorem newcomer {w : World} (thrifty : w.toHub.Thrifty server) (fd : Nat)
    (room : w.connections.length < server.options.maxConnections) :
    (w.newcomer server fd).Thrifty server := by
  have entered : (w.toHub.setConn w.nextConnectionId { Connection.opened fd with
      acceptedAtUsec := w.env.now.1
      lastActivityUsec := w.env.now.1
      maxQueuedBytes := server.options.maxQueuedBytes }).Thrifty server :=
    thrifty.setConn (.opened _ fd _ _)
  refine entered.of_same rfl ?_
  change (w.connections ++ [w.nextConnectionId]).length ≤ _
  rw [List.length_append]
  exact room

theorem openConnection {w : World} (thrifty : w.toHub.Thrifty server) (fd : Nat)
    (room : w.connections.length < server.options.maxConnections) :
    (w.openConnection server fd).2.toHub.Thrifty server := by
  have entered := thrifty.newcomer fd room
  cases watched : (w.env.now.2.watchRead fd).1 with
  | true =>
      rw [World.openConnection_watched watched]
      exact entered.of_same rfl entered.table
  | false =>
      rw [World.openConnection_unwatched watched]
      have closed : ((w.newcomer server fd).closeSocket w.nextConnectionId).Thrifty server :=
        entered.relink (.closeSocket _)
      exact closed.of_same rfl thrifty.table

theorem remove {w : World} (thrifty : w.toHub.Thrifty server) {index : Nat} {i : ConnId}
    (told : Deeds server.options.maxMessageSize served
      { w.shutDown i with connections := w.connections.eraseIdx index } h) :
    (h.closeSocket i).Thrifty server := by
  have deed : Deed server.options.maxMessageSize served w.toHub (w.shut i) := w.shut_deed i
  have shut : (w.shut i).Thrifty server := thrifty.deed deed
  have gone : Hub.Thrifty server
      { w.shutDown i with connections := w.connections.eraseIdx index } :=
    shut.of_same rfl (Nat.le_trans (List.length_eraseIdx_le _ _) thrifty.table)
  exact (gone.deeds told).relink (.closeSocket _)

end Hub.Thrifty

/-- So do the read buffers. -/
structure World.Thrifty (server : Server) (w : World) : Prop extends w.toHub.Thrifty server where
  reads : ∀ i, (w.reads i).capacity ≤
    max httpMaxRequestSize (World.readLimit server.options.maxMessageSize)

namespace World.Thrifty

variable {server : Server} {served : ConnId → Prop} {w w' : World}

theorem start (server : Server) (env : Env) : (World.start env).Thrifty server :=
  ⟨⟨Nat.zero_le _, fun _ => .empty rfl rfl rfl rfl rfl⟩, fun _ => Nat.zero_le _⟩

theorem setReads (thrifty : w.Thrifty server) {i : ConnId} {side : ReadSide}
    (small : side.capacity ≤ max httpMaxRequestSize (World.readLimit server.options.maxMessageSize)) :
    (w.setReads i side).Thrifty server := by
  refine ⟨⟨thrifty.table, thrifty.held⟩, fun j => ?_⟩
  by_cases same : j = i
  · subst same
    rw [show (w.setReads j side).reads j = side from Function.update_self ..]
    exact small
  · rw [show (w.setReads i side).reads j = w.reads j from Function.update_of_ne same ..]
    exact thrifty.reads j

theorem effect (effect : Effect server served w w') (thrifty : w.Thrifty server) :
    w'.Thrifty server := by
  have alike {i : ConnId} {conn : Connection} (held : Held server.options conn) :
      World.Thrifty server { w with toHub := w.setConn i conn } :=
    ⟨thrifty.toThrifty.setConn held, thrifty.reads⟩
  cases effect with
  | deed deed => exact ⟨thrifty.toThrifty.deed deed, thrifty.reads⟩
  | answered => exact ⟨⟨thrifty.table, thrifty.held⟩, thrifty.reads⟩
  | stamp | beat | upgrade =>
      exact alike ((thrifty.held _).congr rfl rfl rfl rfl id (thrifty.held _).fragment)
  | approve _ _ told =>
      have heard := thrifty.toThrifty.deeds told
      exact ⟨heard.of_same rfl heard.table, thrifty.reads⟩
  | @fill i acting chunk limit side limited grown =>
      apply thrifty.setReads
      apply Nat.le_trans (ReadSide.ensureCapacity_capacity grown)
      apply Nat.max_le.mpr ⟨thrifty.reads i, _⟩
      rcases limited with rfl | rfl
      · exact Nat.le_max_left _ _
      · exact Nat.le_max_right _ _
  | @discard i acting bytes => exact thrifty.setReads (thrifty.reads i)
  | admission fd going room =>
      refine ⟨thrifty.toThrifty.openConnection fd room, fun j => ?_⟩
      have reads : (w.openConnection server fd).2.reads =
          Function.update w.reads w.nextConnectionId {} := by
        simp only [World.openConnection]
        split <;> rfl
      rw [reads]
      by_cases same : j = w.nextConnectionId
      · rw [same, Function.update_self]
        exact Nat.zero_le _
      · rw [Function.update_of_ne same]
        exact thrifty.reads j
  | remove here told => exact ⟨thrifty.toThrifty.remove told, thrifty.reads⟩
  | listen fd => exact ⟨⟨thrifty.table, thrifty.held⟩, thrifty.reads⟩
  | unlisten =>
      simp only [Hub.unlistened]
      split <;> exact ⟨⟨thrifty.table, thrifty.held⟩, thrifty.reads⟩

theorem run (server : Server) (env : Env) (waits : List WaitResult) :
    ((World.start env).runtimeRun server waits).world.Thrifty server := by
  have effects : Effects server (fun _ => True) (World.start env)
      ((World.start env).runtimeRun server waits).world :=
    World.runtimeRun_effects server _ (fun _ => trivial) waits
  exact effects.invariant (fun effect => World.Thrifty.effect effect) (start server env)

theorem footprint_le (thrifty : w.Thrifty server) (i : ConnId) :
    w.footprint i ≤ server.options.footprint :=
  Nat.add_le_add (Nat.add_le_add (thrifty.reads i) (thrifty.held i).queueSize_le)
    (thrifty.held i).fragment

end World.Thrifty

/-- In every run, whatever the clients send and however slowly they read: the table has
    `maxConnections` entries at most, no connection object holds more than the options
    allow, and the table as a whole holds no more than that for each entry. -/
theorem memory_bounded (server : Server) (env : Env) (waits : List WaitResult) :
    let w := ((World.start env).runtimeRun server waits).world
    w.connections.length ≤ server.options.maxConnections ∧
    (∀ i, w.footprint i ≤ server.options.footprint) ∧
    (w.connections.map w.footprint).sum ≤ server.options.maxConnections * server.options.footprint := by
  intro w
  have thrifty : w.Thrifty server := World.Thrifty.run server env waits
  refine ⟨thrifty.table, thrifty.footprint_le, ?_⟩
  have each := List.sum_le_card_nsmul (w.connections.map w.footprint) server.options.footprint (by
    intro size mem
    obtain ⟨i, -, rfl⟩ := List.mem_map.mp mem
    exact thrifty.footprint_le i)
  rw [List.length_map, Nat.nsmul_eq_mul] at each
  exact Nat.le_trans each (Nat.mul_le_mul_right _ thrifty.table)

end PhpWebSocket
