import PhpWebSocket.Lib.Machine
import PhpWebSocket.Lib.Vec
import PhpWebSocket.Life
import PhpWebSocket.WriteAccount

/-! # The write queue in memory

The write queue once more, as a connection object keeps it: an array of pointers that grows and
from whose front `memmove` takes, on memory in which every access is checked, and three counters
that are machine words. What the model says of the queue is what happens in memory.
-/

namespace PhpWebSocket

open Lib

/-- `sizeof(zend_string *)` -/
def pointerSize : UInt64 := 8

/-- The fields of a connection object that are the write queue, and what its socket has taken. -/
structure WriteMemory where
  frames : Vec Bytes := {}
  offset : UInt64 := 0
  queuedBytes : UInt64 := 0
  maxQueuedBytes : UInt64
  wire : Bytes := []

namespace WriteMemory

/-- `websocket_connection_ensure_write_capacity`. -/
def ensureWriteCapacity (frames : Vec Bytes) : Vec Bytes :=
  if frames.count < frames.capacity then frames else frames.grow pointerSize

/-- `websocket_connection_queue_frame`, but for the driver. -/
def queueFrame (m : WriteMemory) (frame : Bytes) (offset : UInt64) :
    Checked (Bool × WriteMemory) :=
  let remaining := UInt64.ofNat frame.length - offset
  if remaining > m.maxQueuedBytes || m.queuedBytes > m.maxQueuedBytes - remaining then
    .ok (false, m)
  else do
    let frames := ensureWriteCapacity m.frames
    let first := if frames.count = 0 then offset else m.offset
    let frames ← frames.push frame
    .ok (true, { m with frames, offset := first, queuedBytes := m.queuedBytes + remaining })

/-- The loop of `websocket_connection_flush`. -/
def flushFrom : Nat → List SendResult → Option Errno → WriteMemory →
    Checked (Link.Flushed × WriteMemory)
  | 0, _, _, _ => .error .endless
  | fuel + 1, sends, errno, m =>
      if m.frames.count > 0 then do
        let frame ← m.frames.get 0
        let w := writeSome sends errno (frame.length - m.offset.toNat)
        let m := { m with wire := m.wire ++ (frame.drop m.offset.toNat).take w.count }
        if !w.ok then .ok (.broken, m)
        else
          let written := UInt64.ofNat w.count
          let queuedBytes := if written > m.queuedBytes then 0 else m.queuedBytes - written
          let offset := m.offset + written
          if offset < UInt64.ofNat frame.length then .ok (.blocked, { m with queuedBytes, offset })
          else do
            let frames ← m.frames.removeAt 0
            flushFrom fuel w.sends w.errno { m with frames, offset := 0, queuedBytes }
      else .ok (.drained, m)

def flush (m : WriteMemory) (sends : List SendResult) (errno : Option Errno) :
    Checked (Link.Flushed × WriteMemory) :=
  m.flushFrom (m.frames.count.toNat + 1) sends errno

/-- `websocket_connection_clear_write_queue`: every frame is released. -/
def clearWriteQueue (m : WriteMemory) : Checked WriteMemory := do
  let _ ← m.frames.fold (fun _ _ => .ok ()) ()
  .ok { m with frames := { m.frames with count := 0 }, offset := 0, queuedBytes := 0 }

end WriteMemory

/-- What the functions of a connection do to its queue. -/
inductive QueueUse where
  | queueFrame (frame : Bytes) (offset : Nat)
  | flush (sends : List SendResult) (errno : Option Errno)
  | clearWriteQueue

/-- What a use comes to. -/
inductive QueueResult where
  | queued (ok : Bool)
  | flushed (f : Link.Flushed)
  | cleared

def WriteMemory.use (m : WriteMemory) : QueueUse → Checked (QueueResult × WriteMemory)
  | .queueFrame frame offset => do
      let done ← m.queueFrame frame (UInt64.ofNat offset)
      .ok (.queued done.1, done.2)
  | .flush sends errno => do
      let done ← m.flush sends errno
      .ok (.flushed done.1, done.2)
  | .clearWriteQueue => do
      let done ← m.clearWriteQueue
      .ok (.cleared, done)

/-- The same in the model, where no driver is there to be asked. -/
def Connection.use (conn : Connection) : QueueUse → QueueResult × Connection
  | .queueFrame frame offset =>
      let done := Link.queueFrame ⟨conn, { driver := none }⟩ frame offset
      (.queued done.1, done.2.conn)
  | .flush sends errno =>
      let done := Link.flushLoop conn.writeQueue ⟨conn, { sends, errno, driver := none }⟩
      (.flushed done.1, done.2.conn)
  | .clearWriteQueue => (.cleared, conn.clearWriteQueue)

/-- How `send_frame` queues: what the socket did not take of a frame, and behind other frames all
    of it. A string has fewer than 2^63 octets. -/
def Connection.Queues (conn : Connection) : QueueUse → Prop
  | .queueFrame frame offset =>
      offset < frame.length ∧ frame.length < 2 ^ 63 ∧ (conn.writeQueue ≠ [] → offset = 0)
  | _ => True

/-- The memory is the queue of the connection, whose account is right. -/
structure WriteMemory.Shows (m : WriteMemory) (conn : Connection) : Prop where
  array : m.frames.Holds conn.writeQueue
  offset : m.offset.toNat = conn.writeQueueOffset
  queuedBytes : m.queuedBytes.toNat = conn.queuedBytes
  maxQueuedBytes : m.maxQueuedBytes.toNat = conn.maxQueuedBytes
  wire : m.wire = conn.wire
  counted : Counted conn
  strings : ∀ frame ∈ conn.writeQueue, frame.length < 2 ^ 63
  small : conn.maxQueuedBytes < 2 ^ 59

theorem toNat_ofNat_of_string {n : Nat} (small : n < 2 ^ 63) : (UInt64.ofNat n).toNat = n := by
  rw [UInt64.toNat_ofNat', Nat.mod_eq_of_lt (by omega)]

theorem toNat_sub_of_le {a b : UInt64} (le : b.toNat ≤ a.toNat) :
    (a - b).toNat = a.toNat - b.toNat :=
  UInt64.toNat_sub_of_le _ _ (UInt64.le_iff_toNat_le.mpr le)

theorem toNat_add_of_lt {a b : UInt64} (lt : a.toNat + b.toNat < 2 ^ 64) :
    (a + b).toNat = a.toNat + b.toNat := by
  rw [UInt64.toNat_add, Nat.mod_eq_of_lt lt]

theorem Counted.length_le {conn : Connection} (counted : Counted conn) :
    conn.writeQueue.length ≤ conn.queuedBytes := by
  have whole (frames : List Bytes) (nonempty : ∀ frame ∈ frames, frame ≠ []) :
      frames.length ≤ frames.flatten.length := by
    induction frames with
    | nil => exact Nat.le_refl 0
    | cons frame rest ih =>
        have some := List.length_pos_iff.mpr (nonempty frame List.mem_cons_self)
        have others := ih fun later mem => nonempty later (List.mem_cons_of_mem _ mem)
        simp only [List.length_cons, List.flatten_cons, List.length_append]
        omega
  rw [counted.bytes]
  cases queue : conn.writeQueue with
  | nil => exact Nat.le_refl 0
  | cons frame rest =>
      have head := counted.head frame rest queue
      have others := whole rest fun later mem =>
        counted.frames later (queue ▸ List.mem_cons_of_mem _ mem)
      simp only [unsent_cons, List.length_cons, List.length_append, List.length_drop]
      omega

namespace WriteMemory

variable {m : WriteMemory} {conn : Connection} {frame : Bytes}

/-- There is room for one more pointer, and the size of the block is a machine word. -/
theorem Shows.ensure (shows : m.Shows conn) :
    (ensureWriteCapacity m.frames).Holds conn.writeQueue ∧
      (ensureWriteCapacity m.frames).count < (ensureWriteCapacity m.frames).capacity ∧
      (ensureWriteCapacity m.frames).count = m.frames.count := by
  have few := shows.counted.length_le.trans shows.counted.bound
  have small := shows.small
  unfold ensureWriteCapacity
  by_cases room : m.frames.count < m.frames.capacity
  · rw [if_pos room]
    exact ⟨shows.array, room, rfl⟩
  · have cells := shows.array.capacity
    have inside := shows.array.room
    have count := shows.array.count
    have full : m.frames.count = m.frames.capacity := by
      apply UInt64.toNat.inj
      rw [UInt64.lt_iff_toNat_lt] at room
      omega
    rw [if_neg room]
    have positive : 0 < pointerSize := by decide
    obtain ⟨holds, more, -⟩ := shows.array.grow positive full (by
      rw [show pointerSize.toNat = 8 from rfl]
      omega)
    exact ⟨holds, more, rfl⟩

theorem Shows.queueFrame (shows : m.Shows conn) {offset : Nat}
    (queues : conn.Queues (.queueFrame frame offset)) (env : Env) (alone : env.driver = none) :
    ∃ m', m.queueFrame frame (UInt64.ofNat offset) =
        .ok ((Link.queueFrame ⟨conn, env⟩ frame offset).1, m') ∧
      m'.Shows (Link.queueFrame ⟨conn, env⟩ frame offset).2.conn := by
  obtain ⟨inside, string, start⟩ := queues
  have length := toNat_ofNat_of_string string
  have first := toNat_ofNat_of_string (inside.trans string)
  have remaining : (UInt64.ofNat frame.length - UInt64.ofNat offset).toNat = frame.length - offset := by
    rw [toNat_sub_of_le (by rw [length, first]; exact inside.le), length, first]
  have full : (UInt64.ofNat frame.length - UInt64.ofNat offset > m.maxQueuedBytes ∨
        m.queuedBytes > m.maxQueuedBytes - (UInt64.ofNat frame.length - UInt64.ofNat offset)) ↔
      (frame.length - offset > conn.maxQueuedBytes ∨
        conn.queuedBytes > conn.maxQueuedBytes - (frame.length - offset)) := by
    have large : UInt64.ofNat frame.length - UInt64.ofNat offset > m.maxQueuedBytes ↔
        frame.length - offset > conn.maxQueuedBytes := by
      rw [gt_iff_lt, UInt64.lt_iff_toNat_lt, remaining, shows.maxQueuedBytes]
    by_cases fits : frame.length - offset > conn.maxQueuedBytes
    · exact iff_of_true (.inl (large.mpr fits)) (.inl fits)
    · rw [large, gt_iff_lt, gt_iff_lt, UInt64.lt_iff_toNat_lt, toNat_sub_of_le, remaining,
        shows.maxQueuedBytes, shows.queuedBytes]
      rw [remaining, shows.maxQueuedBytes]
      exact Nat.le_of_not_lt fits
  simp only [WriteMemory.queueFrame, Link.queueFrame, Bool.or_eq_true, decide_eq_true_eq, full]
  split
  · exact ⟨m, rfl, shows⟩
  · rename_i room
    have less : conn.queuedBytes + (frame.length - offset) ≤ conn.maxQueuedBytes := by omega
    have small := shows.small
    obtain ⟨holds, more, same⟩ := shows.ensure
    obtain ⟨frames, pushed, -, holds'⟩ := holds.push more frame
    simp only [alone, Option.isSome_none, Bool.and_false, Bool.false_eq_true, if_false, pushed,
      Checked.ok_bind]
    refine ⟨_, rfl, holds', ?_, ?_, shows.maxQueuedBytes, shows.wire,
      shows.counted.enqueue inside start less, ?_, small⟩
    · have idle : (ensureWriteCapacity m.frames).count = 0 ↔ conn.writeQueue = [] := by
        rw [← List.length_eq_zero_iff, ← holds.count]
        exact ⟨fun none => by rw [none]; rfl, fun none => UInt64.toNat.inj none⟩
      simp only [Connection.enqueue, idle]
      split
      · exact first
      · exact shows.offset
    · have sum : m.queuedBytes.toNat + (UInt64.ofNat frame.length - UInt64.ofNat offset).toNat < 2 ^ 64 := by
        rw [remaining, shows.queuedBytes]
        omega
      change (m.queuedBytes + (UInt64.ofNat frame.length - UInt64.ofNat offset)).toNat = _
      rw [toNat_add_of_lt sum, remaining, shows.queuedBytes]
      rfl
    · intro other mem
      rcases List.mem_append.mp mem with old | new
      · exact shows.strings other old
      · exact List.mem_singleton.mp new ▸ string

/-- The loop of `flush` finds in memory what the loop over the queue finds. -/
theorem Shows.flushFrom (queue : List Bytes) (atQueue : conn.writeQueue = queue) (shows : m.Shows conn)
    (env : Env) {fuel : Nat} (enough : queue.length < fuel) :
    ∃ m', m.flushFrom fuel env.sends env.errno = .ok ((Link.flushLoop queue ⟨conn, env⟩).1, m') ∧
      m'.Shows (Link.flushLoop queue ⟨conn, env⟩).2.conn := by
  induction queue generalizing m conn env fuel with
  | nil =>
      obtain ⟨fuel, rfl⟩ := Nat.exists_eq_add_one_of_ne_zero (Nat.ne_of_gt enough)
      have none : ¬ m.frames.count > 0 := by
        rw [gt_iff_lt, UInt64.lt_iff_toNat_lt, shows.array.count, atQueue]
        exact Nat.lt_irrefl 0
      exact ⟨m, if_neg none, shows⟩
  | cons frame rest ih =>
      obtain ⟨fuel, rfl⟩ := Nat.exists_eq_add_one_of_ne_zero (Nat.ne_of_gt (Nat.zero_lt_of_lt enough))
      have some : (0 : UInt64).toNat < conn.writeQueue.length := by
        rw [atQueue]
        exact Nat.zero_lt_succ _
      have more : m.frames.count > 0 := by
        rw [gt_iff_lt, UInt64.lt_iff_toNat_lt, shows.array.count]
        exact some
      have head : m.frames.get 0 = .ok frame := by
        rw [shows.array.get some]
        simp [atQueue]
      have string : frame.length < 2 ^ 63 :=
        shows.strings frame (by rw [atQueue]; exact List.mem_cons_self)
      have inside := shows.counted.head frame rest atQueue
      have present := writeSome_count_le env.sends env.errno (frame.length - conn.writeQueueOffset)
      obtain ⟨within, -⟩ := shows.counted.advance atQueue present
      rw [WriteMemory.flushFrom, if_pos more, head, Checked.ok_bind]
      simp only [Link.flushLoop, Link.wrote, shows.offset]
      generalize writeSome env.sends env.errno (frame.length - conn.writeQueueOffset) = w at present within ⊢
      have taken : (UInt64.ofNat w.count).toNat = w.count := toNat_ofNat_of_string (by omega)
      have wire : m.wire ++ (frame.drop conn.writeQueueOffset).take w.count =
          conn.wire ++ (frame.drop conn.writeQueueOffset).take w.count := by
        rw [shows.wire]
      cases w.ok with
      | false =>
          exact ⟨_, rfl, shows.array, shows.offset, shows.queuedBytes, shows.maxQueuedBytes, wire,
            shows.counted.congr rfl rfl rfl rfl, shows.strings, shows.small⟩
      | true =>
          have counts : ¬ UInt64.ofNat w.count > m.queuedBytes := by
            rw [gt_iff_lt, UInt64.lt_iff_toNat_lt, taken, shows.queuedBytes]
            exact Nat.not_lt.mpr within
          have left : (m.queuedBytes - UInt64.ofNat w.count).toNat = conn.queuedBytes - w.count := by
            rw [toNat_sub_of_le (by rw [taken, shows.queuedBytes]; exact within), taken,
              shows.queuedBytes]
          have reached : (m.offset + UInt64.ofNat w.count).toNat = conn.writeQueueOffset + w.count := by
            rw [toNat_add_of_lt (by rw [taken, shows.offset]; omega), taken, shows.offset]
          have ends : m.offset + UInt64.ofNat w.count < UInt64.ofNat frame.length ↔
              conn.writeQueueOffset + w.count < frame.length := by
            rw [UInt64.lt_iff_toNat_lt, reached, toNat_ofNat_of_string string]
          simp only [Bool.not_true, Bool.false_eq_true, if_false, counts, Nat.not_lt.mpr within, ends]
          split
          · rename_i short
            exact ⟨_, rfl, shows.array, reached, left, shows.maxQueuedBytes, wire,
              (shows.counted.taken atQueue present short).congr rfl rfl rfl rfl, shows.strings,
              shows.small⟩
          · rename_i whole
            obtain ⟨frames, removed, -, holds⟩ := shows.array.removeAt some
            rw [atQueue] at holds
            rw [removed, Checked.ok_bind]
            have later : WriteMemory.Shows
                { m with
                  frames
                  offset := 0
                  queuedBytes := m.queuedBytes - UInt64.ofNat w.count
                  wire := m.wire ++ (frame.drop conn.writeQueueOffset).take w.count }
                { conn with
                  queuedBytes := conn.queuedBytes - w.count
                  writeQueue := rest
                  writeQueueOffset := 0
                  wire := conn.wire ++ (frame.drop conn.writeQueueOffset).take w.count } := by
              refine ⟨holds, rfl, left, shows.maxQueuedBytes, wire,
                (shows.counted.popped atQueue present whole).congr rfl rfl rfl rfl, ?_, shows.small⟩
              intro other mem
              exact shows.strings other (by rw [atQueue]; exact List.mem_cons_of_mem _ mem)
            exact ih rfl later { env with sends := w.sends, errno := w.errno }
              (Nat.lt_of_succ_lt_succ enough)

theorem Shows.clearWriteQueue (shows : m.Shows conn) :
    ∃ m', m.clearWriteQueue = .ok m' ∧ m'.Shows conn.clearWriteQueue := by
  have released (frames : List Bytes) :
      frames.foldlM (fun _ _ => (.ok () : Checked Unit)) () = .ok () := by
    induction frames with
    | nil => rfl
    | cons frame rest ih => exact ih
  refine ⟨{ m with frames := { m.frames with count := 0 }, offset := 0, queuedBytes := 0 }, ?_, ?_⟩
  · rw [WriteMemory.clearWriteQueue, shows.array.fold, released, Checked.ok_bind]
  · have empty : Vec.Holds { m.frames with count := 0 } ([] : List Bytes) :=
      ⟨rfl, shows.array.capacity, Nat.zero_le _, fun n none => absurd none (Nat.not_lt_zero n)⟩
    exact ⟨empty, rfl, rfl, shows.maxQueuedBytes, shows.wire, .cleared rfl rfl rfl,
      fun _ mem => absurd mem List.not_mem_nil, shows.small⟩

theorem refines : Refines WriteMemory.Shows Connection.Queues WriteMemory.use Connection.use := by
  intro m conn u shows queues
  cases u with
  | queueFrame frame offset =>
      obtain ⟨m', queued, shows'⟩ := shows.queueFrame queues { driver := none } rfl
      exact ⟨m', by rw [WriteMemory.use, queued, Checked.ok_bind]; rfl, shows'⟩
  | flush sends errno =>
      have enough : conn.writeQueue.length < m.frames.count.toNat + 1 := by
        rw [shows.array.count]
        exact Nat.lt_succ_self _
      obtain ⟨m', flushed, shows'⟩ :=
        Shows.flushFrom conn.writeQueue rfl shows { sends, errno, driver := none } enough
      exact ⟨m', by rw [WriteMemory.use, WriteMemory.flush, flushed, Checked.ok_bind]; rfl, shows'⟩
  | clearWriteQueue =>
      obtain ⟨m', cleared, shows'⟩ := shows.clearWriteQueue
      exact ⟨m', by rw [WriteMemory.use, cleared, Checked.ok_bind]; rfl, shows'⟩

theorem empty {limit : UInt64} (small : limit.toNat < 2 ^ 59) :
    WriteMemory.Shows { maxQueuedBytes := limit } { maxQueuedBytes := limit.toNat } :=
  ⟨Vec.holds_empty, rfl, rfl, rfl, rfl, .cleared rfl rfl rfl,
    fun _ mem => absurd mem List.not_mem_nil, small⟩

end WriteMemory

/-! ## How `send_frame` queues -/

/-- The two hold the same queue. -/
structure Connection.SameQueue (a b : Connection) : Prop where
  frames : b.writeQueue = a.writeQueue
  offset : b.writeQueueOffset = a.writeQueueOffset
  queuedBytes : b.queuedBytes = a.queuedBytes
  maxQueuedBytes : b.maxQueuedBytes = a.maxQueuedBytes

namespace Connection.SameQueue

variable {a b c : Connection}

theorem refl (a : Connection) : a.SameQueue a := ⟨rfl, rfl, rfl, rfl⟩

theorem symm (same : a.SameQueue b) : b.SameQueue a :=
  ⟨same.frames.symm, same.offset.symm, same.queuedBytes.symm, same.maxQueuedBytes.symm⟩

theorem trans (first : a.SameQueue b) (next : b.SameQueue c) : a.SameQueue c :=
  ⟨next.frames.trans first.frames, next.offset.trans first.offset,
    next.queuedBytes.trans first.queuedBytes, next.maxQueuedBytes.trans first.maxQueuedBytes⟩

end Connection.SameQueue

theorem Connection.use_queueFrame (conn : Connection) (frame : Bytes) (offset : Nat) :
    (conn.use (.queueFrame frame offset)).2 =
      if frame.length - offset > conn.maxQueuedBytes ||
        conn.queuedBytes > conn.maxQueuedBytes - (frame.length - offset) then conn
      else conn.enqueue frame offset := by
  simp only [Connection.use, Link.queueFrame, Option.isSome_none, Bool.and_false, Bool.false_eq_true,
    if_false]
  split <;> rfl

theorem Connection.use_wire (conn : Connection) (wire : Bytes) (frame : Bytes) (offset : Nat) :
    (conn.use (.queueFrame frame offset)).2.SameQueue
      (Connection.use { conn with wire } (.queueFrame frame offset)).2 := by
  simp only [Connection.use_queueFrame]
  by_cases full : (frame.length - offset > conn.maxQueuedBytes ||
      conn.queuedBytes > conn.maxQueuedBytes - (frame.length - offset)) = true
  · simp only [full, if_true]
    exact ⟨rfl, rfl, rfl, rfl⟩
  · simp only [full]
    exact ⟨rfl, rfl, rfl, rfl⟩

namespace Link

theorem queueFrame_queue (link : Link) (frame : Bytes) (offset : Nat) :
    (link.conn.use (.queueFrame frame offset)).2.SameQueue (link.queueFrame frame offset).2.conn := by
  rw [Connection.use_queueFrame]
  simp only [queueFrame]
  split
  · exact ⟨rfl, rfl, rfl, rfl⟩
  · split
    · split <;> exact ⟨rfl, rfl, rfl, rfl⟩
    · exact ⟨rfl, rfl, rfl, rfl⟩

theorem settle_queue (result : Bool × Link) : result.2.conn.SameQueue (settle result).2.conn := by
  unfold settle
  split <;> exact ⟨rfl, rfl, rfl, rfl⟩

theorem sendFrame_queues (link : Link) (payload : Bytes) (opcode : UInt8)
    (small : link.conn.maxQueuedBytes < 2 ^ 63) :
    link.conn.SameQueue (link.sendFrame payload opcode).2.conn ∨
      ∃ frame offset, link.conn.Queues (.queueFrame frame offset) ∧
        (link.conn.use (.queueFrame frame offset)).2.SameQueue (link.sendFrame payload opcode).2.conn := by
  simp only [sendFrame, packPayload_server]
  split
  · exact .inl ⟨rfl, rfl, rfl, rfl⟩
  · split
    · exact .inl ⟨rfl, rfl, rfl, rfl⟩
    · rename_i fits
      have string : (serverFrame payload opcode).length < 2 ^ 63 :=
        (Nat.le_of_not_lt fits).trans_lt small
      split
      · have some : 0 < (serverFrame payload opcode).length := Nat.zero_lt_succ _
        refine .inr ⟨serverFrame payload opcode, 0, ⟨some, string, fun _ => rfl⟩, ?_⟩
        exact (link.queueFrame_queue _ 0).trans (settle_queue _)
      · rename_i idle
        split
        · rename_i short
          simp only [Bool.and_eq_true, decide_eq_true_eq] at short
          refine .inr ⟨serverFrame payload opcode, _, ⟨short.2, string, fun busy => absurd busy idle⟩, ?_⟩
          let w := writeSome link.env.sends link.env.errno (serverFrame payload opcode).length
          let sent := link.wrote (serverFrame payload opcode) 0 w
          have same := link.conn.use_wire sent.conn.wire (serverFrame payload opcode) w.count
          have queued := sent.queueFrame_queue (serverFrame payload opcode) w.count
          exact same.trans (queued.trans (settle_queue _))
        · let w := writeSome link.env.sends link.env.errno (serverFrame payload opcode).length
          have same := settle_queue (w.ok, link.wrote (serverFrame payload opcode) 0 w)
          exact .inl ⟨same.frames, same.offset, same.queuedBytes, same.maxQueuedBytes⟩

end Link

/-- The loop of `flush` looks at nothing but the queue and what the socket answers. -/
theorem Link.flushLoop_queue (queue : List Bytes) {link link' : Link}
    (same : link.conn.SameQueue link'.conn) (sends : link'.env.sends = link.env.sends)
    (errno : link'.env.errno = link.env.errno) :
    (flushLoop queue link).1 = (flushLoop queue link').1 ∧
      (flushLoop queue link).2.conn.SameQueue (flushLoop queue link').2.conn := by
  induction queue generalizing link link' with
  | nil => exact ⟨rfl, same⟩
  | cons frame rest ih =>
      obtain ⟨frames, offset, queuedBytes, maxQueuedBytes⟩ := same
      simp only [flushLoop, wrote, offset, sends, errno, queuedBytes]
      split
      · exact ⟨rfl, frames, rfl, rfl, maxQueuedBytes⟩
      · split
        · exact ⟨rfl, frames, rfl, rfl, maxQueuedBytes⟩
        · exact ih ⟨rfl, rfl, rfl, maxQueuedBytes⟩ rfl rfl

namespace Connection.SameQueue

variable {a b : Connection}

theorem use (same : a.SameQueue b) (u : QueueUse) : (a.use u).2.SameQueue (b.use u).2 := by
  cases u with
  | queueFrame frame offset =>
      obtain ⟨frames, offsets, queuedBytes, maxQueuedBytes⟩ := same
      rw [use_queueFrame, use_queueFrame, queuedBytes, maxQueuedBytes]
      split
      · exact ⟨frames, offsets, queuedBytes, maxQueuedBytes⟩
      · simp only [enqueue]
        exact ⟨by rw [frames], by rw [frames, offsets], by rw [queuedBytes], maxQueuedBytes⟩
  | flush sends errno =>
      simp only [Connection.use, same.frames]
      exact (@Link.flushLoop_queue a.writeQueue ⟨a, _⟩ ⟨b, _⟩ same rfl rfl).2
  | clearWriteQueue => exact ⟨rfl, rfl, rfl, same.maxQueuedBytes⟩

theorem queues (same : a.SameQueue b) {u : QueueUse} (queues : a.Queues u) : b.Queues u := by
  cases u with
  | queueFrame frame offset =>
      obtain ⟨inside, string, start⟩ := queues
      exact ⟨inside, string, fun busy => start (same.frames ▸ busy)⟩
  | flush | clearWriteQueue => trivial

theorem answers (same : a.SameQueue b) {uses : List QueueUse}
    (queues : Admitted Connection.Queues Connection.use a uses) :
    Admitted Connection.Queues Connection.use b uses ∧
      (Lib.answers Connection.use a uses).2.SameQueue (Lib.answers Connection.use b uses).2 := by
  induction uses generalizing a b with
  | nil => exact ⟨trivial, same⟩
  | cons u rest ih =>
      obtain ⟨admitted, queued⟩ := ih (same.use u) queues.2
      exact ⟨⟨same.queues queues.1, admitted⟩, queued⟩

end Connection.SameQueue

/-- The uses lead from the one queue to the other. -/
def Connection.Becomes (a b : Connection) : Prop :=
  ∃ uses, Admitted Connection.Queues Connection.use a uses ∧
    (answers Connection.use a uses).2.SameQueue b

namespace Connection.Becomes

variable {a b c : Connection}

theorem of_same (same : a.SameQueue b) : a.Becomes b := ⟨[], trivial, same⟩

theorem single {u : QueueUse} (queues : a.Queues u) (same : (a.use u).2.SameQueue b) : a.Becomes b :=
  ⟨[u], ⟨queues, trivial⟩, same⟩

theorem trans (first : a.Becomes b) (next : b.Becomes c) : a.Becomes c := by
  obtain ⟨uses, admitted, same⟩ := first
  obtain ⟨more, admitted', same'⟩ := next
  obtain ⟨later, queued⟩ := same.symm.answers admitted'
  refine ⟨uses ++ more, admitted.append later, ?_⟩
  rw [answers_append]
  exact queued.symm.trans same'

theorem cleared (same : a.clearWriteQueue.SameQueue b) : a.Becomes b :=
  single (u := .clearWriteQueue) trivial same

end Connection.Becomes

theorem Link.flush_becomes (link : Link) : link.conn.Becomes link.flush.2.conn := by
  let alone : Env := { sends := link.env.sends, errno := link.env.errno, driver := none }
  have looped := @flushLoop_queue link.conn.writeQueue ⟨link.conn, alone⟩ link (.refl _) rfl rfl
  have queues : link.conn.Queues (.flush link.env.sends link.env.errno) := trivial
  have flushed : link.conn.Becomes (flushLoop link.conn.writeQueue link).2.conn :=
    .single queues looped.2
  have settled {last : Link} (same : (flushLoop link.conn.writeQueue link).2.conn.SameQueue last.conn) :
      link.conn.Becomes (if last.conn.closeAfterWrite then last.closeSocket else last).conn := by
    have left := flushed.trans (.of_same same)
    split
    · exact left.trans (.cleared ⟨rfl, rfl, rfl, rfl⟩)
    · exact left
  simp only [flush]
  split
  · exact .of_same (.refl _)
  · cases (flushLoop link.conn.writeQueue link).1 with
    | broken | blocked => exact flushed
    | drained =>
        apply settled
        split <;> exact ⟨rfl, rfl, rfl, rfl⟩

theorem Operation.perform_becomes (op : Operation) (link : Link)
    (small : link.conn.maxQueuedBytes < 2 ^ 63) : link.conn.Becomes (op.perform link).2.conn := by
  have sent (link : Link) (payload : Bytes) (opcode : UInt8)
      (small : link.conn.maxQueuedBytes < 2 ^ 63) :
      link.conn.Becomes (link.sendFrame payload opcode).2.conn := by
    rcases link.sendFrame_queues payload opcode small with same | ⟨frame, offset, queues, same⟩
    · exact .of_same same
    · exact .single queues same
  cases op with
  | sendFrame payload opcode => exact sent link payload opcode small
  | sendCloseFrame code reason =>
      simp only [perform, Link.sendCloseFrame]
      split
      · exact .of_same (.refl _)
      · split
        · exact .of_same (.refl _)
        · exact sent link _ _ small
  | flush => exact link.flush_becomes
  | closeAfterWrite =>
      simp only [perform, Link.closeAfterWrite]
      split
      · exact .of_same (.refl _)
      · split
        · exact .cleared ⟨rfl, rfl, rfl, rfl⟩
        · exact .of_same ⟨rfl, rfl, rfl, rfl⟩
  | closeSocket => exact .cleared ⟨rfl, rfl, rfl, rfl⟩

theorem Operation.perform_limit (op : Operation) (link : Link) :
    (op.perform link).2.conn.maxQueuedBytes = link.conn.maxQueuedBytes := by
  cases op with
  | sendFrame payload opcode => exact (link.sendFrame_yields 0 payload opcode).maxQueuedBytes
  | sendCloseFrame code reason =>
      simp only [perform, Link.sendCloseFrame]
      split
      · rfl
      · split
        · rfl
        · exact (link.sendFrame_yields 0 _ _).maxQueuedBytes
  | flush => exact (link.flush_yields 0).maxQueuedBytes
  | closeAfterWrite => exact (link.closeAfterWrite_yields 0).maxQueuedBytes
  | closeSocket => rfl

/-- The calls one after the other, each with answers of its own. -/
def Operation.run (link : Link) (ops : List (Answers × Operation)) : Link :=
  ops.foldl (fun link op => (op.2.perform (link.answering op.1)).2) link

theorem Operation.run_becomes (ops : List (Answers × Operation)) (link : Link)
    (small : link.conn.maxQueuedBytes < 2 ^ 63) : link.conn.Becomes (run link ops).conn := by
  induction ops generalizing link with
  | nil => exact .of_same (.refl _)
  | cons op rest ih =>
      have first := op.2.perform_becomes (link.answering op.1) small
      have limit := op.2.perform_limit (link.answering op.1)
      exact first.trans (ih _ (limit ▸ small))

/-- For every order in which a connection queues, flushes and gives up its frames, whatever its
    socket takes: its functions stay inside their memory, read no pointer that has not been
    written, ask for no block whose size overflows, and none of their counters wraps; they give the
    answers of the model, and the array ends up holding its queue. Whatever calls are made of a new
    connection, they do to its queue no more than this. -/
theorem write_queue_inside {limit : UInt64} (small : limit.toNat < 2 ^ 59) :
    let new : Connection := { maxQueuedBytes := limit.toNat }
    (∀ uses, Admitted Connection.Queues Connection.use new uses →
      ∃ m, checkedAnswers WriteMemory.use { maxQueuedBytes := limit } uses =
          .ok ((answers Connection.use new uses).1, m) ∧
        m.Shows (answers Connection.use new uses).2) ∧
    ∀ link ops, new.SameQueue link.conn → new.Becomes (Operation.run link ops).conn := by
  intro new
  constructor
  · intro uses queues
    exact WriteMemory.refines.run (WriteMemory.empty small) queues
  · intro link ops same
    have string : link.conn.maxQueuedBytes < 2 ^ 63 := by
      rw [same.maxQueuedBytes]
      exact small.trans (by decide)
    exact Connection.Becomes.trans (.of_same same) (Operation.run_becomes ops link string)

/-- Nine frames, for which the array grows, and of which the socket takes the first two. -/
theorem write_queue_inside_grown :
    let uses : List QueueUse := .queueFrame [1, 2, 3] 1 ::
      List.replicate 8 (.queueFrame [4, 5] 0) ++ [.flush [.wrote 3, .wrote 3, .failed .eagain] none]
    ∃ m, checkedAnswers WriteMemory.use { maxQueuedBytes := 100 } uses =
        .ok ((answers Connection.use { maxQueuedBytes := 100 } uses).1, m) ∧
      m.frames.count.toNat = 7 ∧ m.queuedBytes.toNat = 14 := by
  intro uses
  have queues : Admitted Connection.Queues Connection.use { maxQueuedBytes := 100 } uses := by
    simp [uses, Admitted, Connection.Queues, Connection.use_queueFrame, Connection.enqueue]
  have small : (100 : UInt64).toNat < 2 ^ 59 := by decide
  obtain ⟨m, ran, shows⟩ := (write_queue_inside small).1 uses queues
  refine ⟨m, ran, ?_, ?_⟩
  · rw [shows.array.count]
    decide
  · rw [shows.queuedBytes]
    decide

end PhpWebSocket
