import PhpWebSocket.WriteQueue

/-! # When a frame is accepted

`send_frame` says no for many reasons: the connection cannot send, the frame is longer
than the queue may ever be, the queue is too full, the socket fails, or the driver does
not agree to watch it. `Accepts` collects them as one condition on the connection and
its environment, before anything is written.
-/

namespace PhpWebSocket

/-- How many of `len` octets the socket takes before it is full; `none` if it fails. -/
def socketTakes : List SendResult → Nat → Option Nat
  | _, 0 => some 0
  | [], len => some len
  | .wrote more :: rest, len + 1 =>
      (socketTakes rest (len - more)).map (min (more + 1) (len + 1) + ·)
  | .zero :: _, _ + 1 => none
  | .failed .eintr :: rest, len + 1 => socketTakes rest (len + 1)
  | .failed .eagain :: _, _ + 1 => some 0
  | .failed .ewouldblock :: _, _ + 1 => some 0
  | .failed _ :: _, _ + 1 => none

/-- The queue has room for `len` more octets, and the driver agrees to watch the
    socket if it has to. -/
structure Queueable (conn : Connection) (env : Env) (len : Nat) : Prop where
  room : conn.queuedBytes + len ≤ conn.maxQueuedBytes
  watch : conn.writeWatched = true ∨ env.driver = none ∨ env.watchWrites.head?.join = none

/-- The connection can take a frame of `len` octets. -/
structure Accepts (conn : Connection) (env : Env) (len : Nat) : Prop where
  reading : conn.Reading
  fd : conn.fd ≠ none
  fits : len ≤ conn.maxQueuedBytes
  queued : conn.writeQueue ≠ [] → Queueable conn env len
  written : conn.writeQueue = [] →
    ∃ taken, socketTakes env.sends len = some taken ∧ (taken < len → Queueable conn env (len - taken))

theorem writeSome_eq (sends : List SendResult) (errno : Option Errno) (len : Nat) :
    socketTakes sends len =
      if (writeSome sends errno len).ok then some (writeSome sends errno len).count else none := by
  fun_induction writeSome with
  | case1 => simp [socketTakes]
  | case2 => simp [socketTakes]
  | case3 more rest errno len written ih =>
      have left : len + 1 - written = len - more := by omega
      rw [left] at ih ⊢
      rw [Written.after_ok, Written.after_count, socketTakes, ih]
      split
      · rw [Option.map_some]
      · rw [Option.map_none]
  | case4 | case6 | case7 => simp [socketTakes]
  | case5 rest errno len ih => simp only [socketTakes, ih]
  | case8 rest errno len e eintr eagain ewouldblock =>
      cases e <;> simp_all [socketTakes]

theorem watchWrite_iff (env : Env) (fd : Option Nat) :
    (env.watchWrite fd).1 = true ↔ env.watchWrites.head?.join = none := by
  unfold Env.watchWrite
  cases env.watchWrites with
  | nil => simp
  | cons answer rest => cases answer <;> simp

namespace Link

theorem queueFrame_iff (link : Link) (frame : Bytes) (offset : Nat) :
    (link.queueFrame frame offset).1 = true ↔
      Queueable link.conn link.env (frame.length - offset) := by
  simp only [queueFrame]
  split
  · rename_i full
    simp only [Bool.or_eq_true, decide_eq_true_eq] at full
    refine ⟨fun h => absurd h Bool.false_ne_true, ?_⟩
    intro fits
    have room := fits.room
    omega
  · rename_i room
    simp only [Bool.or_eq_true, decide_eq_true_eq] at room
    have fits : link.conn.queuedBytes + (frame.length - offset) ≤ link.conn.maxQueuedBytes := by
      omega
    split
    · rename_i unwatched
      simp only [Bool.and_eq_true, Bool.not_eq_true', Option.isSome_iff_ne_none] at unwatched
      obtain ⟨unwatched, driver⟩ := unwatched
      have iff : Queueable link.conn link.env (frame.length - offset) ↔
          link.env.watchWrites.head?.join = none := by
        refine ⟨?_, fun answer => ⟨fits, Or.inr (Or.inr answer)⟩⟩
        intro fits
        rcases fits.watch with watched | none | answer
        · rw [watched] at unwatched
          cases unwatched
        · exact absurd none driver
        · exact answer
      rw [iff, ← watchWrite_iff link.env link.conn.fd]
      cases (link.env.watchWrite link.conn.fd).1 <;> simp
    · rename_i watched
      refine ⟨fun _ => ⟨fits, ?_⟩, fun _ => rfl⟩
      simp only [Bool.and_eq_true, Bool.not_eq_true', not_and, Bool.not_eq_true,
        Option.isSome_eq_false_iff, Option.isNone_iff_eq_none] at watched
      cases atWatched : link.conn.writeWatched with
      | true => exact Or.inl rfl
      | false => exact Or.inr (Or.inl (watched atWatched))

theorem settle_fst (result : Bool × Link) : (settle result).1 = result.1 := by
  unfold settle
  split
  · rename_i failed
    simp only [Bool.and_eq_true, Bool.not_eq_true'] at failed
    exact failed.1.symm
  · rfl

/-- `send_frame` accepts a frame exactly if the connection can take it. -/
theorem sendFrame_iff (link : Link) (payload : Bytes) (opcode : UInt8) :
    (link.sendFrame payload opcode).1 = true ↔
      Accepts link.conn link.env (serverFrame payload opcode).length := by
  simp only [sendFrame, packPayload_server]
  split
  · rename_i refused
    refine ⟨fun h => absurd h Bool.false_ne_true, ?_⟩
    intro accepts
    simp [accepts.reading.1, accepts.reading.2.1, accepts.reading.2.2, accepts.fd] at refused
  · rename_i able
    simp only [Bool.or_eq_true, Bool.not_eq_true', not_or, Bool.not_eq_false, Bool.not_eq_true,
      Option.isNone_eq_false_iff, Option.isSome_iff_ne_none] at able
    obtain ⟨⟨⟨isOpen, going⟩, upgraded⟩, fd⟩ := able
    split
    · rename_i long
      exact ⟨fun h => absurd h Bool.false_ne_true, fun accepts => absurd accepts.fits (by omega)⟩
    · rename_i fits
      have fits : (serverFrame payload opcode).length ≤ link.conn.maxQueuedBytes := by omega
      split
      · rename_i busy
        rw [settle_fst, queueFrame_iff]
        exact ⟨fun room => ⟨⟨isOpen, going, upgraded⟩, fd, fits, fun _ => room,
          fun empty => absurd empty busy⟩, fun accepts => accepts.queued busy⟩
      · rename_i empty
        rw [ne_eq, not_not] at empty
        have takes := writeSome_eq link.env.sends link.env.errno (serverFrame payload opcode).length
        have accepts : Accepts link.conn link.env (serverFrame payload opcode).length ↔
            ∃ taken, socketTakes link.env.sends (serverFrame payload opcode).length = some taken ∧
              (taken < (serverFrame payload opcode).length →
                Queueable link.conn link.env ((serverFrame payload opcode).length - taken)) :=
          ⟨fun accepts => accepts.written empty, fun written => ⟨⟨isOpen, going, upgraded⟩, fd, fits,
            fun busy => absurd empty busy, fun _ => written⟩⟩
        rw [accepts, takes]
        generalize writeSome link.env.sends link.env.errno (serverFrame payload opcode).length = w
        cases ok : w.ok with
        | false => simp [settle_fst]
        | true =>
            by_cases short : w.count < (serverFrame payload opcode).length
            · simp only [short, decide_true, Bool.and_self, if_true, settle_fst, queueFrame_iff]
              refine ⟨fun room => ⟨w.count, rfl, fun _ => ⟨room.room, room.watch⟩⟩, ?_⟩
              rintro ⟨taken, same, room⟩
              cases same
              exact ⟨(room short).room, (room short).watch⟩
            · simp [short, settle_fst]

/-! ## A willing socket -/

theorem queueFrame_sends (link : Link) (frame : Bytes) (offset : Nat) :
    (link.queueFrame frame offset).2.env.sends = link.env.sends := by
  have watched : ∀ fd, (link.env.watchWrite fd).2.sends = link.env.sends := by
    intro fd
    unfold Env.watchWrite
    split <;> rfl
  simp only [queueFrame]
  split
  · rfl
  · split
    · split <;> exact watched _
    · rfl

theorem settle_sends (result : Bool × Link) :
    (settle result).2.env.sends = result.2.env.sends := by
  unfold settle
  split <;> rfl

theorem socketTakes_willing (len : Nat) : socketTakes [] len = some len := by
  cases len <;> rfl

theorem writeSome_willing (errno : Option Errno) (len : Nat) :
    writeSome [] errno len = ⟨true, len, [], errno⟩ := by
  cases len <;> rfl

theorem sendFrame_sends {link : Link} (sends : link.env.sends = []) (payload : Bytes)
    (opcode : UInt8) : (link.sendFrame payload opcode).2.env.sends = [] := by
  simp only [sendFrame, packPayload_server, sends, writeSome_willing]
  split
  · exact sends
  · split
    · rfl
    · split
      · rw [settle_sends, queueFrame_sends, sends]
      · split
        · rw [settle_sends, queueFrame_sends]
          rfl
        · rw [settle_sends]
          rfl

theorem sendFrame_idle {link : Link} (sends : link.env.sends = []) (idle : link.conn.writeQueue = [])
    (payload : Bytes) (opcode : UInt8) :
    ∃ wire, (link.sendFrame payload opcode).2.conn = { link.conn with wire } := by
  simp only [sendFrame, packPayload_server, sends, writeSome_willing]
  split
  · exact ⟨_, rfl⟩
  · split
    · exact ⟨_, rfl⟩
    · rw [if_neg (not_not.mpr idle), if_neg (by simp)]
      exact ⟨_, rfl⟩

theorem closeSocket_sends (link : Link) : link.closeSocket.env.sends = link.env.sends := by
  unfold closeSocket
  split <;> rfl

theorem closeAfterWrite_sends (link : Link) : link.closeAfterWrite.env.sends = link.env.sends := by
  unfold closeAfterWrite
  split
  · rfl
  · split
    · exact link.closeSocket_sends
    · rfl

end Link

end PhpWebSocket
