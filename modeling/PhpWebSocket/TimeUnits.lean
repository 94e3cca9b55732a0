import PhpWebSocket.FrameStream

/-! # Milliseconds and microseconds

The options count milliseconds and the clock microseconds. The options are any positive PHP
integers, and their product with 1000 is taken in a `uint64_t`, so a timeout of some half a
million years turns into one of microseconds. What the comparisons of the server are worth
depends on what the product leaves.
-/

namespace PhpWebSocket

/-! ## Times -/

/-- From `seen` to `now` at least `ms` milliseconds have passed. -/
def Elapsed (ms seen now : Nat) : Prop := ms * 1000 ≤ now - seen

/-- How the server tests that, if `guard` is not 0. A time that is 0 has not been recorded. -/
def Due (guard ms seen now : Nat) : Prop :=
  guard ≠ 0 ∧ seen ≠ 0 ∧ Options.toUsec ms ≤ now - seen

/-- The product fits into 64 bits, or what is left of it has not passed either; where the test is
    not made, the milliseconds have not passed. -/
def Exact (guard ms seen now : Nat) : Prop :=
  (guard = 0 ∨ seen = 0 → now - seen < ms * 1000) ∧
    (guard ≠ 0 → seen ≠ 0 → ms * 1000 < 2 ^ 64 ∨ now - seen < Options.toUsec ms)

theorem due_iff_elapsed {now : Nat} (word : now < 2 ^ 64) (guard ms seen : Nat) :
    (Due guard ms seen now ↔ Elapsed ms seen now) ↔ Exact guard ms seen now := by
  rw [Due, Elapsed, Exact]
  by_cases untested : guard = 0 ∨ seen = 0
  · have never : ¬ (guard ≠ 0 ∧ seen ≠ 0 ∧ Options.toUsec ms ≤ now - seen) := by
      rintro ⟨guarded, recorded, -⟩
      exact untested.elim guarded recorded
    have vacuous : guard ≠ 0 → seen ≠ 0 → ms * 1000 < 2 ^ 64 ∨ now - seen < Options.toUsec ms :=
      fun guarded recorded => absurd untested (not_or.mpr ⟨guarded, recorded⟩)
    simp only [never, false_iff, Nat.not_le, untested, true_imp_iff]
    exact ⟨fun short => ⟨short, vacuous⟩, fun both => both.1⟩
  · rw [not_or] at untested
    simp only [ne_eq, untested, not_false_eq_true, true_and, or_self, false_imp_iff, true_imp_iff]
    by_cases fits : ms * 1000 < 2 ^ 64
    · simp only [Options.toUsec, Nat.mod_eq_of_lt fits, fits, true_or]
    · have late : ¬ ms * 1000 ≤ now - seen := by omega
      simp only [late, fits, iff_false, false_or, Nat.not_le]

theorem exact_of_fits {guard ms seen : Nat} (now : Nat) (guarded : guard ≠ 0) (recorded : seen ≠ 0)
    (fits : ms * 1000 < 2 ^ 64) : Exact guard ms seen now :=
  ⟨fun untested => absurd untested (not_or.mpr ⟨guarded, recorded⟩), fun _ _ => .inl fits⟩

/-! ## The options -/

/-- The value of an option that is not negative. -/
def millis (value : Int64) : Nat := value.toInt.toNat

theorem positiveOption_millis (o : ServerOptions) (name : String) (property : ServerOptions → Int64)
    (fallback : Nat) (pos : 1 ≤ (property o).toInt) :
    (Options.object o).positiveOption name property fallback = millis (property o) := by
  have same := Options.positiveOption_object o name property fallback pos
  unfold millis
  omega

theorem nonnegativeOption_millis (o : ServerOptions) (name : String)
    (property : ServerOptions → Int64) (fallback : Nat) (nonneg : 0 ≤ (property o).toInt) :
    (Options.object o).nonnegativeOption name property fallback = millis (property o) := by
  rw [Options.nonnegativeOption, Options.find]
  exact if_neg (by omega)

/-- The timeout that applies to a connection. -/
def timeoutMs (o : ServerOptions) (conn : Connection) : Nat :=
  if conn.upgraded then millis o.idleTimeoutMs else millis o.handshakeTimeoutMs

theorem connectionExpired_object (o : ServerOptions) (conn : Connection) {now : Nat}
    (positive : 0 < now) (before : conn.lastSeenUsec ≤ now) :
    connectionExpired (.object o) conn now = true ↔
      Due (Options.toUsec (timeoutMs o conn)) (timeoutMs o conn) conn.lastSeenUsec now := by
  have timeout : (if !conn.upgraded then (Options.object o).handshakeTimeoutUsec
      else (Options.object o).idleTimeoutUsec) = Options.toUsec (timeoutMs o conn) := by
    unfold timeoutMs
    cases conn.upgraded with
    | true =>
        rw [if_neg (by decide), if_pos rfl, Options.idleTimeoutUsec,
          positiveOption_millis _ _ _ _ o.idleTimeoutMs_pos]
    | false =>
        rw [if_pos (by decide), if_neg (by decide), Options.handshakeTimeoutUsec,
          positiveOption_millis _ _ _ _ o.handshakeTimeoutMs_pos]
  rw [connectionExpired, if_neg (by omega), timeout, Due]
  by_cases none : conn.lastSeenUsec = 0
  · simp [none]
  · rw [if_neg (by simp [none, before])]
    simp [none, Nat.pos_iff_ne_zero]

/-! ## The heartbeat -/

/-- The end of `websocket_server_process_heartbeat`: the Ping is sent. -/
def Hub.heartbeatPing (h : Hub) (i : ConnId) (nowUsec : Nat) : Bool × Hub :=
  let sent := h.sendFrame i .heartbeat [] opcodePing
  if !sent.1 then sent.2.closeWithCode i closeNormal "heartbeat failed"
  else
    (true, sent.2.setConn i { sent.2.conn i with awaitingPong := true, lastPingUsec := nowUsec })

section

variable {server : Server} {o : ServerOptions} {h : Hub} {i : ConnId} {now : Nat}

theorem pingInterval_object (options : server.options = .object o) :
    server.options.pingIntervalUsec = Options.toUsec (millis o.pingIntervalMs) := by
  rw [options, Options.pingIntervalUsec, nonnegativeOption_millis _ _ _ _ o.pingIntervalMs_nonneg]

theorem pongTimeout_object (options : server.options = .object o) :
    server.options.pongTimeoutUsec = Options.toUsec (millis o.pongTimeoutMs) := by
  rw [options, Options.pongTimeoutUsec, positiveOption_millis _ _ _ _ o.pongTimeoutMs_pos]

/-- A Ping leaves its mark, or the connection is closed. -/
theorem heartbeatPing_marks (h : Hub) (i : ConnId) (now : Nat) :
    (((h.heartbeatPing i now).2.conn i).Reading →
      ((h.heartbeatPing i now).2.conn i).awaitingPong = true) := by
  unfold Hub.heartbeatPing
  dsimp only
  split
  · intro reading
    exact absurd reading (closeWithCode_not_reading _ i _ _)
  · intro _
    simp

theorem processHeartbeat_pings (options : server.options = .object o) (positive : 0 < now)
    (reading : (h.conn i).Reading) (answered : (h.conn i).awaitingPong = false)
    (before : (h.conn i).lastSeenUsec ≤ now) :
    h.processHeartbeat server i now = h.heartbeatPing i now ↔
      Due (Options.toUsec (millis o.pingIntervalMs)) (millis o.pingIntervalMs)
        (h.conn i).lastSeenUsec now := by
  have silent : (true, h) ≠ h.heartbeatPing i now := by
    intro same
    have marked := heartbeatPing_marks h i now
    rw [← same, answered] at marked
    exact absurd (marked reading) (by decide)
  obtain ⟨opened, lingering, upgraded⟩ := reading
  rw [Hub.processHeartbeat, pingInterval_object options, Due]
  dsimp only
  by_cases off : Options.toUsec (millis o.pingIntervalMs) = 0
  · rw [if_pos (by simp [off])]
    exact iff_of_false silent fun due => due.1 off
  rw [if_neg (by simp [off, opened, lingering, upgraded]; omega), if_neg (by simp [answered])]
  by_cases early : (h.conn i).lastSeenUsec = 0 ∨
      now - (h.conn i).lastSeenUsec < Options.toUsec (millis o.pingIntervalMs)
  · rw [if_pos (by simp; omega)]
    exact iff_of_false silent fun due => by omega
  · rw [not_or, Nat.not_lt] at early
    rw [if_neg (by simp; omega)]
    exact iff_of_true rfl ⟨off, early.1, early.2⟩

theorem processHeartbeat_closes (options : server.options = .object o) (positive : 0 < now)
    (reading : (h.conn i).Reading) (awaiting : (h.conn i).awaitingPong = true)
    (before : (h.conn i).lastPingUsec ≤ now) :
    ¬ ((h.processHeartbeat server i now).2.conn i).Reading ↔
      Due (Options.toUsec (millis o.pingIntervalMs)) (millis o.pongTimeoutMs)
        (h.conn i).lastPingUsec now := by
  have stays := reading
  obtain ⟨opened, lingering, upgraded⟩ := reading
  rw [Hub.processHeartbeat, pingInterval_object options, pongTimeout_object options, Due]
  dsimp only
  by_cases off : Options.toUsec (millis o.pingIntervalMs) = 0
  · rw [if_pos (by simp [off])]
    exact iff_of_false (not_not_intro stays) fun due => due.1 off
  rw [if_neg (by simp [off, opened, lingering, upgraded]; omega), if_pos awaiting]
  by_cases late : (h.conn i).lastPingUsec ≠ 0 ∧
      Options.toUsec (millis o.pongTimeoutMs) ≤ now - (h.conn i).lastPingUsec
  · rw [if_pos (by simp; omega)]
    exact iff_of_true (closeWithCode_not_reading _ i _ _) ⟨off, late.1, late.2⟩
  · rw [if_neg (by simp; omega)]
    exact iff_of_false (not_not_intro stays) fun due => late due.2

end

/-- With an options object the timeouts are what the options say exactly where the product with
    1000 fits into 64 bits, or the remainder that it leaves changes nothing at this clock. -/
theorem timeouts_exact_iff {server : Server} {o : ServerOptions}
    (options : server.options = .object o) {now : Nat} (positive : 0 < now) (word : now < 2 ^ 64) :
    (∀ conn : Connection, conn.lastSeenUsec ≤ now →
      ((connectionExpired server.options conn now = true ↔
          Elapsed (timeoutMs o conn) conn.lastSeenUsec now) ↔
        Exact (Options.toUsec (timeoutMs o conn)) (timeoutMs o conn) conn.lastSeenUsec now)) ∧
      (∀ (h : Hub) (i : ConnId), (h.conn i).Reading → (h.conn i).awaitingPong = false →
        (h.conn i).lastSeenUsec ≤ now →
        ((h.processHeartbeat server i now = h.heartbeatPing i now ↔
            0 < millis o.pingIntervalMs ∧
              Elapsed (millis o.pingIntervalMs) (h.conn i).lastSeenUsec now) ↔
          millis o.pingIntervalMs = 0 ∨ Exact (Options.toUsec (millis o.pingIntervalMs))
            (millis o.pingIntervalMs) (h.conn i).lastSeenUsec now)) ∧
      ∀ (h : Hub) (i : ConnId), (h.conn i).Reading → (h.conn i).awaitingPong = true →
        (h.conn i).lastPingUsec ≤ now → 0 < millis o.pingIntervalMs →
        ((¬ ((h.processHeartbeat server i now).2.conn i).Reading ↔
            Elapsed (millis o.pongTimeoutMs) (h.conn i).lastPingUsec now) ↔
          Exact (Options.toUsec (millis o.pingIntervalMs)) (millis o.pongTimeoutMs)
            (h.conn i).lastPingUsec now) := by
  refine ⟨?_, ?_, ?_⟩
  · intro conn before
    rw [options, connectionExpired_object o conn positive before]
    exact due_iff_elapsed word (Options.toUsec (timeoutMs o conn)) _ _
  · intro h i reading answered before
    rw [processHeartbeat_pings options positive reading answered before]
    rcases Nat.eq_zero_or_pos (millis o.pingIntervalMs) with zero | some_interval
    · have off : ¬ Due (Options.toUsec 0) 0 (h.conn i).lastSeenUsec now := fun due => due.1 rfl
      simp only [zero, off, Nat.lt_irrefl, false_and, iff_self, true_or]
    · have not_zero : millis o.pingIntervalMs ≠ 0 := by omega
      simp only [some_interval, true_and, not_zero, false_or]
      exact due_iff_elapsed word _ _ _
  · intro h i reading awaiting before _
    rw [processHeartbeat_closes options positive reading awaiting before]
    exact due_iff_elapsed word _ _ _

theorem timeouts_exact_iff_minute :
    let o : ServerOptions :=
      { maxMessageSize := 1, maxQueuedBytes := 1, maxConnections := 1
        handshakeTimeoutMs := 1, idleTimeoutMs := 60000, pingIntervalMs := 20000
        pongTimeoutMs := 10000
        maxMessageSize_pos := by decide, maxQueuedBytes_pos := by decide
        maxConnections_pos := by decide, handshakeTimeoutMs_pos := by decide
        idleTimeoutMs_pos := by decide, pingIntervalMs_nonneg := by decide
        pongTimeoutMs_pos := by decide }
    let server : Server := { options := .object o, lib := sampleLib }
    let conn : Connection := { isOpen := true, upgraded := true, lastActivityUsec := 1 }
    let pinged : Connection := { conn with awaitingPong := true, lastPingUsec := 20000001 }
    let h : Hub := { conn := fun i => if i = 0 then conn else pinged }
    (connectionExpired server.options conn 60000001 = true ↔
        Elapsed (timeoutMs o conn) conn.lastSeenUsec 60000001) ∧
      (h.processHeartbeat server 0 60000001 = h.heartbeatPing 0 60000001 ↔
        0 < millis o.pingIntervalMs ∧
          Elapsed (millis o.pingIntervalMs) (h.conn 0).lastSeenUsec 60000001) ∧
      (¬ ((h.processHeartbeat server 1 60000001).2.conn 1).Reading ↔
        Elapsed (millis o.pongTimeoutMs) (h.conn 1).lastPingUsec 60000001) := by
  intro o server conn pinged h
  have minute := @timeouts_exact_iff server o rfl 60000001 (by decide) (by decide)
  have expires := (minute.1 conn (by decide)).mpr
  have pings := (minute.2.1 h 0 ⟨rfl, rfl, rfl⟩ rfl (by decide)).mpr
  have closes := (minute.2.2 h 1 ⟨rfl, rfl, rfl⟩ rfl (by decide) (by decide)).mpr
  refine ⟨expires ?_, pings (.inr ?_), closes ?_⟩
  all_goals exact exact_of_fits _ (by decide +kernel) (by decide +kernel) (by decide +kernel)

/-- An idle timeout of some half a million years, which the constructor takes, is one of 384
    microseconds. -/
theorem huge_timeout_wraps :
    ∃ o, ServerOptions.construct 1 1 1 1 18446744073709552 0 1 = .ok o ∧
      let server : Server := { options := .object o, lib := sampleLib }
      let conn : Connection := { isOpen := true, upgraded := true, lastActivityUsec := 1 }
      ¬ (connectionExpired server.options conn 1000 = true ↔
        Elapsed (timeoutMs o conn) conn.lastSeenUsec 1000) := by
  refine ⟨_, rfl, ?_⟩
  intro server conn
  unfold Elapsed
  decide

end PhpWebSocket
