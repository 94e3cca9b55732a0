import PhpWebSocket.Kernel
import PhpWebSocket.Lib.Block
import PhpWebSocket.ReadLimit

/-! # The read buffer in memory

The read buffer of a connection once more, as the object keeps it: a pointer, and a length and
a capacity in `size_t`, on memory in which every access is checked. One buffer serves the
request and the frames behind it, under another limit each. What the model says of a read side
is what happens in memory, and a run of the server does nothing else with it.
-/

namespace PhpWebSocket

open Lib Relation

/-- `read_buffer`, which is NULL or points to a block, `read_buffer_len` and
    `read_buffer_capacity`. -/
structure ReadBuffer where
  block : Option (Block UInt8) := none
  len : UInt64 := 0
  capacity : UInt64 := 0

namespace ReadBuffer

/-- The cells behind the pointer; none behind NULL. -/
def cells (b : ReadBuffer) : Block UInt8 := b.block.getD []

/-- The cells that are in use. -/
def content (b : ReadBuffer) : Block UInt8 := b.cells.take b.len.toNat

/-- `erealloc`, or `emalloc` where there is no block yet. -/
def allocate (b : ReadBuffer) (capacity : UInt64) : ReadBuffer :=
  let block :=
    match b.block with
    | some block => block.resize capacity.toNat
    | none => Block.alloc capacity.toNat
  { b with block := some block, capacity }

/-- `websocket_connection_ensure_read_capacity`. -/
def ensureReadCapacity (b : ReadBuffer) (appendLen limit : UInt64) : Checked (Bool × ReadBuffer) :=
  if appendLen > limit || b.len > limit - appendLen then .ok (false, b)
  else
    let needed := b.len + appendLen
    if needed ≤ b.capacity then .ok (true, b)
    else do
      -- a loop that takes longer never ends
      let capacity ← doubleUntil 64 (if b.capacity > 0 then b.capacity else 1024) needed
      .ok (true, b.allocate (if capacity > limit then limit else capacity))

/-- `websocket_connection_discard_read_bytes`. -/
def discardReadBytes (b : ReadBuffer) (bytes : UInt64) : Checked ReadBuffer :=
  if bytes ≥ b.len then .ok { b with len := 0 }
  else do
    let block ← b.cells.moveDown bytes.toNat (b.len - bytes).toNat
    .ok { b with block := some block, len := b.len - bytes }

/-- What both loops over `recv` do with a chunk: false if there is no room for it. -/
def receive (b : ReadBuffer) (chunk : Chunk) (limit : UInt64) : Checked (Bool × ReadBuffer) := do
  let bytesRead := UInt64.ofNat chunk.octets.length
  let ensured ← b.ensureReadCapacity bytesRead limit
  if !ensured.1 then .ok (false, ensured.2)
  else do
    let block ← ensured.2.cells.put ensured.2.len.toNat chunk.octets
    .ok (true, { ensured.2 with block := some block, len := ensured.2.len + bytesRead })

/-- What a buffer stands for. -/
structure Holds (b : ReadBuffer) (side : ReadSide) : Prop where
  room : b.len ≤ b.capacity
  size : b.cells.length = b.capacity.toNat
  octets : b.content = side.buffer.map some
  capacity : b.capacity.toNat = side.capacity

theorem holds_empty : Holds {} {} := ⟨UInt64.le_refl 0, rfl, rfl, rfl⟩

end ReadBuffer

theorem doubleCapacity_eq {k fuel capacity needed : Nat} (less : ∀ j < k, capacity * 2 ^ j < needed)
    (enough : needed ≤ capacity * 2 ^ k) (fuelled : k ≤ fuel) :
    doubleCapacity fuel capacity needed = capacity * 2 ^ k := by
  induction k generalizing capacity fuel with
  | zero =>
      rw [Nat.pow_zero, Nat.mul_one] at enough ⊢
      cases fuel with
      | zero => rfl
      | succ fuel => rw [doubleCapacity, if_neg (Nat.not_lt.mpr enough)]
  | succ k ih =>
      have first := less 0 (Nat.succ_pos k)
      rw [Nat.pow_zero, Nat.mul_one] at first
      have twice (j : Nat) : capacity * 2 * 2 ^ j = capacity * 2 ^ (j + 1) := by
        rw [Nat.mul_assoc, ← Nat.pow_succ']
      cases fuel with
      | zero => exact absurd fuelled (Nat.not_succ_le_zero k)
      | succ fuel =>
          have rest : doubleCapacity fuel (capacity * 2) needed = capacity * 2 * 2 ^ k := by
            refine ih ?_ ?_ (Nat.le_of_succ_le_succ fuelled)
            · intro j before
              rw [twice]
              exact less (j + 1) (Nat.succ_lt_succ before)
            · rwa [twice]
          rw [doubleCapacity, if_pos first, rest, twice]

/-- In a word the loop does what it does on numbers. -/
theorem doubleUntil_eq {capacity needed : UInt64} (positive : 0 < capacity.toNat)
    (small : needed.toNat ≤ 2 ^ 63) :
    ∃ r : UInt64, doubleUntil 64 capacity needed = .ok r ∧ needed.toNat ≤ r.toNat ∧
      r.toNat = doubleCapacity needed.toNat capacity.toNat needed.toNat := by
  have enough : needed.toNat ≤ capacity.toNat * 2 ^ 63 :=
    small.trans (Nat.le_mul_of_pos_left _ positive)
  obtain ⟨k, r, ends, value, above, least⟩ := doubleUntil_ok positive small enough
  refine ⟨r, ends, above, value.trans (doubleCapacity_eq least (value ▸ above) ?_).symm⟩
  cases k with
  | zero => exact Nat.zero_le _
  | succ k =>
      have last : 2 ^ k ≤ capacity.toNat * 2 ^ k := Nat.le_mul_of_pos_left _ positive
      exact Nat.lt_two_pow_self.trans (last.trans_lt (least k (Nat.lt_succ_self k)))

namespace ReadBuffer

variable {b : ReadBuffer} {side : ReadSide} {n limit : UInt64}

theorem Holds.len (holds : b.Holds side) : b.len.toNat = side.buffer.length := by
  have same := congrArg List.length holds.octets
  rwa [content, List.length_map, List.length_take_of_le] at same
  rw [holds.size]
  exact UInt64.le_iff_toNat_le.mp holds.room

theorem full_iff (b : ReadBuffer) (n limit : UInt64) :
    (n > limit || b.len > limit - n) = true ↔ limit.toNat < b.len.toNat + n.toNat := by
  simp only [Bool.or_eq_true, decide_eq_true_eq, gt_iff_lt, UInt64.lt_iff_toNat_lt]
  by_cases more : n.toNat ≤ limit.toNat
  · rw [UInt64.toNat_sub_of_le _ _ (UInt64.le_iff_toNat_le.mpr more)]
    omega
  · omega

theorem cells_allocate (b : ReadBuffer) (capacity : UInt64) :
    (b.allocate capacity).cells = b.cells.resize capacity.toNat := by
  rw [cells, cells, allocate]
  cases b.block with
  | none => exact (Block.resize_nil _).symm
  | some block => rfl

theorem Holds.allocate (holds : b.Holds side) {capacity : UInt64} (grows : b.capacity ≤ capacity) :
    (b.allocate capacity).Holds { side with capacity := capacity.toNat } := by
  have more : b.cells.length ≤ capacity.toNat := by
    rw [holds.size]
    exact UInt64.le_iff_toNat_le.mp grows
  refine ⟨UInt64.le_trans holds.room grows, ?_, ?_, rfl⟩
  · rw [cells_allocate, Block.length_resize more]
    rfl
  · rw [content, cells_allocate]
    refine (Block.take_resize more ?_).trans holds.octets
    rw [holds.size]
    exact UInt64.le_iff_toNat_le.mp holds.room

theorem Holds.ensure_none (holds : b.Holds side)
    (full : side.ensureCapacity n.toNat limit.toNat = none) :
    b.ensureReadCapacity n limit = .ok (false, b) := by
  have none := ReadSide.ensureCapacity_isSome side n.toNat limit.toNat
  rw [full, ← holds.len] at none
  rw [ensureReadCapacity, if_pos ((full_iff b n limit).mpr ?_)]
  exact Nat.not_le.mp fun room => Bool.false_ne_true (none.mpr room)

/-- `ensure_read_capacity` makes the room that the model makes, as long as twice the capacity
    is a `size_t`. -/
theorem Holds.ensure_some (holds : b.Holds side) (small : b.len.toNat + n.toNat ≤ 2 ^ 63)
    {side' : ReadSide} (room : side.ensureCapacity n.toNat limit.toNat = some side') :
    ∃ b', b.ensureReadCapacity n limit = .ok (true, b') ∧ b'.Holds side' ∧ b'.len = b.len ∧
      b.capacity ≤ b'.capacity ∧ b.len.toNat + n.toNat ≤ b'.capacity.toNat := by
  have fits : b.len.toNat + n.toNat ≤ limit.toNat := by
    rw [holds.len, ← ReadSide.ensureCapacity_isSome, room]
    rfl
  have within : ¬ (n > limit || b.len > limit - n) = true := by
    rw [full_iff]
    exact Nat.not_lt.mpr fits
  have needed : (b.len + n).toNat = b.len.toNat + n.toNat := by
    rw [UInt64.toNat_add, Nat.mod_eq_of_lt (by omega)]
  have within' : ¬ (n.toNat > limit.toNat || side.buffer.length > limit.toNat - n.toNat) = true := by
    simp only [Bool.or_eq_true, decide_eq_true_eq, ← holds.len]
    omega
  rw [ReadSide.ensureCapacity, if_neg within', ← holds.len, ← holds.capacity] at room
  rw [ensureReadCapacity, if_neg within]
  dsimp only at room ⊢
  by_cases enough : b.len.toNat + n.toNat ≤ b.capacity.toNat
  · rw [if_pos enough] at room
    cases room
    rw [if_pos (UInt64.le_iff_toNat_le.mpr (needed ▸ enough))]
    exact ⟨b, rfl, holds, rfl, UInt64.le_refl _, enough⟩
  · rw [if_neg enough] at room
    rw [if_neg fun le => enough (needed ▸ UInt64.le_iff_toNat_le.mp le)]
    generalize atStart : (if b.capacity > 0 then b.capacity else 1024 : UInt64) = start
    have first : start.toNat = if b.capacity.toNat > 0 then b.capacity.toNat else 1024 :=
      atStart ▸ toNat_if_gt b.capacity 0 b.capacity 1024
    have positive : 0 < start.toNat := by
      rw [first]
      split <;> omega
    obtain ⟨r, ends, above, value⟩ := doubleUntil_eq positive (needed ▸ small)
    rw [needed, first] at value
    rw [needed] at above
    rw [← value] at room
    cases room
    generalize atNew : (if r > limit then limit else r : UInt64) = capacity
    have clipped : capacity.toNat = if r.toNat > limit.toNat then limit.toNat else r.toNat :=
      atNew ▸ toNat_if_gt r limit limit r
    have room : b.len.toNat + n.toNat ≤ capacity.toNat := by
      rw [clipped]
      split <;> omega
    have grows : b.capacity ≤ capacity := UInt64.le_iff_toNat_le.mpr (by omega)
    refine ⟨b.allocate capacity, ?_, ?_, rfl, grows, room⟩
    · rw [ends, Checked.ok_bind, atNew]
    · rw [← clipped]
      exact holds.allocate grows

theorem length_toNat (chunk : Chunk) :
    (UInt64.ofNat chunk.octets.length).toNat = chunk.octets.length := by
  have small : chunk.octets.length ≤ 4096 := chunk.fits
  rw [UInt64.toNat_ofNat', Nat.mod_eq_of_lt (by omega)]

theorem Holds.receive_none (holds : b.Holds side) {chunk : Chunk}
    (full : side.ensureCapacity chunk.octets.length limit.toNat = none) :
    b.receive chunk limit = .ok (false, b) := by
  rw [← length_toNat] at full
  rw [receive, holds.ensure_none full]
  rfl

theorem Holds.receive_some (holds : b.Holds side) (small : b.len.toNat < 2 ^ 62) {chunk : Chunk}
    {side' : ReadSide} (room : side.ensureCapacity chunk.octets.length limit.toNat = some side') :
    ∃ b', b.receive chunk limit = .ok (true, b') ∧ b'.Holds (side'.append chunk.octets) ∧
      b.capacity ≤ b'.capacity := by
  have fits : chunk.octets.length ≤ 4096 := chunk.fits
  rw [← length_toNat] at room
  obtain ⟨b', ensured, holds', len, grows, inside⟩ :=
    holds.ensure_some (by rw [length_toNat]; omega) room
  rw [length_toNat, ← len] at inside
  obtain ⟨block, copied, length, front⟩ := Block.put_ok (holds'.size.symm ▸ inside)
  have sum : (b'.len + UInt64.ofNat chunk.octets.length).toNat =
      b'.len.toNat + chunk.octets.length := by
    rw [UInt64.toNat_add, length_toNat, Nat.mod_eq_of_lt (by rw [len]; omega)]
  refine ⟨{ b' with block := some block, len := b'.len + UInt64.ofNat chunk.octets.length },
    ?_, ⟨?_, ?_, ?_, holds'.capacity⟩, grows⟩
  · rw [receive, ensured, Checked.ok_bind]
    dsimp only
    rw [Bool.not_true, if_neg Bool.false_ne_true, copied]
    rfl
  · rw [UInt64.le_iff_toNat_le, sum]
    exact inside
  · exact length.trans holds'.size
  · rw [content, sum]
    apply front.trans
    rw [ReadSide.append, List.map_append, ← holds'.octets]
    rfl

theorem Holds.discard (holds : b.Holds side) (bytes : UInt64) :
    ∃ b', b.discardReadBytes bytes = .ok b' ∧
      b'.Holds { side with buffer := side.buffer.drop bytes.toNat } ∧ b'.capacity = b.capacity := by
  by_cases all : bytes ≥ b.len
  · refine ⟨{ b with len := 0 }, by rw [discardReadBytes, if_pos all], ⟨UInt64.zero_le, holds.size, ?_,
      holds.capacity⟩, rfl⟩
    have past : side.buffer.length ≤ bytes.toNat := by
      rw [← holds.len]
      exact UInt64.le_iff_toNat_le.mp all
    dsimp only
    rw [List.drop_of_length_le past]
    rfl
  · have before : bytes.toNat < b.len.toNat := UInt64.lt_iff_toNat_lt.mp (UInt64.not_le.mp all)
    have room := UInt64.le_iff_toNat_le.mp holds.room
    have left : (b.len - bytes).toNat = b.len.toNat - bytes.toNat :=
      UInt64.toNat_sub_of_le _ _ (UInt64.le_iff_toNat_le.mpr before.le)
    obtain ⟨block, moved, length, front⟩ :=
      @Block.moveDown_ok _ b.cells bytes.toNat (b.len - bytes).toNat (by rw [left, holds.size]; omega)
    refine ⟨{ b with block := some block, len := b.len - bytes }, ?_, ⟨?_, length.trans holds.size, ?_,
      holds.capacity⟩, rfl⟩
    · rw [discardReadBytes, if_neg all, moved, Checked.ok_bind]
    · rw [UInt64.le_iff_toNat_le, left]
      exact (Nat.sub_le _ _).trans room
    · apply front.trans
      rw [left, ← List.drop_take, ← content, holds.octets, List.map_drop]

end ReadBuffer

/-! ## Runs of a buffer -/

/-- The limit of the loop that reads from a connection. -/
def readRoom (options : Options) (upgraded : Bool) : Nat :=
  if upgraded then World.readLimit options.maxMessageSize else httpMaxRequestSize

structure ReadState where
  upgraded : Bool := false
  buffer : ReadBuffer := {}

namespace ReadState

def limit (options : Options) (s : ReadState) : UInt64 := UInt64.ofNat (readRoom options s.upgraded)

/-- What happens to the buffer of a connection. -/
inductive Step (options : Options) : ReadState → ReadState → Prop
  | receive {s : ReadState} {ok : Bool} {b : ReadBuffer} (chunk : Chunk)
      (small : s.buffer.len.toNat < 2 ^ 62)
      (done : s.buffer.receive chunk (s.limit options) = .ok (ok, b)) :
      Step options s { s with buffer := b }
  | discard {s : ReadState} {b : ReadBuffer} (bytes : UInt64)
      (done : s.buffer.discardReadBytes bytes = .ok b) : Step options s { s with buffer := b }
  | upgrade (s : ReadState) : Step options s { s with upgraded := true }

def Run (options : Options) : ReadState → ReadState → Prop := ReflTransGen (Step options)

end ReadState

/-- What happens to the read side of a connection in the model. -/
inductive ReadMove (options : Options) : Bool × ReadSide → Bool × ReadSide → Prop
  | receive {upgraded : Bool} {side side' : ReadSide} (chunk : Chunk)
      (room : side.ensureCapacity chunk.octets.length (readRoom options upgraded) = some side') :
      ReadMove options (upgraded, side) (upgraded, side'.append chunk.octets)
  | discard (upgraded : Bool) (side : ReadSide) (bytes : Nat) :
      ReadMove options (upgraded, side) (upgraded, { side with buffer := side.buffer.drop bytes })
  | upgrade (upgraded : Bool) (side : ReadSide) : ReadMove options (upgraded, side) (true, side)

def ReadMoves (options : Options) : Bool × ReadSide → Bool × ReadSide → Prop :=
  ReflTransGen (ReadMove options)

theorem readRoom_eq (options : Options) (upgraded : Bool) :
    readRoom options upgraded = if upgraded then options.maxMessageSize + 4110 else 8192 := by
  cases upgraded with
  | true => rw [readRoom, if_pos rfl, if_pos rfl, readLimit_eq]
  | false => rfl

theorem ReadState.limit_toNat (options : Options) (s : ReadState) :
    (s.limit options).toNat = readRoom options s.upgraded := by
  have small := options.maxMessageSize_bounds.2
  rw [limit, UInt64.toNat_ofNat', Nat.mod_eq_of_lt]
  rw [readRoom_eq]
  split <;> omega

namespace ReadState

variable {options : Options} {s s' : ReadState} {side : ReadSide}

/-- What happens in memory happens in the model, and the capacity does not shrink. -/
theorem Step.moves (step : Step options s s') (holds : s.buffer.Holds side) :
    ∃ side', s'.buffer.Holds side' ∧ s.buffer.capacity ≤ s'.buffer.capacity ∧
      ReadMoves options (s.upgraded, side) (s'.upgraded, side') := by
  cases step with
  | @receive ok b chunk small done =>
      cases found : side.ensureCapacity chunk.octets.length (s.limit options).toNat with
      | none =>
          rw [holds.receive_none found] at done
          cases done
          exact ⟨side, holds, UInt64.le_refl _, .refl⟩
      | some side' =>
          obtain ⟨b', received, holds', grows⟩ := holds.receive_some small found
          rw [received] at done
          cases done
          rw [limit_toNat] at found
          exact ⟨_, holds', grows, .single (.receive chunk found)⟩
  | @discard b bytes done =>
      obtain ⟨b', discarded, holds', same⟩ := holds.discard bytes
      rw [discarded] at done
      cases done
      exact ⟨_, holds', same ▸ UInt64.le_refl _, .single (.discard _ side _)⟩
  | upgrade => exact ⟨side, holds, UInt64.le_refl _, .single (.upgrade _ side)⟩

theorem Run.moves (run : Run options s s') (holds : s.buffer.Holds side) :
    ∃ side', s'.buffer.Holds side' ∧ s.buffer.capacity ≤ s'.buffer.capacity ∧
      ReadMoves options (s.upgraded, side) (s'.upgraded, side') := by
  induction run with
  | refl => exact ⟨side, holds, UInt64.le_refl _, .refl⟩
  | tail _ step ih =>
      obtain ⟨side', holds', grows, moves⟩ := ih
      obtain ⟨side'', holds'', grows', moves'⟩ := step.moves holds'
      exact ⟨side'', holds'', UInt64.le_trans grows grows', moves.trans moves'⟩

end ReadState

/-- What happens in the model happens in memory, as long as the buffer is small. -/
theorem ReadMove.step {options : Options} {b : ReadBuffer} {upgraded upgraded' : Bool}
    {side side' : ReadSide} (move : ReadMove options (upgraded, side) (upgraded', side'))
    (holds : b.Holds side) (small : side.buffer.length < 2 ^ 62) :
    ∃ b', b'.Holds side' ∧ ReadState.Step options ⟨upgraded, b⟩ ⟨upgraded', b'⟩ := by
  rw [← holds.len] at small
  cases move with
  | @receive _ _ side' chunk room =>
      rw [← ReadState.limit_toNat options ⟨upgraded, b⟩] at room
      obtain ⟨b', received, holds', -⟩ := holds.receive_some small room
      exact ⟨b', holds', .receive chunk small received⟩
  | discard _ _ bytes =>
      -- more octets than there are need not be a `size_t`
      have same : side.buffer.drop (min bytes side.buffer.length) = side.buffer.drop bytes := by
        rcases Nat.le_total bytes side.buffer.length with inside | past
        · rw [Nat.min_eq_left inside]
        · rw [Nat.min_eq_right past, List.drop_length, List.drop_of_length_le past]
      have word : (UInt64.ofNat (min bytes side.buffer.length)).toNat =
          min bytes side.buffer.length := by
        have fits := holds.len ▸ b.len.toNat_lt
        rw [UInt64.toNat_ofNat', Nat.mod_eq_of_lt (by omega)]
      obtain ⟨b', discarded, holds', -⟩ := holds.discard (UInt64.ofNat (min bytes side.buffer.length))
      rw [word, same] at holds'
      exact ⟨b', holds', .discard _ discarded⟩
  | upgrade => exact ⟨b, holds, .upgrade ⟨upgraded, b⟩⟩

theorem ReadMoves.length {options : Options} {a c : Bool × ReadSide} (moves : ReadMoves options a c)
    (start : a.2.buffer = []) : c.2.buffer.length ≤ max 8192 (options.maxMessageSize + 4110) := by
  induction moves with
  | refl =>
      rw [start]
      exact Nat.zero_le _
  | tail _ move ih =>
      cases move with
      | @receive upgraded side side' chunk room =>
          have fits := (ReadSide.ensureCapacity_isSome side chunk.octets.length _).mp (by rw [room]; rfl)
          rw [readRoom_eq] at fits
          rw [ReadSide.append, List.length_append, ReadSide.ensureCapacity_buffer room]
          split at fits <;> omega
      | discard _ side bytes =>
          rw [List.length_drop]
          exact (Nat.sub_le _ _).trans ih
      | upgrade => exact ih

theorem ReadMoves.run {options : Options} (limit : options.maxMessageSize + 4110 < 2 ^ 62)
    {c : Bool × ReadSide} (moves : ReadMoves options (false, {}) c) :
    ∃ s, ReadState.Run options {} s ∧ s.upgraded = c.1 ∧ s.buffer.Holds c.2 := by
  induction moves with
  | refl => exact ⟨{}, .refl, rfl, ReadBuffer.holds_empty⟩
  | @tail a c moves move ih =>
      obtain ⟨⟨upgraded, b⟩, run, rfl, holds⟩ := ih
      have small := ReadMoves.length moves rfl
      obtain ⟨b', holds', step⟩ := ReadMove.step move holds (by omega)
      exact ⟨⟨c.1, b'⟩, run.tail step, rfl, holds'⟩

/-! ## Runs of the server -/

namespace World

def readSide (w : World) (i : ConnId) : Bool × ReadSide := ((w.conn i).upgraded, w.reads i)

variable {server : Server} {i : ConnId} {w : World}

theorem readSide_ops {h : Hub} (ops : Ops w.toHub h) :
    ({ w with toHub := h } : World).readSide i = w.readSide i :=
  congrArg (·, w.reads i) (ops.steady.conns i).upgraded

theorem readSide_setReads (side : ReadSide) :
    (w.setReads i side).readSide i = ((w.conn i).upgraded, side) :=
  congrArg ((w.conn i).upgraded, ·) (Function.update_self ..)

/-- What becomes of the read side of a connection between two worlds. -/
def Fills (server : Server) (i : ConnId) (w w' : World) : Prop :=
  ReadMoves server.options (w.readSide i) (w'.readSide i)

theorem Fills.refl (w : World) : Fills server i w w := ReflTransGen.refl

theorem Fills.trans {w w' w'' : World} (first : Fills server i w w') (next : Fills server i w' w'') :
    Fills server i w w'' := ReflTransGen.trans first next

theorem Fills.ops {w w' : World} {h : Hub} (fills : Fills server i w w') (ops : Ops w'.toHub h) :
    Fills server i w { w' with toHub := h } := by
  rw [Fills, readSide_ops ops]
  exact fills

theorem discard_fills (w : World) (bytes : Nat) : Fills server i w (w.discard i bytes) := by
  rw [Fills, discard_eq, setBuffer, readSide_setReads]
  exact .single (.discard _ _ bytes)

theorem framesLoop_fills (fuel : Nat) (w : World) :
    Fills server i w (w.framesLoop server i fuel).2 := by
  induction fuel generalizing w with
  | zero => exact .refl w
  | succ fuel ih =>
      rw [framesLoop]
      split
      · exact .refl w
      · split
        · exact .refl w
        · exact (Fills.refl w).ops (w.refuseFrames_calm i _ _).ops
        · exact (Fills.refl w).ops (w.refuseFrames_calm i _ _).ops
        · exact (Fills.refl w).ops (w.refuseFrames_calm i _ _).ops
        · rename_i frame _
          have taken : Fills server i w (w.discard i frame.bytesConsumed) := discard_fills w _
          have handled := taken.ops (Hub.handleFrame_ops server _ i frame)
          dsimp only
          split
          · exact handled.trans (ih _)
          · exact handled

theorem processBufferedFrames_fills (w : World) :
    Fills server i w (w.processBufferedFrames server i).2 := framesLoop_fills _ w

theorem switchToFrames_fills (w : World) (upgrade : HttpUpgrade) :
    Fills server i w (w.switchToFrames i upgrade) := by
  let upgraded : World :=
    { w with toHub := w.setConn i { w.conn i with
        selectedSubprotocol := upgrade.selectedSubprotocol, upgraded := true } }
  have first : ReadMove server.options (w.readSide i) (upgraded.readSide i) := by
    rw [readSide, readSide, show (upgraded.conn i).upgraded = true by simp [upgraded]]
    exact .upgrade _ _
  have next : Fills server i upgraded (upgraded.discard i upgrade.bytesConsumed) :=
    discard_fills upgraded _
  exact ReflTransGen.head first next

theorem finishUpgrade_fills (w : World) (upgrade : HttpUpgrade) :
    Fills server i w (w.finishUpgrade server i upgrade).2 := by
  have still : Fills server i w w := .refl w
  have sent := still.ops (w.respond_calm i 101
    (upgradeResponse (upgrade.acceptKey.getD []) upgrade.selectedSubprotocol)).ops
  simp only [finishUpgrade]
  split
  · exact sent.ops (.single (Hub.shut_calm _ i).op)
  · have opened {w' : World} (fills : Fills server i w w') :
        Fills server i w { w' with toHub := (w'.callOpenHandler server i).2 } :=
      fills.ops (w'.callOpenHandler_calm server i).ops
    have entered := opened (sent.trans (switchToFrames_fills _ upgrade))
    split
    · exact entered.ops (.single (Hub.shut_calm _ i).op)
    · have going {w' : World} (fills : Fills server i w w') :
          Fills server i w (if !(w'.conn i).isOpen then w'.onHub (w'.notifyConnectionClosed server i)
            else w'.processBufferedFrames server i).2 := by
        split
        · exact fills.ops (w'.notifyConnectionClosed_calm server i).ops
        · exact fills.trans (processBufferedFrames_fills w')
      split
      · exact going (entered.ops (.single (Hub.shut_calm _ i).op))
      · exact going entered

theorem beginUpgrade_fills (w : World) (upgrade : HttpUpgrade) :
    Fills server i w (w.beginUpgrade server i upgrade).2 := by
  have parsed : Fills server i w { w with toHub := w.emit (.parsed i (w.buffer i) upgrade) } :=
    (Fills.refl w).ops (.single (.emit _ _))
  have finished {w' : World} (fills : Fills server i w w') :
      Fills server i w ({ w' with toHub := w'.emit (.approved i) }.finishUpgrade server i upgrade).2 :=
    (fills.ops (.single (.emit _ _))).trans (finishUpgrade_fills _ upgrade)
  simp only [beginUpgrade]
  split
  · exact finished parsed
  · rename_i onHandshake _
    let request : Request := ⟨upgrade.method, upgrade.target, requestHeaders upgrade.headers⟩
    have asked := parsed.ops (Hub.callHandshakeHandler_calm _ i request (onHandshake request)).ops
    have accepted := finished asked
    split
    · exact asked
    · exact asked
    · exact accepted

theorem fill_fills (w : World) (chunk : Chunk) (rest : List RecvResult) {side : ReadSide}
    (room : (((w.setRecvs rest).touch i).reads i).ensureCapacity chunk.octets.length
      (readRoom server.options (w.conn i).upgraded) = some side) :
    Fills server i w (((w.setRecvs rest).touch i).setReads i (side.append chunk.octets)) := by
  have same : (((w.setRecvs rest).touch i).conn i).upgraded = (w.conn i).upgraded := by
    simp [touch, setRecvs, Hub.now]
  rw [Fills, readSide_setReads, same]
  exact .single (.receive chunk room)

theorem setRecvs_fills (w : World) (recvs : List RecvResult) : Fills server i w (w.setRecvs recvs) :=
  ReflTransGen.refl

theorem setErrno_fills (w : World) (e : Errno) : Fills server i w (w.setErrno e) := ReflTransGen.refl

theorem touch_fills (w : World) : Fills server i w (w.touch i) := by
  have same : (w.touch i).readSide i = w.readSide i := by simp [readSide, touch, Hub.now]
  rw [Fills, same]
  exact .refl

theorem failRecv_fills (w : World) : Fills server i w (w.failRecv i).2 :=
  (Fills.refl w).ops (.single (w.shut_calm i).op)

theorem handshakeLoop_fills (recvs : List RecvResult) (w : World) :
    Fills server i w (w.handshakeLoop server i recvs).2 := by
  induction recvs generalizing w with
  | nil =>
      rw [handshakeLoop.eq_def]
      dsimp only
      split
      · exact .refl w
      · exact setErrno_fills w _
  | cons answer rest ih =>
      have left : Fills server i w (w.setRecvs rest) := setRecvs_fills w rest
      rw [handshakeLoop.eq_def]
      dsimp only
      by_cases ended : (!((w.conn i).isOpen && !(w.conn i).upgraded)) = true
      · rw [if_pos ended]
        exact .refl w
      · rw [if_neg ended]
        have fresh : (w.conn i).upgraded = false := by
          simp only [Bool.not_eq_true', Bool.not_eq_false, Bool.and_eq_true] at ended
          exact ended.2
        cases answer with
        | eof => exact left.trans (failRecv_fills _)
        | data chunk =>
            have heard := left.trans (touch_fills _)
            dsimp only
            split
            · exact heard.ops (Hub.reject_calm _ i _ _).ops
            · rename_i side room
              have filled := @fill_fills server i w chunk rest side (by rw [fresh]; exact room)
              split
              · exact filled.trans (ih _)
              · exact filled.ops (Hub.reject_calm _ i _ _).ops
              · exact filled.trans (beginUpgrade_fills _ _)
        | failed e =>
            have told (e : Errno) := left.trans (setErrno_fills _ e)
            cases e with
            | eintr => exact (told _).trans (ih _)
            | eagain | ewouldblock => exact told _
            | enobufs | epipe | econnreset | ebadf | other => exact (told _).trans (failRecv_fills _)

theorem frameReadsLoop_fills (recvs : List RecvResult) (w : World) :
    Fills server i w (w.frameReadsLoop server i recvs).2 := by
  induction recvs generalizing w with
  | nil =>
      rw [frameReadsLoop.eq_def]
      dsimp only
      split
      · exact .refl w
      · exact (setErrno_fills w _).trans (processBufferedFrames_fills _)
  | cons answer rest ih =>
      have left : Fills server i w (w.setRecvs rest) := setRecvs_fills w rest
      rw [frameReadsLoop.eq_def]
      dsimp only
      by_cases ended : (!((w.conn i).isOpen && !(w.conn i).closeAfterWrite && (w.conn i).upgraded)) = true
      · rw [if_pos ended]
        exact .refl w
      · rw [if_neg ended]
        have upgraded : (w.conn i).upgraded = true := by
          simp only [Bool.not_eq_true', Bool.not_eq_false, Bool.and_eq_true] at ended
          exact ended.2
        cases answer with
        | eof => exact left.trans (failRecv_fills _)
        | data chunk =>
            have heard := left.trans (touch_fills _)
            dsimp only
            split
            · exact heard.ops (Hub.closeWithCode_calm _ i _ _).ops
            · rename_i side room
              have filled := @fill_fills server i w chunk rest side (by rw [upgraded]; exact room)
              have processed := filled.trans (processBufferedFrames_fills _)
              split
              · exact processed.trans (ih _)
              · exact processed
        | failed e =>
            have told (e : Errno) := left.trans (setErrno_fills _ e)
            cases e with
            | eintr => exact (told _).trans (ih _)
            | eagain | ewouldblock => exact (told _).trans (processBufferedFrames_fills _)
            | enobufs | epipe | econnreset | ebadf | other => exact (told _).trans (failRecv_fills _)

theorem processHeartbeat_fills (w : World) (nowUsec : Nat) :
    Fills server i w { w with toHub := (w.processHeartbeat server i nowUsec).2 } := by
  rcases w.processHeartbeat_calm server i nowUsec with calms | ⟨sent, calms, -, -, marked⟩
  · exact (Fills.refl w).ops calms.ops
  · have told : Fills server i w { w with toHub := sent } := (Fills.refl w).ops calms.ops
    rw [marked]
    apply told.trans
    rw [Fills, readSide, readSide, Hub.conn_setConn]
    exact .refl

theorem attend_fills (w : World) (nowUsec : Nat) : Fills server i w (w.attend server i nowUsec).2 := by
  have beat := @processHeartbeat_fills server i w nowUsec
  simp only [attend]
  split
  · exact (Fills.refl w).ops (w.closeExpiredConnection_calm i).ops
  · split
    · exact beat
    · have ended {flushed : Bool × Hub} (fills : Fills server i w { w with toHub := flushed.2 }) :
          Fills server i w (if !flushed.1 || !(flushed.2.conn i).isOpen ||
              (flushed.2.conn i).closeAfterWrite then
            (Attention.finished, { w with toHub := flushed.2 })
            else (Attention.ready, { w with toHub := flushed.2 })).2 := by
        split <;> exact fills
      apply ended
      split
      · exact beat.ops (.single (.flush _ i))
      · exact beat

theorem serveReady_fills (w : World) (nowUsec : Nat) :
    Fills server i w (w.serveReady server i nowUsec).2 := by
  have attended := @attend_fills server i w nowUsec
  simp only [serveReady]
  split
  · exact .refl w
  · split
    · exact attended
    · exact attended
    · split
      · exact attended.trans (handshakeLoop_fills _ _)
      · exact attended.trans (frameReadsLoop_fills _ _)

theorem processLeftover_fills (shaken : Bool × World) :
    Fills server i shaken.2 (processLeftover server i shaken).2 := by
  unfold processLeftover
  split
  · exact .refl _
  · split
    · exact processBufferedFrames_fills _
    · exact .refl _

theorem processConnection_fills (w : World) (nowUsec : Nat) :
    Fills server i w (w.processConnection server i nowUsec).2 := by
  have attended := @attend_fills server i w nowUsec
  rw [processConnection_eq]
  dsimp only
  split
  · exact .refl w
  · split
    · exact attended
    · exact attended
    · refine Fills.trans ?_ (processLeftover_fills _)
      split
      · exact attended.trans (handshakeLoop_fills _ _)
      · exact attended

/-- A step of `accept_pending`, as far as the read sides are concerned. -/
inductive Admission (server : Server) : World → World → Prop
  | other {w w' : World} (reads : w'.reads = w.reads)
      (next : w'.nextConnectionId = w.nextConnectionId) : Admission server w w'
  | opened (w : World) (fd : Nat) : Admission server w (w.openConnection server fd).2

theorem acceptConnection_admission (w : World) (answer : AcceptResult) :
    ReflTransGen (Admission server) w (w.acceptConnection server answer).2 := by
  cases answer with
  | failed e => exact .single (.other rfl rfl)
  | client fd nonblocking =>
      have cleared : Admission server w { w with env := { w.env with errno := none } } :=
        .other rfl rfl
      refine .head cleared ?_
      simp only [acceptConnection, acceptClient]
      split
      · exact .single (.other rfl rfl)
      · split
        · exact .single (.other rfl rfl)
        · exact .single (.opened _ fd)

theorem acceptLoop_admissions (answers : List AcceptResult) (accepted : Nat) (w : World) :
    ReflTransGen (Admission server) w (w.acceptLoop server answers accepted).2 := by
  induction answers generalizing w accepted with
  | nil =>
      rw [acceptLoop.eq_def]
      dsimp only
      split
      · exact .refl
      · exact .single (.other rfl rfl)
  | cons answer rest ih =>
      have asked : Admission server w { w with env := { w.env with accepts := rest } } := .other rfl rfl
      have done := ReflTransGen.head asked (acceptConnection_admission _ answer)
      rw [acceptLoop.eq_def]
      dsimp only
      split
      · exact .refl
      · split
        · exact done.trans (ih _ _)
        · split
          · exact done
          · split
            · exact done
            · split
              · exact done.trans (ih _ _)
              · exact done

theorem acceptLoop_reads {answers : List AcceptResult} {accepted : Nat} {w w' : World}
    (atEnd : (w.acceptLoop server answers accepted).2 = w') :
    ∀ j, w.nextConnectionId ≤ j → j < w'.nextConnectionId → w'.reads j = {} := by
  have admissions := @acceptLoop_admissions server answers accepted w
  rw [atEnd] at admissions
  clear atEnd
  induction admissions with
  | refl => exact fun j since before => absurd before (Nat.not_lt.mpr since)
  | @tail mid _ _ admission ih =>
      intro j since before
      cases admission with
      | other reads next =>
          rw [reads]
          exact ih j since (next ▸ before)
      | opened fd =>
          obtain ⟨reads, next⟩ : (mid.openConnection server fd).2.reads =
                Function.update mid.reads mid.nextConnectionId {} ∧
              (mid.openConnection server fd).2.nextConnectionId = mid.nextConnectionId + 1 := by
            simp only [openConnection]
            split <;> exact ⟨rfl, rfl⟩
          rw [next] at before
          rw [reads]
          rcases Nat.lt_succ_iff_lt_or_eq.mp before with earlier | rfl
          · rw [Function.update_of_ne (Nat.ne_of_lt earlier)]
            exact ih j since earlier
          · exact Function.update_self ..

end World

section

variable {server : Server} {m m' : Site} {label : Label} {i : ConnId}

/-- What a step does to the read sides: old ones go the model's ways, new ones are empty. -/
structure Site.Reads (options : Options) (m m' : Site) : Prop where
  old : ∀ i, i < m.world.nextConnectionId →
    ReadMoves options (m.world.readSide i) (m'.world.readSide i)
  fresh : ∀ i, m.world.nextConnectionId ≤ i → i < m'.world.nextConnectionId →
    m'.world.readSide i = (false, {})
  next : m.world.nextConnectionId ≤ m'.world.nextConnectionId

theorem Site.Reads.of_all (next : m'.world.nextConnectionId = m.world.nextConnectionId)
    (all : ∀ i, ReadMoves server.options (m.world.readSide i) (m'.world.readSide i)) :
    Site.Reads server.options m m' where
  old i _ := all i
  fresh _ since born := absurd (next ▸ born) (Nat.not_lt.mpr since)
  next := next.ge

theorem World.Fills.all {w w' : World} (fills : World.Fills server i w w') (tends : Tends i w w')
    (j : ConnId) : ReadMoves server.options (w.readSide j) (w'.readSide j) := by
  by_cases own : j = i
  · rw [own]
    exact fills
  · obtain ⟨keeps, reads⟩ := tends.others j own
    rw [show w'.readSide j = w.readSide j from Prod.ext keeps.upgraded reads]
    exact .refl

theorem Site.Step.reads (step : Site.Step server m label m') : Site.Reads server.options m m' := by
  cases step with
  | arrive | interrupt | timeout | ready | absent | scan => exact .of_all rfl fun _ => .refl
  | @listener w k mid k' fd used going listening unused ok accepts =>
      have admits := @World.acceptLoop_admits server w.env.accepts 0 w
      refine ⟨?_, ?_, admits.next⟩
      · intro i before
        obtain ⟨conn, reads⟩ := admits.old i before
        rw [show (w.acceptPending server).2.readSide i = w.readSide i from
          Prod.ext (congrArg Connection.upgraded conn) reads]
        exact .refl
      · intro i since born
        exact Prod.ext (admits.fresh i since born).1 (World.acceptLoop_reads rfl i since born)
  | @serve w k mid k' fd nowUsec i used found ok call =>
      have tends := (World.serveReady_heeds server (i := i) w nowUsec).tends
      exact .of_all tends.next ((World.serveReady_fills w nowUsec).all tends)
  | @check w k mid k' nowUsec i rest used ok call =>
      have tends := (World.processConnection_heeds server (i := i) w nowUsec).tends
      exact .of_all tends.next ((World.processConnection_fills w nowUsec).all tends)
  | @purge w k nowUsec ok =>
      have steady := w.purgeFrom_steady server w.connections.length 0
      refine .of_all steady.next ?_
      intro i
      rw [show World.readSide { w with toHub := (w.purgeClosedConnections server).2 } i = w.readSide i from
        congrArg (·, w.reads i) (steady.conns i).upgraded]
      exact .refl

/-- The read side of a connection that was accepted in a run has gone the model's ways. -/
theorem Site.Walk.reads {meets : Site → Label → Site → Prop} (walk : Site.Walk server meets m m')
    (since : m.world.nextConnectionId ≤ i) (born : i < m'.world.nextConnectionId) :
    ReadMoves server.options (false, {}) (m'.world.readSide i) := by
  induction walk with
  | start => exact absurd born (Nat.not_lt.mpr since)
  | @step mid _ _ _ step _ ih =>
      rcases Nat.lt_or_ge i mid.world.nextConnectionId with before | later
      · exact (ih before).trans (step.reads.old i before)
      · rw [step.reads.fresh i later born]
        exact .refl

end

/-- In memory, too: whatever a run of the server has made of the read side of a connection, a
    run of its buffer makes. -/
theorem Site.Walk.readBuffer {server : Server} {meets : Site → Label → Site → Prop} {m m' : Site}
    {i : ConnId} (walk : Site.Walk server meets m m') (since : m.world.nextConnectionId ≤ i)
    (born : i < m'.world.nextConnectionId) (small : server.options.maxMessageSize + 4110 < 2 ^ 62) :
    ∃ s, ReadState.Run server.options {} s ∧ s.upgraded = (m'.world.conn i).upgraded ∧
      s.buffer.Holds (m'.world.reads i) :=
  (walk.reads since born).run small

/-! ## What holds in every run -/

/-- How `ensure_read_capacity` ends, called for `n` octets more. -/
structure ReadBuffer.Ensured (limit : Nat) (n : UInt64) (b : ReadBuffer) (ok : Bool) (b' : ReadBuffer) :
    Prop where
  fails : ok = false ↔ limit < b.len.toNat + n.toNat
  untouched : ok = false → b' = b
  room : ok = true → b'.len.toNat + n.toNat ≤ b'.capacity.toNat
  len : b'.len = b.len
  content : b'.content = b.content
  grows : b.capacity ≤ b'.capacity

theorem ReadBuffer.Holds.ensured {b : ReadBuffer} {side : ReadSide} (holds : b.Holds side)
    {n limit : UInt64} (small : b.len.toNat + n.toNat ≤ 2 ^ 63) :
    ∃ ok b', b.ensureReadCapacity n limit = .ok (ok, b') ∧ Ensured limit.toNat n b ok b' := by
  have fits := ReadSide.ensureCapacity_isSome side n.toNat limit.toNat
  rw [← holds.len] at fits
  cases found : side.ensureCapacity n.toNat limit.toNat with
  | none =>
      have full : limit.toNat < b.len.toNat + n.toNat := by
        apply Nat.not_le.mp
        intro room
        rw [← fits, found] at room
        cases room
      exact ⟨false, b, holds.ensure_none found, iff_of_true rfl full, fun _ => rfl, nofun, rfl, rfl,
        UInt64.le_refl _⟩
  | some side' =>
      obtain ⟨b', ensured, holds', len, grows, room⟩ := holds.ensure_some small found
      have within : b.len.toNat + n.toNat ≤ limit.toNat := fits.mp (by rw [found]; rfl)
      refine ⟨true, b', ensured, iff_of_false nofun (Nat.not_lt.mpr within), nofun, ?_, len, ?_,
        grows⟩
      · intro _
        rw [len]
        exact room
      · rw [holds'.octets, ReadSide.ensureCapacity_buffer found, holds.octets]

/-- In every run of the buffer of a connection, whatever is received, discarded and upgraded:
    the copy behind `ensure_read_capacity` fits into the block, which never shrinks. -/
theorem readBuffer_fits {options : Options} {s : ReadState} (run : ReadState.Run options {} s) :
    s.buffer.len ≤ s.buffer.capacity ∧ s.buffer.cells.length = s.buffer.capacity.toNat ∧
    (s.buffer.len.toNat < 2 ^ 62 →
      (∀ n : UInt64, n.toNat ≤ readChunkSize → ∃ ok b,
        s.buffer.ensureReadCapacity n (s.limit options) = .ok (ok, b) ∧
          ReadBuffer.Ensured (if s.upgraded then options.maxMessageSize + 4110 else 8192) n
            s.buffer ok b) ∧
      ∀ chunk, ∃ ok b, s.buffer.receive chunk (s.limit options) = .ok (ok, b) ∧
        b.content = if ok then s.buffer.content ++ chunk.octets.map some else s.buffer.content) ∧
    (∀ s', ReadState.Run options s s' → s.buffer.capacity ≤ s'.buffer.capacity) ∧
    ∀ bytes, ∃ b, s.buffer.discardReadBytes bytes = .ok b ∧
      b.content = s.buffer.content.drop bytes.toNat := by
  obtain ⟨side, holds, -, -⟩ := run.moves ReadBuffer.holds_empty
  refine ⟨holds.room, holds.size, fun small => ⟨?_, ?_⟩, ?_, ?_⟩
  · intro n most
    rw [← readRoom_eq, ← s.limit_toNat]
    apply holds.ensured
    unfold readChunkSize at most
    omega
  · intro chunk
    cases found : side.ensureCapacity chunk.octets.length (s.limit options).toNat with
    | none => exact ⟨false, s.buffer, holds.receive_none found, rfl⟩
    | some side' =>
        obtain ⟨b, received, holds', -⟩ := holds.receive_some small found
        refine ⟨true, b, received, ?_⟩
        rw [holds'.octets, ReadSide.append, ReadSide.ensureCapacity_buffer found, List.map_append,
          ← holds.octets]
        rfl
  · intro s' further
    obtain ⟨-, -, grows, -⟩ := further.moves holds
    exact grows
  · intro bytes
    obtain ⟨b, discarded, holds', -⟩ := holds.discard bytes
    refine ⟨b, discarded, ?_⟩
    rw [holds'.octets, holds.octets]
    exact List.map_drop

/-- The last of three octets arrived behind the request, and stays when that is taken off. -/
theorem readBuffer_fits_pipelined : ∃ s : ReadState, s.upgraded = true ∧
    s.buffer.content = [some 3] ∧ s.buffer.capacity.toNat = 1024 ∧ s.buffer.len ≤ s.buffer.capacity ∧
    ∃ b, s.buffer.discardReadBytes 1 = .ok b ∧ b.content = [] := by
  let options : Options := .array fun _ => none
  let chunk : Chunk := ⟨[1, 2, 3], List.cons_ne_nil _ _, by decide⟩
  have room : ReadSide.ensureCapacity {} chunk.octets.length (ReadState.limit options {}).toNat =
      some { capacity := 1024 } := by
    rw [ReadState.limit_toNat]
    rfl
  obtain ⟨b, received, holds, -⟩ := ReadBuffer.holds_empty.receive_some (by decide) room
  obtain ⟨b', discarded, holds', -⟩ := holds.discard 2
  have run : ReadState.Run options {} ⟨true, b'⟩ := by
    refine ((ReflTransGen.single ?_).tail (.upgrade ⟨false, b⟩)).tail ?_
    · exact .receive (s := {}) chunk (by decide) received
    · exact .discard (s := ⟨true, b⟩) 2 discarded
  obtain ⟨within, -, -, -, discards⟩ := readBuffer_fits run
  obtain ⟨b'', emptied, content⟩ := discards 1
  refine ⟨⟨true, b'⟩, rfl, holds'.octets, holds'.capacity, within, b'', emptied, ?_⟩
  rw [content, show b'.content = [some 3] from holds'.octets]
  rfl

end PhpWebSocket
