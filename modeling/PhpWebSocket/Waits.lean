import Mathlib.Data.List.Find
import PhpWebSocket.Descriptors
import PhpWebSocket.Drivers

/-! # Waiting

The `wait` of the two drivers that keep a table. Both ask the kernel about every entry and report
the first one that it finds ready, so what they report is a matter of the order of the table.
What `epoll` and `kqueue` report is chosen by the kernel.
-/

namespace PhpWebSocket

open Lib

/-- What the kernel finds a descriptor to be when a call that waits ends. -/
structure Condition where
  readable : Bool := false
  writable : Bool := false
  error : Bool := false
  hangup : Bool := false
  /-- not an open descriptor -/
  invalid : Bool := false
  deriving Repr, DecidableEq

/-- How the kernel answers a call that waits. -/
inductive KernelAnswer where
  | failed (errno : Errno)
  | found (condition : Nat → Condition)

/-- What `wait` returns, and what it leaves in `ready_fd`; the error is `errno` beside -1. -/
abbrev Waited := Except Errno (Nat × Option Nat)

/-- What the loop of `websocket_server_runtime_run` makes of it. A descriptor that has not been
    set is -1, and then nothing is served but the scan. -/
def Waited.result : Waited → WaitResult
  | .error e => .failed e
  | .ok (_ + 1, some fd) => .ready fd
  | .ok _ => .idle

/-! ## `poll` -/

def pollErr : UInt16 := 0x008
def pollHup : UInt16 := 0x010
def pollNval : UInt16 := 0x020

/-- The events of a descriptor that were asked for, and those that always are. -/
def Condition.revents (c : Condition) (events : UInt16) : UInt16 :=
  if c.invalid then pollNval
  else
    (if c.readable then events &&& pollIn else 0) ||| (if c.writable then events &&& pollOut else 0) |||
      (if c.error then pollErr else 0) ||| (if c.hangup then pollHup else 0)

/-- What `poll` writes. -/
def PollFd.answered (condition : Nat → Condition) (entry : PollFd) : PollFd :=
  { entry with revents := (condition entry.fd).revents entry.events }

/-- `poll` -/
def poll (fds : List PollFd) : KernelAnswer → Except Errno (Nat × List PollFd)
  | .failed e => .error e
  | .found condition =>
      let fds := fds.map (PollFd.answered condition)
      .ok (fds.countP fun entry => entry.revents ≠ 0, fds)

/-- `websocket_poll_wait`. -/
def PollTable.wait (table : PollTable) (answer : KernelAnswer) : Waited × PollTable :=
  if table.fds.length = 0 then (.error .ebadf, table)
  else
    match poll table.fds answer with
    | .error e => (.error e, table)
    | .ok (ready, fds) =>
        let first := fds.find? fun entry => entry.revents ≠ 0
        (.ok (ready, if ready = 0 then none else first.map PollFd.fd), { table with fds })

/-! ## `select` -/

/-- A set of descriptors. -/
abbrev FdSet := Nat → Bool

def Condition.selectsRead (c : Condition) : Bool := c.readable || c.error || c.hangup
def Condition.selectsWrite (c : Condition) : Bool := c.writable || c.error

/-- `select` on the descriptors below `nfds`: how many are left in the two sets, and the sets. -/
def select (nfds : Nat) (reads writes : FdSet) : KernelAnswer → Except Errno (Nat × FdSet × FdSet)
  | .failed e => .error e
  | .found condition =>
      if (List.range nfds).any fun fd => (reads fd || writes fd) && (condition fd).invalid then
        .error .ebadf
      else
        let reads fd := reads fd && (condition fd).selectsRead
        let writes fd := writes fd && (condition fd).selectsWrite
        .ok ((List.range nfds).countP reads + (List.range nfds).countP writes, reads, writes)

/-- `max_fd + 1` -/
def SelectTable.nfds (table : SelectTable) : Nat :=
  table.fds.foldl (fun nfds entry => max nfds (entry.fd + 1)) 0

/-- `websocket_select_wait`. -/
def SelectTable.wait (table : SelectTable) (answer : KernelAnswer) : Waited :=
  if table.fds.length = 0 then .error .ebadf
  else
    match select table.nfds table.driver.reads table.driver.writes answer with
    | .error e => .error e
    | .ok (ready, reads, writes) =>
        let first := table.fds.find? fun entry =>
          (entry.read && reads entry.fd) || (entry.write && writes entry.fd)
        .ok (ready, if ready = 0 then none else first.map SelectFd.fd)

/-! ## The first one that is ready -/

/-- A descriptor is ready that is watched for something the kernel finds. -/
def Driver.ready (d : Driver) (condition : Nat → Condition) (fd : Nat) : Bool :=
  (d.reads fd && (condition fd).selectsRead) || (d.writes fd && (condition fd).selectsWrite)

/-- What waiting comes to for descriptors that are watched in this order. -/
def Driver.wait (d : Driver) (order : List Nat) (answer : KernelAnswer) : WaitResult :=
  if order = [] then .failed .ebadf
  else
    match answer with
    | .failed e => .failed e
    | .found condition => (order.find? (d.ready condition)).elim .idle .ready

theorem Driver.wait_ready {d : Driver} {order : List Nat} {condition : Nat → Condition} {fd : Nat}
    (ready : d.wait order (.found condition) = .ready fd) :
    fd ∈ order ∧ d.ready condition fd = true := by
  rw [Driver.wait] at ready
  split at ready
  · cases ready
  · cases first : order.find? (d.ready condition) with
    | none =>
        rw [first] at ready
        cases ready
    | some found =>
        rw [first] at ready
        cases ready
        exact ⟨List.mem_of_find?_eq_some first, List.find?_some first⟩

theorem Driver.wait_idle {d : Driver} {order : List Nat} {condition : Nat → Condition} {fd : Nat}
    (idle : d.wait order (.found condition) = .idle) (mem : fd ∈ order) :
    d.ready condition fd = false := by
  rw [Driver.wait] at idle
  split at idle
  · cases idle
  · cases first : order.find? (d.ready condition) with
    | some found =>
        rw [first] at idle
        cases idle
    | none => simpa using List.find?_eq_none.mp first fd mem

/-- No descriptor that is watched has been closed. -/
def KernelAnswer.Valid (d : Driver) : KernelAnswer → Prop
  | .failed _ => True
  | .found condition => ∀ fd, d.reads fd = true → (condition fd).invalid = false

/-- The bits of a mask that a driver keeps. -/
theorem revents_mask (c : Condition) (valid : c.invalid = false) (write : Bool) :
    c.revents (PollTable.mask write) ≠ 0 ↔
      (c.selectsRead || (write && c.selectsWrite)) = true := by
  rcases c with ⟨readable, writable, error, hangup, invalid⟩
  cases valid
  revert readable writable error hangup write
  decide

theorem find?_map_key {α : Type} {key : α → Nat} {entries : List α} {p : α → Bool} {q : Nat → Bool}
    (same : ∀ entry ∈ entries, p entry = q (key entry)) :
    (entries.find? p).map key = (entries.map key).find? q := by
  rw [List.find?_map, List.find?_congr same]
  rfl

theorem Waited.result_found {ready : Nat} {first : Option Nat} (counts : 0 < ready ↔ first.isSome) :
    Waited.result (.ok (ready, if ready = 0 then none else first)) = first.elim .idle .ready := by
  cases ready with
  | zero =>
      have unfound : first = none := by simpa using counts
      rw [unfound]
      rfl
  | succ ready =>
      obtain ⟨fd, rfl⟩ := Option.isSome_iff_exists.mp (counts.mp (Nat.succ_pos ready))
      rfl

section

variable {d : Driver} {answer : KernelAnswer}

theorem Driver.entry_eq_some {β : Type} {keep : Bool → β} {fd : Nat} {x : β}
    (kept : d.entry keep fd = some x) : d.reads fd = true ∧ x = keep (d.writes fd) := by
  unfold Driver.entry at kept
  split at kept
  · rename_i watched
    exact ⟨watched, (Option.some.inj kept).symm⟩
  · cases kept

theorem listed_watched {fd : Nat} {α β : Type} {key : α → Nat} {value : α → β} {keep : Bool → β} {fds : List α}
    (denotes : Table.Denotes key value fds (d.entry keep)) (watched : d.reads fd = true) :
    fd ∈ fds.map key := by
  apply denotes.mem_iff.mpr
  simp [Driver.entry, watched]

theorem PollTable.Shows.wait {table : PollTable} (shows : table.Shows d) (valid : answer.Valid d) :
    (table.wait answer).1.result = d.wait (table.fds.map PollFd.fd) answer := by
  unfold PollTable.wait Driver.wait
  simp only [List.length_eq_zero_iff, List.map_eq_nil_iff]
  split
  · rfl
  · cases answer with
    | failed e => rfl
    | found condition =>
        have same : ∀ entry ∈ table.fds.map (PollFd.answered condition),
            decide (entry.revents ≠ 0) = d.ready condition entry.fd := by
          intro _ mem
          obtain ⟨entry, old, rfl⟩ := List.mem_map.mp mem
          obtain ⟨watched, events⟩ := Driver.entry_eq_some (shows.of_mem old)
          have bits := revents_mask _ (valid _ watched) (d.writes entry.fd)
          rw [← events] at bits
          simp only [PollFd.answered, bits, Driver.ready, watched, Bool.true_and, Bool.decide_eq_true]
        have first := find?_map_key same
        rw [Table.map_map_key (f := PollFd.answered condition) fun _ => rfl] at first
        simp only [poll]
        rw [← first, Waited.result_found]
        rw [Option.isSome_map, List.find?_isSome, List.countP_pos_iff]

theorem SelectTable.lt_nfds {table : SelectTable} {fd : Nat}
    (mem : fd ∈ table.fds.map SelectFd.fd) : fd < table.nfds := by
  have most (fds : List SelectFd) (least : Nat) (mem : fd < least ∨ fd ∈ fds.map SelectFd.fd) :
      fd < fds.foldl (fun nfds entry => max nfds (entry.fd + 1)) least := by
    induction fds generalizing least with
    | nil => simpa using mem
    | cons first fds ih =>
        apply ih
        rcases mem with less | mem
        · exact .inl (less.trans_le (Nat.le_max_left _ _))
        · rcases List.mem_cons.mp mem with rfl | later
          · exact .inl (Nat.le_max_right _ _)
          · exact .inr later
  exact most table.fds 0 (.inr mem)

theorem SelectTable.Shows.wait {table : SelectTable} (shows : table.Shows d) (ordered : d.Ordered)
    (valid : answer.Valid d) :
    (table.wait answer).result = d.wait (table.fds.map SelectFd.fd) answer := by
  unfold SelectTable.wait Driver.wait
  simp only [List.length_eq_zero_iff, List.map_eq_nil_iff]
  split
  · rfl
  · obtain ⟨reads, writes⟩ := shows.driver ordered
    cases answer with
    | failed e => rfl
    | found condition =>
        have watched (fd : Nat) (either : d.reads fd = true ∨ d.writes fd = true) :
            d.reads fd = true := by
          rcases either with read | write
          · exact read
          · by_contra unread
            simp [ordered fd (by simpa using unread)] at write
        have unbroken : ((List.range table.nfds).any fun fd =>
            (d.reads fd || d.writes fd) && (condition fd).invalid) = false := by
          simp only [List.any_eq_false, Bool.and_eq_true, Bool.or_eq_true, not_and, Bool.not_eq_true]
          rintro fd - either
          exact valid fd (watched fd either)
        have same : ∀ entry ∈ table.fds,
            ((entry.read && (d.reads entry.fd && (condition entry.fd).selectsRead)) ||
              (entry.write && (d.writes entry.fd && (condition entry.fd).selectsWrite))) =
              d.ready condition entry.fd := by
          intro entry mem
          obtain ⟨watched, flags⟩ := Driver.entry_eq_some (shows.of_mem mem)
          obtain ⟨read, write⟩ := Prod.mk.inj flags
          rw [read, write, Driver.ready, Bool.true_and, ← Bool.and_assoc, Bool.and_self]
        have listed (fd : Nat) (ready : d.ready condition fd = true) :
            fd ∈ table.fds.map SelectFd.fd := by
          apply listed_watched shows
          apply watched
          simp only [Driver.ready, Bool.or_eq_true, Bool.and_eq_true] at ready
          exact ready.imp And.left And.left
        simp only [select, reads, writes, unbroken, Bool.false_eq_true, if_false]
        rw [← find?_map_key same, Waited.result_found]
        rw [find?_map_key same, List.find?_isSome, Nat.add_pos_iff_pos_or_pos, List.countP_pos_iff, List.countP_pos_iff]
        constructor
        · rintro (⟨fd, -, bit⟩ | ⟨fd, -, bit⟩)
          · have ready : d.ready condition fd = true := by simp [Driver.ready, bit]
            exact ⟨fd, listed fd ready, ready⟩
          · have ready : d.ready condition fd = true := by simp [Driver.ready, bit]
            exact ⟨fd, listed fd ready, ready⟩
        · rintro ⟨fd, mem, ready⟩
          have inside := List.mem_range.mpr (SelectTable.lt_nfds mem)
          simp only [Driver.ready, Bool.or_eq_true] at ready
          exact ready.imp (fun bit => ⟨fd, inside, bit⟩) fun bit => ⟨fd, inside, bit⟩

end

/-! ## The order of the tables -/

/-- What a driver is used for. -/
inductive DriverUse where
  | call (c : DriverCall)
  | wait (answer : KernelAnswer)

def Drivers.use (fdSetSize : Nat) (all : Drivers) : DriverUse → Drivers
  | .call c => all.call fdSetSize c
  | .wait answer => { all with poll := (all.poll.wait answer).2 }

def Driver.use (d : Driver) : DriverUse → Driver
  | .call c => d.call c
  | .wait _ => d

def DriverUse.Legal (fdSetSize : Nat) (d : Driver) : DriverUse → Prop
  | .call c => c.Legal fdSetSize d
  | .wait _ => True

def LegalUses (fdSetSize : Nat) : Driver → List DriverUse → Prop
  | _, [] => True
  | d, u :: rest => u.Legal fdSetSize d ∧ LegalUses fdSetSize (d.use u) rest

/-- What a use of a driver comes to. -/
inductive UseResult where
  /-- `errno`, where a call is refused -/
  | called (refused : Option Errno)
  | waited (w : Waited)

def PollTable.use (table : PollTable) : DriverUse → UseResult × PollTable
  | .call (.watchRead fd) => ⟨.called (table.watchRead fd).1, (table.watchRead fd).2⟩
  | .call (.watchWrite fd) => ⟨.called (table.watchWrite fd).1, (table.watchWrite fd).2⟩
  | .call (.unwatchWrite fd) => ⟨.called none, table.unwatchWrite fd⟩
  | .call (.unwatch fd) => ⟨.called none, table.unwatch fd⟩
  | .wait answer => ⟨.waited (table.wait answer).1, (table.wait answer).2⟩

def SelectTable.use (fdSetSize : Nat) (table : SelectTable) : DriverUse → UseResult × SelectTable
  | .call (.watchRead fd) =>
      ⟨.called (table.watchRead fdSetSize fd).1, (table.watchRead fdSetSize fd).2⟩
  | .call (.watchWrite fd) =>
      ⟨.called (table.watchWrite fdSetSize fd).1, (table.watchWrite fdSetSize fd).2⟩
  | .call (.unwatchWrite fd) => ⟨.called none, table.unwatchWrite fd⟩
  | .call (.unwatch fd) => ⟨.called none, table.unwatch fd⟩
  | .wait answer => ⟨.waited (table.wait answer), table⟩

/-- The descriptors that are watched, the longest watched first. -/
def DriverUse.order (order : List Nat) : DriverUse → List Nat
  | .call (.watchRead fd) => order ++ [fd]
  | .call (.unwatch fd) => order.erase fd
  | _ => order

section

variable {fdSetSize : Nat} {d : Driver} {fd : Nat}

theorem unlisted_removed {α β : Type} {key : α → Nat} {value : α → β} {m : Nat → Option β}
    {fds : List α} (denotes : Table.Denotes key value fds m) {i : Nat}
    (here : Table.index key fds fd = some i) {f : α → α} (same : ∀ entry, key (f entry) = key entry) :
    fd ∉ ((fds.modify i f).eraseIdx i).map key := by
  have there : Table.index key (fds.modify i f) fd = some i := by
    rw [Table.index_map, Table.map_modify same, ← Table.index_map, here]
  rw [Table.map_eraseIdx there, Table.map_modify same]
  exact List.Nodup.not_mem_erase denotes.unique

namespace PollTable

variable {table : PollTable}

theorem order_watchRead (shows : table.Shows d) (unwatched : d.reads fd = false) :
    (table.watchRead fd).2.fds.map PollFd.fd = table.fds.map PollFd.fd ++ [fd] := by
  rw [watchRead, watch, index_of_unwatched shows unwatched, List.map_append]
  rfl

theorem order_watchWrite (shows : table.Shows d) (watched : d.reads fd = true) :
    (table.watchWrite fd).2.fds.map PollFd.fd = table.fds.map PollFd.fd := by
  obtain ⟨i, here⟩ := index_of_watched shows watched
  rw [watchWrite, watch, here]
  apply Table.map_modify
  intro entry
  rfl

/-- An entry that is watched for reading stays. -/
theorem order_unwatchWrite (shows : table.Shows d) (ordered : d.Ordered) :
    (table.unwatchWrite fd).fds.map PollFd.fd = table.fds.map PollFd.fd := by
  have after := shows.unwatchWrite ordered fd
  cases watched : d.reads fd with
  | false => rw [unwatchWrite, index_of_unwatched shows watched]
  | true =>
      obtain ⟨i, here⟩ := index_of_watched shows watched
      rw [unwatchWrite, here] at after ⊢
      dsimp only at after ⊢
      split at after
      · let clear (entry : PollFd) : PollFd := { entry with events := entry.events &&& ~~~pollOut }
        exact absurd (listed_watched after (watched : (d.call (.unwatchWrite fd)).reads fd = true))
          (unlisted_removed shows here (f := clear) fun _ => rfl)
      · rename_i left
        rw [if_neg left]
        apply Table.map_modify
        intro entry
        rfl

theorem order_unwatch (table : PollTable) (fd : Nat) :
    (table.unwatch fd).fds.map PollFd.fd = (table.fds.map PollFd.fd).erase fd := by
  unfold unwatch
  split
  · rename_i absent
    exact (Table.erase_unlisted absent).symm
  · rename_i i here
    exact Table.map_eraseIdx here

end PollTable

namespace SelectTable

variable {table : SelectTable}

theorem order_watchRead (shows : table.Shows d) (small : fd < fdSetSize)
    (unwatched : d.reads fd = false) :
    (table.watchRead fdSetSize fd).2.fds.map SelectFd.fd = table.fds.map SelectFd.fd ++ [fd] := by
  rw [watchRead, watch, ensureFd, if_neg (Nat.not_le.mpr small), index_of_unwatched shows unwatched]
  let read (entry : SelectFd) : SelectFd := { entry with read := true }
  exact (Table.map_modify (f := read) (fun _ => rfl) _ _).trans List.map_append

theorem order_watchWrite (shows : table.Shows d) (small : fd < fdSetSize)
    (watched : d.reads fd = true) :
    (table.watchWrite fdSetSize fd).2.fds.map SelectFd.fd = table.fds.map SelectFd.fd := by
  obtain ⟨i, here⟩ := index_of_watched shows watched
  rw [watchWrite, watch, ensureFd, if_neg (Nat.not_le.mpr small), here]
  apply Table.map_modify
  intro entry
  rfl

theorem order_unwatchWrite (shows : table.Shows d) (ordered : d.Ordered) :
    (table.unwatchWrite fd).fds.map SelectFd.fd = table.fds.map SelectFd.fd := by
  have after := shows.unwatchWrite ordered fd
  cases watched : d.reads fd with
  | false => rw [unwatchWrite, index_of_unwatched shows watched]
  | true =>
      obtain ⟨i, here⟩ := index_of_watched shows watched
      rw [unwatchWrite, here] at after ⊢
      dsimp only at after ⊢
      split at after
      · let clear (entry : SelectFd) : SelectFd := { entry with write := false }
        exact absurd (listed_watched after (watched : (d.call (.unwatchWrite fd)).reads fd = true))
          (unlisted_removed shows here (f := clear) fun _ => rfl)
      · rename_i left
        rw [if_neg left]
        apply Table.map_modify
        intro entry
        rfl

theorem order_unwatch (table : SelectTable) (fd : Nat) :
    (table.unwatch fd).fds.map SelectFd.fd = (table.fds.map SelectFd.fd).erase fd := by
  unfold unwatch
  split
  · rename_i absent
    exact (Table.erase_unlisted absent).symm
  · rename_i i here
    exact Table.map_eraseIdx here

end SelectTable

/-- What both tables and the order list say of the descriptors. -/
structure Drivers.Aligned (fdSetSize : Nat) (all : Drivers) (d : Driver) (order : List Nat) : Prop
    extends all.Show fdSetSize d where
  pollOrder : all.poll.fds.map PollFd.fd = order
  selectOrder : all.select.fds.map SelectFd.fd = order

variable {all : Drivers} {order : List Nat}

/-- Waiting leaves a table but for what the kernel has found. -/
theorem PollTable.wait_keeps (table : PollTable) (answer : KernelAnswer) :
    ∃ f : PollFd → PollFd, (table.wait answer).2.fds = table.fds.map f ∧
      (∀ entry, (f entry).fd = entry.fd) ∧ ∀ entry, (f entry).events = entry.events := by
  have same : table.fds = table.fds.map id := (List.map_id _).symm
  unfold PollTable.wait
  split
  · exact ⟨id, same, fun _ => rfl, fun _ => rfl⟩
  · cases answer with
    | failed e => exact ⟨id, same, fun _ => rfl, fun _ => rfl⟩
    | found condition => exact ⟨_, rfl, fun _ => rfl, fun _ => rfl⟩

theorem PollTable.Shows.waited {table : PollTable} (shows : table.Shows d) (answer : KernelAnswer) :
    (table.wait answer).2.Shows d := by
  obtain ⟨f, fds, keys, events⟩ := table.wait_keeps answer
  rw [PollTable.Shows, fds]
  exact shows.map keys events

theorem Drivers.Aligned.use (aligned : all.Aligned fdSetSize d order) {u : DriverUse}
    (legal : u.Legal fdSetSize d) :
    (all.use fdSetSize u).Aligned fdSetSize (d.use u) (u.order order) := by
  cases u with
  | wait answer =>
      obtain ⟨f, fds, keys, -⟩ := all.poll.wait_keeps answer
      refine ⟨⟨aligned.poll.waited answer, aligned.select, aligned.epoll, aligned.kqueue,
        aligned.ordered, aligned.small⟩, ?_, aligned.selectOrder⟩
      rw [Drivers.use, fds, Table.map_map_key keys]
      exact aligned.pollOrder
  | call c =>
      refine ⟨aligned.toShow.call legal, ?_, ?_⟩
      · cases c with
        | watchRead fd => exact aligned.pollOrder ▸ PollTable.order_watchRead aligned.poll legal.2
        | watchWrite fd => exact aligned.pollOrder ▸ PollTable.order_watchWrite aligned.poll legal
        | unwatchWrite fd =>
            exact aligned.pollOrder ▸ PollTable.order_unwatchWrite aligned.poll aligned.ordered
        | unwatch fd => exact aligned.pollOrder ▸ all.poll.order_unwatch fd
      · cases c with
        | watchRead fd =>
            exact aligned.selectOrder ▸
              SelectTable.order_watchRead aligned.select legal.1 legal.2
        | watchWrite fd =>
            exact aligned.selectOrder ▸
              SelectTable.order_watchWrite aligned.select (aligned.small fd legal) legal
        | unwatchWrite fd =>
            exact aligned.selectOrder ▸
              SelectTable.order_unwatchWrite aligned.select aligned.ordered
        | unwatch fd => exact aligned.selectOrder ▸ all.select.order_unwatch fd

theorem Drivers.Aligned.run (aligned : all.Aligned fdSetSize d order) {uses : List DriverUse}
    (legal : LegalUses fdSetSize d uses) :
    (uses.foldl (Drivers.use fdSetSize) all).Aligned fdSetSize (uses.foldl Driver.use d)
      (uses.foldl DriverUse.order order) := by
  induction uses generalizing all d order with
  | nil => exact aligned
  | cons u rest ih => exact ih (aligned.use legal.1) legal.2

theorem Drivers.Aligned.start (fdSetSize : Nat) : ({} : Drivers).Aligned fdSetSize {} [] := by
  refine ⟨⟨⟨List.nodup_nil, fun _ => rfl⟩, ⟨List.nodup_nil, fun _ => rfl⟩, rfl, ?_, ?_, ?_⟩, rfl, rfl⟩
  · exact ⟨_, rfl, fun _ => ⟨rfl, rfl⟩⟩
  · intro fd _
    rfl
  · intro fd watched
    cases watched

end

/-- In every order of calls and waits, the two drivers that keep a table come to the same: the
    kernel's error, or the descriptor that has been watched the longest among those that are
    ready for what they are watched for, or nothing if none is. -/
theorem waits_agree (fdSetSize : Nat) (uses : List DriverUse) (legal : LegalUses fdSetSize {} uses)
    (answer : KernelAnswer) (valid : answer.Valid (uses.foldl Driver.use {})) :
    let all := uses.foldl (Drivers.use fdSetSize) {}
    let d := uses.foldl Driver.use {}
    let order := uses.foldl DriverUse.order []
    (all.poll.wait answer).1.result = d.wait order answer ∧
      (all.select.wait answer).result = d.wait order answer ∧
      order.Nodup ∧ ∀ fd, fd ∈ order ↔ d.reads fd = true := by
  intro all d order
  have aligned : all.Aligned fdSetSize d order := (Drivers.Aligned.start fdSetSize).run legal
  have poll := aligned.poll.wait valid
  have select := aligned.select.wait aligned.ordered valid
  rw [aligned.pollOrder] at poll
  rw [aligned.selectOrder] at select
  refine ⟨poll, select, aligned.pollOrder ▸ aligned.poll.unique, ?_⟩
  intro fd
  rw [← aligned.pollOrder, aligned.poll.mem_iff, Driver.entry]
  cases d.reads fd <;> simp

/-- The second of three is ready to be written to, and the third to be read from. -/
theorem waits_agree_second :
    let uses : List DriverUse := [.call (.watchRead 9), .call (.watchRead 4), .call (.watchWrite 4),
      .wait (.found fun _ => {}), .call (.watchRead 6)]
    let answer : KernelAnswer := .found fun fd => { writable := true, readable := fd = 6 }
    let all := uses.foldl (Drivers.use 1024) {}
    (all.poll.wait answer).1.result = .ready 4 ∧ (all.select.wait answer).result = .ready 4 := by
  intro uses answer all
  have legal : LegalUses 1024 {} uses := by
    simp [LegalUses, DriverUse.Legal, DriverCall.Legal, Driver.use, Driver.call, uses]
  obtain ⟨poll, select, -, -⟩ := waits_agree 1024 uses legal answer fun _ _ => rfl
  have first : (uses.foldl Driver.use {}).wait (uses.foldl DriverUse.order []) answer = .ready 4 := by
    decide
  exact ⟨poll.trans first, select.trans first⟩

/-! ## What the server is told -/

/-- The table of `poll` after everything it has been used for. -/
def PollTable.after (uses : List DriverUse) : PollTable :=
  uses.foldl (fun table u => (table.use u).2) {}

/-- Waiting is not a call that the server makes of what is watched. -/
def DriverUse.driverCall : DriverUse → Option DriverCall
  | .call c => some c
  | .wait _ => none

section

variable {fdSetSize : Nat} {d : Driver} {table : PollTable} {uses : List DriverUse}

theorem PollTable.Shows.use (shows : table.Shows d) (ordered : d.Ordered) {u : DriverUse}
    (legal : u.Legal fdSetSize d) : (table.use u).2.Shows (d.use u) := by
  cases u with
  | wait answer => exact shows.waited answer
  | call c =>
      cases c with
      | watchRead fd => exact shows.watchRead ordered legal.2
      | watchWrite fd => exact shows.watchWrite legal
      | unwatchWrite fd => exact shows.unwatchWrite ordered fd
      | unwatch fd => exact shows.unwatch ordered fd

theorem Driver.Ordered.use (ordered : d.Ordered) {u : DriverUse} (legal : u.Legal fdSetSize d) :
    (d.use u).Ordered := by
  cases u with
  | wait answer => exact ordered
  | call c => exact ordered.call legal

theorem PollTable.Shows.run (shows : table.Shows d) (ordered : d.Ordered)
    (legal : LegalUses fdSetSize d uses) :
    (uses.foldl (fun table u => (table.use u).2) table).Shows (uses.foldl Driver.use d) := by
  induction uses generalizing table d with
  | nil => exact shows
  | cons u rest ih => exact ih (shows.use ordered legal.1) (ordered.use legal.1) legal.2

theorem LegalCalls.waited (legal : LegalCalls fdSetSize d (uses.filterMap DriverUse.driverCall)) :
    LegalUses fdSetSize d uses ∧
      uses.foldl Driver.use d = (uses.filterMap DriverUse.driverCall).foldl Driver.call d := by
  induction uses generalizing d with
  | nil => exact ⟨trivial, rfl⟩
  | cons u rest ih =>
      cases u with
      | wait answer =>
          obtain ⟨later, same⟩ := ih legal
          exact ⟨⟨trivial, later⟩, same⟩
      | call c =>
          obtain ⟨later, same⟩ := ih legal.2
          exact ⟨⟨legal.1, later⟩, same⟩

/-- Whatever has been waited for in between, the table shows what the calls have left. -/
theorem Driver.Recorded.shows (recorded : d.Recorded)
    (made : uses.filterMap DriverUse.driverCall = d.calls) : (PollTable.after uses).Shows d := by
  obtain ⟨fdSetSize, calls, reads, writes⟩ := recorded
  rw [← made] at calls reads writes
  obtain ⟨legal, same⟩ := calls.waited
  rw [← same] at reads writes
  have empty : ({} : PollTable).Shows {} := ⟨List.nodup_nil, fun _ => rfl⟩
  have shows := empty.run (fun _ _ => rfl) legal
  have entries : (uses.foldl Driver.use {}).entry PollTable.mask = d.entry PollTable.mask := by
    funext fd
    rw [Driver.entry, Driver.entry, reads, writes]
  rw [PollTable.Shows, entries] at shows
  exact shows

end

/-- What is reported is the listener or the descriptor of exactly one connection, and where
    nothing is, there is nothing to be done on any connection. -/
structure Reports (listener : Nat) (h : Hub) (condition : Nat → Condition) (result : WaitResult) :
    Prop where
  known : ∀ fd, result = .ready fd →
    fd = listener ∨ ∃! i, i ∈ h.connections ∧ (h.conn i).fd = some fd
  missed : result = .idle → ∀ i ∈ h.connections, ∀ fd, (h.conn i).fd = some fd →
    (condition fd).selectsRead = false ∧
      ((h.conn i).writeWatched = true → (condition fd).selectsWrite = false)

theorem DescriptorsAgree.reports {server : Server} {listener : Nat} {h : Hub}
    (agree : DescriptorsAgree server listener h) {d : Driver} (driver : h.env.driver = some d)
    {table : PollTable} (shows : table.Shows d) {condition : Nat → Condition}
    (valid : KernelAnswer.Valid d (.found condition)) :
    Reports listener h condition (table.wait (.found condition)).1.result := by
  obtain ⟨_, same, reads⟩ := agree.reads
  cases driver.symm.trans same
  obtain ⟨_, same, writes⟩ := agree.writes
  cases driver.symm.trans same
  have reported := shows.wait valid
  have listed (fd : Nat) : fd ∈ table.fds.map PollFd.fd ↔ d.reads fd = true := by
    rw [shows.mem_iff, Driver.entry]
    cases d.reads fd <;> simp
  constructor
  · intro fd ready
    obtain ⟨mem, -⟩ := Driver.wait_ready (reported.symm.trans ready)
    rcases (reads fd).mp ((listed fd).mp mem) with same | ⟨i, mem, own⟩
    · exact .inl same
    · exact .inr ⟨i, ⟨mem, own⟩, fun j other => agree.distinct j other.1 i mem fd other.2 own⟩
  · intro nothing i mem fd own
    have watched : d.reads fd = true := (reads fd).mpr (.inr ⟨i, mem, own⟩)
    have unready := Driver.wait_idle (reported.symm.trans nothing) ((listed fd).mpr watched)
    rw [Driver.ready, watched, Bool.true_and, Bool.or_eq_false_iff] at unready
    refine ⟨unready.1, fun queued => ?_⟩
    have wanted : d.writes fd = true := (writes fd).mpr ⟨i, mem, own, queued⟩
    rw [wanted, Bool.true_and] at unready
    exact unready.2

end PhpWebSocket
