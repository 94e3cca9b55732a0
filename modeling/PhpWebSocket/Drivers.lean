import PhpWebSocket.Env
import PhpWebSocket.Lib.Table

/-! # The drivers

Which descriptors are waited for, in the four ways of `drivers/`: a table of entries for
`select`, a table of event masks for `poll`, and calls into the kernel for `epoll` and
`kqueue`, which keep a set there. A function that can fail returns what `errno` is left at,
and `none` for `SUCCESS`.
-/

namespace PhpWebSocket

open Lib

/-- The capacity of an array before an entry is written behind the last one. -/
def grownCapacity (count capacity : Nat) : Nat :=
  if count = capacity then (if capacity > 0 then capacity * 2 else 8) else capacity

/-! ## `poll` -/

def pollIn : UInt16 := 0x001
def pollOut : UInt16 := 0x004

/-- `struct pollfd`. -/
structure PollFd where
  fd : Nat
  events : UInt16
  revents : UInt16 := 0
  deriving Repr, DecidableEq

/-- `poll_fds`, with its capacity. -/
structure PollTable where
  fds : List PollFd := []
  capacity : Nat := 0

namespace PollTable

/-- The two functions that add an event. -/
def watch (table : PollTable) (event : UInt16) (fd : Nat) : Option Errno × PollTable :=
  match Table.index PollFd.fd table.fds fd with
  | some i =>
      let add (entry : PollFd) : PollFd := { entry with events := entry.events ||| event }
      (none, { table with fds := table.fds.modify i add })
  | none =>
      (none,
        { fds := table.fds ++ [{ fd, events := event }]
          capacity := grownCapacity table.fds.length table.capacity })

/-- `websocket_poll_watch_read`. -/
def watchRead (table : PollTable) (fd : Nat) : Option Errno × PollTable := table.watch pollIn fd

/-- `websocket_poll_watch_write`. -/
def watchWrite (table : PollTable) (fd : Nat) : Option Errno × PollTable := table.watch pollOut fd

/-- `websocket_poll_remove_fd_at`. -/
def removeFdAt (table : PollTable) (index : Nat) : PollTable :=
  { table with fds := table.fds.eraseIdx index }

/-- `websocket_poll_unwatch_write`. -/
def unwatchWrite (table : PollTable) (fd : Nat) : PollTable :=
  match Table.index PollFd.fd table.fds fd with
  | none => table
  | some i =>
      let clear (entry : PollFd) : PollFd := { entry with events := entry.events &&& ~~~pollOut }
      let cleared := { table with fds := table.fds.modify i clear }
      if (cleared.fds[i]?.map PollFd.events) = some 0 then cleared.removeFdAt i else cleared

/-- `websocket_poll_unwatch`. -/
def unwatch (table : PollTable) (fd : Nat) : PollTable :=
  match Table.index PollFd.fd table.fds fd with
  | none => table
  | some i => table.removeFdAt i

end PollTable

/-! ## `select` -/

/-- `websocket_select_fd`. -/
structure SelectFd where
  fd : Nat
  read : Bool
  write : Bool
  deriving Repr, DecidableEq

/-- `select_fds`, with its capacity. -/
structure SelectTable where
  fds : List SelectFd := []
  capacity : Nat := 0

def emfile : Errno := .other 24

namespace SelectTable

variable (fdSetSize : Nat)

/-- `websocket_select_ensure_fd`: the index of the entry. -/
def ensureFd (table : SelectTable) (fd : Nat) : Option (Nat × SelectTable) :=
  if fd ≥ fdSetSize then none
  else
    match Table.index SelectFd.fd table.fds fd with
    | some i => some (i, table)
    | none =>
        some (table.fds.length,
          { fds := table.fds ++ [⟨fd, false, false⟩]
            capacity := grownCapacity table.fds.length table.capacity })

/-- The two functions that set a flag. -/
def watch (table : SelectTable) (flag : SelectFd → SelectFd) (fd : Nat) :
    Option Errno × SelectTable :=
  match table.ensureFd fdSetSize fd with
  | none => (some emfile, table)
  | some (i, table) => (none, { table with fds := table.fds.modify i flag })

/-- `websocket_select_watch_read`. -/
def watchRead (table : SelectTable) (fd : Nat) : Option Errno × SelectTable :=
  table.watch fdSetSize (fun entry => { entry with read := true }) fd

/-- `websocket_select_watch_write`. -/
def watchWrite (table : SelectTable) (fd : Nat) : Option Errno × SelectTable :=
  table.watch fdSetSize (fun entry => { entry with write := true }) fd

/-- `websocket_select_remove_fd_at`. -/
def removeFdAt (table : SelectTable) (index : Nat) : SelectTable :=
  { table with fds := table.fds.eraseIdx index }

/-- `websocket_select_unwatch_write`. -/
def unwatchWrite (table : SelectTable) (fd : Nat) : SelectTable :=
  match Table.index SelectFd.fd table.fds fd with
  | none => table
  | some i =>
      let cleared :=
        { table with fds := table.fds.modify i fun entry => { entry with write := false } }
      if (cleared.fds[i]?.map SelectFd.read) = some false then cleared.removeFdAt i else cleared

/-- `websocket_select_unwatch`. -/
def unwatch (table : SelectTable) (fd : Nat) : SelectTable :=
  match Table.index SelectFd.fd table.fds fd with
  | none => table
  | some i => table.removeFdAt i

end SelectTable

/-! ## `epoll` -/

def epollIn : UInt32 := 0x001
def epollOut : UInt32 := 0x004

def enoent : Errno := .other 2
def eexist : Errno := .other 17

/-- What the kernel keeps for an epoll descriptor. -/
abbrev EpollSet := Nat → Option UInt32

inductive EpollOp where
  | add | mod | del
  deriving Repr, DecidableEq

/-- `epoll_ctl`: one entry for each descriptor. -/
def epollCtl (set : EpollSet) (op : EpollOp) (fd : Nat) (events : UInt32) :
    Option Errno × EpollSet :=
  match op, set fd with
  | .add, none => (none, Function.update set fd (some events))
  | .add, some _ => (some eexist, set)
  | .mod, some _ => (none, Function.update set fd (some events))
  | .del, some _ => (none, Function.update set fd none)
  | .mod, none | .del, none => (some enoent, set)

/-- `epoll_fd`: nothing while it is negative. -/
abbrev Epoll := Option EpollSet

namespace Epoll

/-- `websocket_epoll_watch_read`. -/
def watchRead (epoll : Epoll) (fd : Nat) : Option Errno × Epoll :=
  match epoll with
  | none => (some .ebadf, none)
  | some set =>
      let added := epollCtl set .add fd epollIn
      match added.1 with
      | none => (none, some added.2)
      | some e =>
          if e ≠ eexist then (some e, some added.2)
          else
            let modified := epollCtl added.2 .mod fd epollIn
            (modified.1, some modified.2)

/-- `websocket_epoll_watch_write`. -/
def watchWrite (epoll : Epoll) (fd : Nat) : Option Errno × Epoll :=
  match epoll with
  | none => (some .ebadf, none)
  | some set =>
      let modified := epollCtl set .mod fd (epollIn ||| epollOut)
      match modified.1 with
      | none => (none, some modified.2)
      | some e =>
          if e ≠ enoent then (some e, some modified.2)
          else
            let added := epollCtl modified.2 .add fd (epollIn ||| epollOut)
            (added.1, some added.2)

/-- `websocket_epoll_unwatch_write`. -/
def unwatchWrite (epoll : Epoll) (fd : Nat) : Epoll :=
  epoll.map fun set => (epollCtl set .mod fd epollIn).2

/-- `websocket_epoll_unwatch`. -/
def unwatch (epoll : Epoll) (fd : Nat) : Epoll :=
  epoll.map fun set => (epollCtl set .del fd 0).2

end Epoll

/-! ## `kqueue` -/

inductive Filter where
  | read | write
  deriving Repr, DecidableEq

inductive KeventFlag where
  /-- `EV_ADD | EV_ENABLE | EV_CLEAR` -/
  | add
  | delete
  deriving Repr, DecidableEq

/-- What the kernel keeps for a kqueue, and which of the coming calls a signal interrupts:
    before the change has been made, or after it. -/
structure KqueueSet where
  entries : Nat → Filter → Bool := fun _ _ => false
  signals : List (Option Bool) := []

/-- The entry of a descriptor and a filter changes. -/
def KqueueSet.set (kqueue : KqueueSet) (fd : Nat) (filter : Filter) (present : Bool) : KqueueSet :=
  { kqueue with
    entries := Function.update kqueue.entries fd
      (Function.update (kqueue.entries fd) filter present) }

/-- What `kevent` makes of a change. -/
def KqueueSet.change (kqueue : KqueueSet) (fd : Nat) (filter : Filter) :
    KeventFlag → Option Errno × KqueueSet
  | .add => (none, kqueue.set fd filter true)
  | .delete =>
      if kqueue.entries fd filter then (none, kqueue.set fd filter false) else (some enoent, kqueue)

/-- `kevent` with one change: one entry for each descriptor and filter. -/
def kevent (kqueue : KqueueSet) (fd : Nat) (filter : Filter) (flag : KeventFlag) :
    Option Errno × KqueueSet :=
  let rest := { kqueue with signals := kqueue.signals.tail }
  match kqueue.signals with
  | some false :: _ => (some .eintr, rest)
  | some true :: _ => (some .eintr, (rest.change fd filter flag).2)
  | none :: _ | [] => rest.change fd filter flag

/-- `kqueue_fd`: nothing while it is negative. -/
abbrev Kqueue := Option KqueueSet

namespace Kqueue

/-- The loops around `kevent`, on the signals that are left. -/
def keventLoop (fd : Nat) (filter : Filter) (flag : KeventFlag) :
    List (Option Bool) → KqueueSet → Option Errno × KqueueSet
  | [], kqueue => kevent kqueue fd filter flag
  | _ :: rest, kqueue =>
      let called := kevent kqueue fd filter flag
      if called.1 = some .eintr then keventLoop fd filter flag rest called.2 else called

/-- The two functions that add a filter. -/
def watch (kqueue : Kqueue) (filter : Filter) (fd : Nat) : Option Errno × Kqueue :=
  match kqueue with
  | none => (some .ebadf, none)
  | some set =>
      let added := keventLoop fd filter .add set.signals set
      (added.1, some added.2)

/-- `websocket_kqueue_watch_read`. -/
def watchRead (kqueue : Kqueue) (fd : Nat) : Option Errno × Kqueue := kqueue.watch .read fd

/-- `websocket_kqueue_watch_write`. -/
def watchWrite (kqueue : Kqueue) (fd : Nat) : Option Errno × Kqueue := kqueue.watch .write fd

/-- `websocket_kqueue_unwatch_event`. -/
def unwatchEvent (kqueue : Kqueue) (fd : Nat) (filter : Filter) : Kqueue :=
  kqueue.map fun set => (keventLoop fd filter .delete set.signals set).2

/-- `websocket_kqueue_unwatch_write`. -/
def unwatchWrite (kqueue : Kqueue) (fd : Nat) : Kqueue := kqueue.unwatchEvent fd .write

/-- `websocket_kqueue_unwatch`. -/
def unwatch (kqueue : Kqueue) (fd : Nat) : Kqueue :=
  (kqueue.unwatchEvent fd .read).unwatchEvent fd .write

end Kqueue

/-! ## Calls -/

/-- The four drivers, side by side. -/
structure Drivers where
  poll : PollTable := {}
  select : SelectTable := {}
  epoll : Epoll := some fun _ => none
  kqueue : Kqueue := some {}

def Drivers.call (fdSetSize : Nat) (all : Drivers) : DriverCall → Drivers
  | .watchRead fd =>
      ⟨(all.poll.watchRead fd).2, (all.select.watchRead fdSetSize fd).2, (all.epoll.watchRead fd).2,
        (all.kqueue.watchRead fd).2⟩
  | .watchWrite fd =>
      ⟨(all.poll.watchWrite fd).2, (all.select.watchWrite fdSetSize fd).2,
        (all.epoll.watchWrite fd).2, (all.kqueue.watchWrite fd).2⟩
  | .unwatchWrite fd =>
      ⟨all.poll.unwatchWrite fd, all.select.unwatchWrite fd, all.epoll.unwatchWrite fd,
        all.kqueue.unwatchWrite fd⟩
  | .unwatch fd =>
      ⟨all.poll.unwatch fd, all.select.unwatch fd, all.epoll.unwatch fd, all.kqueue.unwatch fd⟩

/-- A descriptor is watched for reading before it is for writing, and anew only when it has been
    unwatched. -/
def DriverCall.Legal (fdSetSize : Nat) (d : Driver) : DriverCall → Prop
  | .watchRead fd => fd < fdSetSize ∧ d.reads fd = false
  | .watchWrite fd => d.reads fd = true
  | .unwatchWrite _ | .unwatch _ => True

def LegalCalls (fdSetSize : Nat) : Driver → List DriverCall → Prop
  | _, [] => True
  | d, c :: rest => c.Legal fdSetSize d ∧ LegalCalls fdSetSize (d.call c) rest

section

variable {fdSetSize : Nat} {d e : Driver}

theorem DriverCall.Legal.mono {c : DriverCall} (legal : c.Legal fdSetSize d) {larger : Nat}
    (le : fdSetSize ≤ larger) : c.Legal larger d := by
  cases c with
  | watchRead fd => exact ⟨Nat.lt_of_lt_of_le legal.1 le, legal.2⟩
  | watchWrite | unwatchWrite | unwatch => exact legal

theorem LegalCalls.mono {calls : List DriverCall} (legal : LegalCalls fdSetSize d calls)
    {larger : Nat} (le : fdSetSize ≤ larger) : LegalCalls larger d calls := by
  induction calls generalizing d with
  | nil => trivial
  | cons c rest ih => exact ⟨legal.1.mono le, ih legal.2⟩

theorem LegalCalls.concat {calls : List DriverCall} (legal : LegalCalls fdSetSize d calls)
    {c : DriverCall} (next : c.Legal fdSetSize (calls.foldl Driver.call d)) :
    LegalCalls fdSetSize d (calls ++ [c]) := by
  induction calls generalizing d with
  | nil => exact ⟨next, trivial⟩
  | cons first rest ih => exact ⟨legal.1, ih legal.2 next⟩

/-- The driver waits for what its calls have left, all of them legal, where it started with
    nothing to wait for. -/
def Driver.Recorded (d : Driver) : Prop :=
  ∃ fdSetSize, LegalCalls fdSetSize {} d.calls ∧ (d.calls.foldl Driver.call {}).reads = d.reads ∧
    (d.calls.foldl Driver.call {}).writes = d.writes

theorem Driver.Recorded.called (recorded : d.Recorded) {c : DriverCall} (legal : c.Legal fdSetSize d) :
    (d.called c).Recorded := by
  obtain ⟨size, calls, reads, writes⟩ := recorded
  have larger := legal.mono (Nat.le_max_right size fdSetSize)
  refine ⟨max size fdSetSize, (calls.mono (Nat.le_max_left ..)).concat ?_, ?_, ?_⟩
  · cases c with
    | watchRead | watchWrite =>
        simp only [DriverCall.Legal, reads]
        exact larger
    | unwatchWrite | unwatch => trivial
  · simp only [Driver.called, List.foldl_append, List.foldl_cons, List.foldl_nil]
    cases c <;> simp only [Driver.call, reads]
  · simp only [Driver.called, List.foldl_append, List.foldl_cons, List.foldl_nil]
    cases c <;> simp only [Driver.call, writes]

end

/-! ## The map of a driver -/

namespace Driver

/-- What a driver keeps for each descriptor that is watched, by whether it is for writing too. -/
def entry {β : Type} (keep : Bool → β) (d : Driver) (fd : Nat) : Option β :=
  if d.reads fd then some (keep (d.writes fd)) else none

/-- Nothing is watched for writing alone. -/
def Ordered (d : Driver) : Prop := ∀ fd, d.reads fd = false → d.writes fd = false

variable {β : Type} {keep : Bool → β} {d : Driver} {fd : Nat}

theorem Ordered.call {fdSetSize : Nat} (ordered : d.Ordered) {c : DriverCall}
    (legal : c.Legal fdSetSize d) : (d.call c).Ordered := by
  intro n unread
  cases c with
  | watchRead fd =>
      rw [Driver.call, Bool.or_eq_false_iff] at unread
      exact ordered n unread.1
  | watchWrite fd =>
      have other : n ≠ fd := by
        rintro rfl
        exact Bool.false_ne_true (unread.symm.trans legal)
      simp [Driver.call, other, ordered n unread]
  | unwatchWrite fd => simp [Driver.call, ordered n unread]
  | unwatch fd =>
      rw [Driver.call, Bool.and_eq_false_iff] at unread
      rcases unread with unread | same
      · simp [Driver.call, ordered n unread]
      · simp only [Driver.call, same, Bool.and_false]

theorem entry_watchRead (unwatched : d.reads fd = false) (ordered : d.Ordered) :
    (d.call (.watchRead fd)).entry keep =
      Function.update (d.entry keep) fd (some (keep false)) := by
  funext n
  rw [Function.update_apply, entry, Driver.call]
  by_cases same : n = fd
  · simp [same, ordered fd unwatched]
  · simp [same, entry]

theorem entry_watchWrite (watched : d.reads fd = true) :
    (d.call (.watchWrite fd)).entry keep = Function.update (d.entry keep) fd (some (keep true)) := by
  funext n
  rw [Function.update_apply, entry, Driver.call]
  by_cases same : n = fd
  · simp [same, watched]
  · simp [same, entry]

theorem entry_unwatchWrite (watched : d.reads fd = true) :
    (d.call (.unwatchWrite fd)).entry keep =
      Function.update (d.entry keep) fd (some (keep false)) := by
  funext n
  rw [Function.update_apply, entry, Driver.call]
  by_cases same : n = fd
  · simp [same, watched]
  · simp [same, entry]

theorem entry_unwatch : (d.call (.unwatch fd)).entry keep = Function.update (d.entry keep) fd none := by
  funext n
  rw [Function.update_apply, entry, Driver.call]
  by_cases same : n = fd
  · simp [same]
  · simp [same, entry]

theorem entry_unwatched (unwatched : d.reads fd = false) : d.entry keep fd = none := by
  rw [entry, unwatched]
  rfl

theorem any_entry_reads {p : β → Bool} (set : ∀ write, p (keep write) = true) :
    (d.entry keep fd).any p = d.reads fd := by
  unfold entry
  cases d.reads fd with
  | false => rfl
  | true => exact set _

theorem any_entry_writes (ordered : d.Ordered) {p : β → Bool}
    (set : ∀ write, p (keep write) = write) : (d.entry keep fd).any p = d.writes fd := by
  unfold entry
  cases watched : d.reads fd with
  | false => exact (ordered fd watched).symm
  | true => exact set _

theorem call_unwatched (ordered : d.Ordered) (unwatched : d.reads fd = false) :
    d.call (.unwatchWrite fd) = d ∧ d.call (.unwatch fd) = d := by
  have unwritten := ordered fd unwatched
  have reads : (fun n => d.reads n && decide (n ≠ fd)) = d.reads := by
    funext n
    by_cases same : n = fd <;> simp [same, unwatched]
  have writes : (fun n => d.writes n && decide (n ≠ fd)) = d.writes := by
    funext n
    by_cases same : n = fd <;> simp [same, unwritten]
  rw [Driver.call, Driver.call, reads, writes]
  exact ⟨rfl, rfl⟩

end Driver

/-! ## The tables -/

section

variable {α β : Type} {key : α → Nat} {value : α → β} {keep : Bool → β} {fds : List α} {d : Driver}
  {fd : Nat}

theorem index_of_watched (denotes : Table.Denotes key value fds (d.entry keep))
    (watched : d.reads fd = true) : ∃ i, Table.index key fds fd = some i := by
  apply Option.ne_none_iff_exists'.mp
  intro absent
  have none := denotes.index_eq_none.mp absent
  simp [Driver.entry, watched] at none

theorem index_of_unwatched (denotes : Table.Denotes key value fds (d.entry keep))
    (unwatched : d.reads fd = false) : Table.index key fds fd = none :=
  denotes.index_eq_none.mpr (by simp [Driver.entry, unwatched])

end

namespace PollTable

/-- The mask of an entry. -/
def mask (write : Bool) : UInt16 := if write then pollIn ||| pollOut else pollIn

/-- One entry for each descriptor that is watched, with the mask that says for what. -/
def Shows (table : PollTable) (d : Driver) : Prop :=
  Table.Denotes PollFd.fd PollFd.events table.fds (d.entry mask)

variable {table : PollTable} {d : Driver} {fd : Nat}

theorem Shows.watchRead (shows : table.Shows d) (ordered : d.Ordered)
    (unwatched : d.reads fd = false) : (table.watchRead fd).2.Shows (d.call (.watchRead fd)) := by
  rw [Shows, Driver.entry_watchRead unwatched ordered, PollTable.watchRead, watch,
    index_of_unwatched shows unwatched]
  exact Table.Denotes.append shows (shows.index_eq_none.mp (index_of_unwatched shows unwatched))

theorem Shows.watchWrite (shows : table.Shows d) (watched : d.reads fd = true) :
    (table.watchWrite fd).2.Shows (d.call (.watchWrite fd)) := by
  obtain ⟨i, here⟩ := index_of_watched shows watched
  have written : (d.entry mask fd).map (· ||| pollOut) = some (mask true) := by
    rw [Driver.entry, if_pos watched]
    cases d.writes fd <;> rfl
  rw [Shows, Driver.entry_watchWrite watched, PollTable.watchWrite, watch, here, ← written]
  let add (entry : PollFd) : PollFd := { entry with events := entry.events ||| pollOut }
  exact Table.Denotes.modify shows here (f := add) (fun _ => rfl) fun _ => rfl

theorem Shows.unwatchWrite (shows : table.Shows d) (ordered : d.Ordered) (fd : Nat) :
    (table.unwatchWrite fd).Shows (d.call (.unwatchWrite fd)) := by
  cases watched : d.reads fd with
  | false =>
      rw [(Driver.call_unwatched ordered watched).1, PollTable.unwatchWrite, index_of_unwatched shows watched]
      exact shows
  | true =>
      obtain ⟨i, here⟩ := index_of_watched shows watched
      have left : (d.entry mask fd).map (· &&& ~~~pollOut) = some (mask false) := by
        rw [Driver.entry, if_pos watched]
        cases d.writes fd <;> rfl
      let clear (entry : PollFd) : PollFd := { entry with events := entry.events &&& ~~~pollOut }
      have cleared : Table.Denotes PollFd.fd PollFd.events (table.fds.modify i clear)
          (Function.update (d.entry mask) fd (some (mask false))) :=
        left ▸ Table.Denotes.modify shows here (f := clear) (fun _ => rfl) fun _ => rfl
      have kept : (table.fds.modify i clear)[i]?.map PollFd.events ≠ some 0 := by
        rw [Table.Denotes.getElem?_modify shows here (f := clear) (g := (· &&& ~~~pollOut))
          fun _ => rfl, left]
        decide
      rw [Shows, Driver.entry_unwatchWrite watched, PollTable.unwatchWrite, here]
      dsimp only
      rw [if_neg kept]
      exact cleared

theorem Shows.unwatch (shows : table.Shows d) (ordered : d.Ordered) (fd : Nat) :
    (table.unwatch fd).Shows (d.call (.unwatch fd)) := by
  cases watched : d.reads fd with
  | false =>
      rw [(Driver.call_unwatched ordered watched).2, PollTable.unwatch, index_of_unwatched shows watched]
      exact shows
  | true =>
      obtain ⟨i, here⟩ := index_of_watched shows watched
      rw [Shows, Driver.entry_unwatch, PollTable.unwatch, here]
      exact Table.Denotes.eraseIdx shows here

end PollTable

namespace SelectTable

/-- One entry for each descriptor that is watched, with the two flags. -/
def Shows (table : SelectTable) (d : Driver) : Prop :=
  Table.Denotes SelectFd.fd (fun entry => (entry.read, entry.write)) table.fds
    (d.entry fun write => (true, write))

variable {fdSetSize : Nat} {table : SelectTable} {d : Driver} {fd : Nat}

theorem Shows.watchRead (shows : table.Shows d) (ordered : d.Ordered) (small : fd < fdSetSize)
    (unwatched : d.reads fd = false) :
    (table.watchRead fdSetSize fd).2.Shows (d.call (.watchRead fd)) := by
  have absent := index_of_unwatched shows unwatched
  let fresh : SelectFd := ⟨fd, false, false⟩
  let read (entry : SelectFd) : SelectFd := { entry with read := true }
  have added := Table.Denotes.modify
    (Table.Denotes.append shows (shows.index_eq_none.mp absent))
    (Table.index_append fresh absent) (f := read) (fun _ => rfl)
    (g := fun flags => (true, flags.2)) fun _ => rfl
  rw [Function.update_self, Function.update_idem] at added
  rw [Shows, Driver.entry_watchRead unwatched ordered, SelectTable.watchRead, SelectTable.watch,
    ensureFd, if_neg (Nat.not_le.mpr small), absent]
  exact added

theorem Shows.watchWrite (shows : table.Shows d) (small : fd < fdSetSize)
    (watched : d.reads fd = true) :
    (table.watchWrite fdSetSize fd).2.Shows (d.call (.watchWrite fd)) := by
  obtain ⟨i, here⟩ := index_of_watched shows watched
  have written : ((d.entry fun write => (true, write)) fd).map (fun flags => (flags.1, true)) =
      some (true, true) := by
    rw [Driver.entry, if_pos watched]
    rfl
  let write (entry : SelectFd) : SelectFd := { entry with write := true }
  rw [Shows, Driver.entry_watchWrite watched, SelectTable.watchWrite, SelectTable.watch,
    ensureFd, if_neg (Nat.not_le.mpr small), here, ← written]
  exact Table.Denotes.modify shows here (f := write) (fun _ => rfl) fun _ => rfl

theorem Shows.unwatchWrite (shows : table.Shows d) (ordered : d.Ordered) (fd : Nat) :
    (table.unwatchWrite fd).Shows (d.call (.unwatchWrite fd)) := by
  cases watched : d.reads fd with
  | false =>
      rw [(Driver.call_unwatched ordered watched).1, SelectTable.unwatchWrite,
        index_of_unwatched shows watched]
      exact shows
  | true =>
      obtain ⟨i, here⟩ := index_of_watched shows watched
      have left : ((d.entry fun write => (true, write)) fd).map (fun flags => (flags.1, false)) =
          some (true, false) := by
        rw [Driver.entry, if_pos watched]
        rfl
      let clear (entry : SelectFd) : SelectFd := { entry with write := false }
      have cleared : Table.Denotes SelectFd.fd (fun entry => (entry.read, entry.write))
          (table.fds.modify i clear)
          (Function.update (d.entry fun write => (true, write)) fd (some (true, false))) :=
        left ▸ Table.Denotes.modify shows here (f := clear) (fun _ => rfl) fun _ => rfl
      have kept : (table.fds.modify i clear)[i]?.map SelectFd.read ≠ some false := by
        have flags := Table.Denotes.getElem?_modify shows here (f := clear)
          (g := fun flags => (flags.1, false)) fun _ => rfl
        rw [left] at flags
        have reads := congrArg (Option.map Prod.fst) flags
        rw [Option.map_map] at reads
        intro none
        exact absurd (none.symm.trans reads) (by decide)
      rw [Shows, Driver.entry_unwatchWrite watched, SelectTable.unwatchWrite, here]
      dsimp only
      rw [if_neg kept]
      exact cleared

theorem Shows.unwatch (shows : table.Shows d) (ordered : d.Ordered) (fd : Nat) :
    (table.unwatch fd).Shows (d.call (.unwatch fd)) := by
  cases watched : d.reads fd with
  | false =>
      rw [(Driver.call_unwatched ordered watched).2, SelectTable.unwatch,
        index_of_unwatched shows watched]
      exact shows
  | true =>
      obtain ⟨i, here⟩ := index_of_watched shows watched
      rw [Shows, Driver.entry_unwatch, SelectTable.unwatch, here]
      exact Table.Denotes.eraseIdx shows here

end SelectTable

/-! ## The kernel's sets -/

namespace Epoll

def mask (write : Bool) : UInt32 := if write then epollIn ||| epollOut else epollIn

/-- The kernel keeps the descriptors that are watched, with the mask that says for what. -/
def Shows (epoll : Epoll) (d : Driver) : Prop := epoll = some (d.entry mask)

variable {epoll : Epoll} {d : Driver} {fd : Nat}

theorem Shows.watchRead (shows : epoll.Shows d) (ordered : d.Ordered)
    (unwatched : d.reads fd = false) : (epoll.watchRead fd).2.Shows (d.call (.watchRead fd)) := by
  have absent : d.entry mask fd = none := by simp [Driver.entry, unwatched]
  rw [Shows, shows, Driver.entry_watchRead unwatched ordered]
  simp [Epoll.watchRead, epollCtl, absent, mask]

theorem Shows.watchWrite (shows : epoll.Shows d) (watched : d.reads fd = true) :
    (epoll.watchWrite fd).2.Shows (d.call (.watchWrite fd)) := by
  have here : d.entry mask fd = some (mask (d.writes fd)) := by simp [Driver.entry, watched]
  rw [Shows, shows, Driver.entry_watchWrite watched]
  simp [Epoll.watchWrite, epollCtl, here, mask]

theorem Shows.unwatchWrite (shows : epoll.Shows d) (ordered : d.Ordered) (fd : Nat) :
    (epoll.unwatchWrite fd).Shows (d.call (.unwatchWrite fd)) := by
  rw [Shows, shows]
  cases watched : d.reads fd with
  | false =>
      have absent : d.entry mask fd = none := by simp [Driver.entry, watched]
      rw [(Driver.call_unwatched ordered watched).1]
      simp [Epoll.unwatchWrite, epollCtl, absent]
  | true =>
      have here : d.entry mask fd = some (mask (d.writes fd)) := by simp [Driver.entry, watched]
      rw [Driver.entry_unwatchWrite watched]
      simp [Epoll.unwatchWrite, epollCtl, here, mask]

theorem Shows.unwatch (shows : epoll.Shows d) (ordered : d.Ordered) (fd : Nat) :
    (epoll.unwatch fd).Shows (d.call (.unwatch fd)) := by
  rw [Shows, shows]
  cases watched : d.reads fd with
  | false =>
      have absent : d.entry mask fd = none := by simp [Driver.entry, watched]
      rw [(Driver.call_unwatched ordered watched).2]
      simp [Epoll.unwatch, epollCtl, absent]
  | true =>
      have here : d.entry mask fd = some (mask (d.writes fd)) := by simp [Driver.entry, watched]
      rw [Driver.entry_unwatch]
      simp [Epoll.unwatch, epollCtl, here]

end Epoll

namespace KqueueSet

variable (kqueue : KqueueSet) (fd : Nat) (filter : Filter)

theorem set_apply (present : Bool) (n : Nat) (f : Filter) :
    (kqueue.set fd filter present).entries n f =
      if n = fd ∧ f = filter then present else kqueue.entries n f := by
  unfold set
  by_cases same : n = fd
  · subst same
    simp [Function.update_apply]
  · simp [same]

/-- Whatever `kevent` says, the change has been made. -/
theorem change_entries (flag : KeventFlag) :
    (kqueue.change fd filter flag).2.entries = (kqueue.set fd filter (flag = .add)).entries := by
  cases flag with
  | add => rfl
  | delete =>
      rw [change]
      split
      · rfl
      · rename_i absent
        funext n f
        rw [set_apply]
        split
        · rename_i same
          simpa [same] using absent
        · rfl

theorem change_signals (flag : KeventFlag) :
    (kqueue.change fd filter flag).2.signals = kqueue.signals := by
  cases flag with
  | add => rfl
  | delete =>
      rw [change]
      split <;> rfl

theorem change_uninterrupted (flag : KeventFlag) :
    (kqueue.change fd filter flag).1 ≠ some .eintr := by
  cases flag with
  | add => exact nofun
  | delete =>
      rw [change]
      split
      · exact nofun
      · intro interrupted
        exact absurd (Option.some.inj interrupted) (by decide)

end KqueueSet

namespace Kqueue

/-- However often a signal interrupts it, the loop makes the change once. -/
theorem keventLoop_entries (fd : Nat) (filter : Filter) (flag : KeventFlag)
    {signals : List (Option Bool)} {kqueue : KqueueSet} (left : kqueue.signals = signals) :
    (keventLoop fd filter flag signals kqueue).2.entries =
      (kqueue.set fd filter (flag = .add)).entries := by
  induction signals generalizing kqueue with
  | nil =>
      rw [keventLoop, kevent, left]
      exact KqueueSet.change_entries _ fd filter flag
  | cons signal rest ih =>
      have tail : ({ kqueue with signals := kqueue.signals.tail } : KqueueSet).signals = rest := by
        simp [left]
      rw [keventLoop, kevent, left]
      rcases signal with _ | _ | _
      · dsimp only
        rw [if_neg (KqueueSet.change_uninterrupted _ fd filter flag), KqueueSet.change_entries]
        rfl
      · dsimp only
        rw [if_pos rfl]
        exact ih rfl
      · dsimp only
        rw [if_pos rfl, ih (KqueueSet.change_signals _ fd filter flag)]
        funext n f
        rw [KqueueSet.set_apply, KqueueSet.change_entries, KqueueSet.set_apply,
          KqueueSet.set_apply]
        split <;> rfl

/-- The kernel keeps the two filters of the descriptors that are watched. -/
def Shows (kqueue : Kqueue) (d : Driver) : Prop :=
  ∃ set, kqueue = some set ∧ ∀ fd, set.entries fd .read = d.reads fd ∧
    set.entries fd .write = d.writes fd

variable {kqueue : Kqueue} {d : Driver}

theorem Shows.watchRead (shows : kqueue.Shows d) (fd : Nat) :
    (kqueue.watchRead fd).2.Shows (d.call (.watchRead fd)) := by
  obtain ⟨set, rfl, same⟩ := shows
  refine ⟨_, rfl, ?_⟩
  intro n
  rw [keventLoop_entries fd .read .add rfl, KqueueSet.set_apply, KqueueSet.set_apply,
    (same n).1, (same n).2]
  by_cases own : n = fd <;> simp [Driver.call, own]

theorem Shows.watchWrite (shows : kqueue.Shows d) (fd : Nat) :
    (kqueue.watchWrite fd).2.Shows (d.call (.watchWrite fd)) := by
  obtain ⟨set, rfl, same⟩ := shows
  refine ⟨_, rfl, ?_⟩
  intro n
  rw [keventLoop_entries fd .write .add rfl, KqueueSet.set_apply, KqueueSet.set_apply,
    (same n).1, (same n).2]
  by_cases own : n = fd <;> simp [Driver.call, own]

theorem Shows.unwatchWrite (shows : kqueue.Shows d) (fd : Nat) :
    (kqueue.unwatchWrite fd).Shows (d.call (.unwatchWrite fd)) := by
  obtain ⟨set, rfl, same⟩ := shows
  refine ⟨_, rfl, ?_⟩
  intro n
  rw [keventLoop_entries fd .write .delete rfl, KqueueSet.set_apply, KqueueSet.set_apply,
    (same n).1, (same n).2]
  by_cases own : n = fd <;> simp [Driver.call, own]

theorem Shows.unwatch (shows : kqueue.Shows d) (fd : Nat) :
    (kqueue.unwatch fd).Shows (d.call (.unwatch fd)) := by
  obtain ⟨set, rfl, same⟩ := shows
  refine ⟨_, rfl, ?_⟩
  intro n
  rw [keventLoop_entries fd .write .delete rfl, KqueueSet.set_apply, KqueueSet.set_apply,
    keventLoop_entries fd .read .delete rfl, KqueueSet.set_apply, KqueueSet.set_apply,
    (same n).1, (same n).2]
  by_cases own : n = fd <;> simp [Driver.call, own]

end Kqueue

/-! ## The four drivers -/

/-- What a driver waits for: the descriptors whose entry has the bit, the flag or the filter. -/
def PollTable.driver (table : PollTable) : Driver where
  reads fd := table.fds.any fun entry => decide (entry.fd = fd) && entry.events &&& pollIn ≠ 0
  writes fd := table.fds.any fun entry => decide (entry.fd = fd) && entry.events &&& pollOut ≠ 0

def SelectTable.driver (table : SelectTable) : Driver where
  reads fd := table.fds.any fun entry => decide (entry.fd = fd) && entry.read
  writes fd := table.fds.any fun entry => decide (entry.fd = fd) && entry.write

def Epoll.driver (epoll : Epoll) : Driver where
  reads fd := (epoll.bind fun set => set fd).any fun events => events &&& epollIn ≠ 0
  writes fd := (epoll.bind fun set => set fd).any fun events => events &&& epollOut ≠ 0

def Kqueue.driver (kqueue : Kqueue) : Driver where
  reads fd := kqueue.any fun set => set.entries fd .read
  writes fd := kqueue.any fun set => set.entries fd .write

section

variable {d : Driver}

theorem PollTable.Shows.driver {table : PollTable} (shows : table.Shows d) (ordered : d.Ordered) :
    table.driver.reads = d.reads ∧ table.driver.writes = d.writes := by
  refine ⟨funext ?_, funext ?_⟩
  · intro fd
    exact (Table.Denotes.any_eq shows fd fun events => events &&& pollIn ≠ 0).trans
      (Driver.any_entry_reads (by decide))
  · intro fd
    exact (Table.Denotes.any_eq shows fd fun events => events &&& pollOut ≠ 0).trans
      (Driver.any_entry_writes ordered (by decide))

theorem SelectTable.Shows.driver {table : SelectTable} (shows : table.Shows d)
    (ordered : d.Ordered) : table.driver.reads = d.reads ∧ table.driver.writes = d.writes := by
  refine ⟨funext ?_, funext ?_⟩
  · intro fd
    exact (Table.Denotes.any_eq shows fd Prod.fst).trans (Driver.any_entry_reads fun _ => rfl)
  · intro fd
    exact (Table.Denotes.any_eq shows fd Prod.snd).trans
      (Driver.any_entry_writes ordered fun _ => rfl)

theorem Epoll.Shows.driver {epoll : Epoll} (shows : epoll.Shows d) (ordered : d.Ordered) :
    epoll.driver.reads = d.reads ∧ epoll.driver.writes = d.writes := by
  rw [shows]
  exact ⟨funext fun _ => Driver.any_entry_reads (by decide),
    funext fun _ => Driver.any_entry_writes ordered (by decide)⟩

theorem Kqueue.Shows.driver {kqueue : Kqueue} (shows : kqueue.Shows d) :
    kqueue.driver.reads = d.reads ∧ kqueue.driver.writes = d.writes := by
  obtain ⟨set, rfl, same⟩ := shows
  exact ⟨funext fun fd => (same fd).1, funext fun fd => (same fd).2⟩

end

/-- No table and no set of the kernel knows the descriptor. -/
structure Drivers.Forgets (all : Drivers) (fd : Nat) : Prop where
  poll : fd ∉ all.poll.fds.map PollFd.fd
  select : fd ∉ all.select.fds.map SelectFd.fd
  epoll : (all.epoll.bind fun set => set fd) = none
  kqueue : ∀ set, all.kqueue = some set → ∀ filter, set.entries fd filter = false

/-- The four drivers wait for the same, and the tables hold it once. -/
structure Drivers.Agree (all : Drivers) (d : Driver) : Prop where
  poll : all.poll.driver.reads = d.reads ∧ all.poll.driver.writes = d.writes
  select : all.select.driver.reads = d.reads ∧ all.select.driver.writes = d.writes
  epoll : all.epoll.driver.reads = d.reads ∧ all.epoll.driver.writes = d.writes
  kqueue : all.kqueue.driver.reads = d.reads ∧ all.kqueue.driver.writes = d.writes
  pollOnce : (all.poll.fds.map PollFd.fd).Nodup
  selectOnce : (all.select.fds.map SelectFd.fd).Nodup
  forgotten : ∀ fd, d.reads fd = false → all.Forgets fd

/-- Every driver shows what is watched. -/
structure Drivers.Show (fdSetSize : Nat) (all : Drivers) (d : Driver) : Prop where
  poll : all.poll.Shows d
  select : all.select.Shows d
  epoll : all.epoll.Shows d
  kqueue : all.kqueue.Shows d
  ordered : d.Ordered
  small : ∀ fd, d.reads fd = true → fd < fdSetSize

section

variable {fdSetSize : Nat} {all : Drivers} {d : Driver}

theorem Drivers.Show.call (shows : all.Show fdSetSize d) {c : DriverCall}
    (legal : c.Legal fdSetSize d) : (all.call fdSetSize c).Show fdSetSize (d.call c) := by
  have ordered := shows.ordered.call legal
  cases c with
  | watchRead fd =>
      obtain ⟨small, unwatched⟩ := legal
      refine ⟨shows.poll.watchRead shows.ordered unwatched,
        shows.select.watchRead shows.ordered small unwatched,
        shows.epoll.watchRead shows.ordered unwatched, shows.kqueue.watchRead fd, ordered, ?_⟩
      intro n watched
      rw [Driver.call, Bool.or_eq_true, decide_eq_true_eq] at watched
      exact watched.elim (shows.small n) fun same => same ▸ small
  | watchWrite fd =>
      exact ⟨shows.poll.watchWrite legal, shows.select.watchWrite (shows.small fd legal) legal,
        shows.epoll.watchWrite legal, shows.kqueue.watchWrite fd, ordered, shows.small⟩
  | unwatchWrite fd =>
      exact ⟨shows.poll.unwatchWrite shows.ordered fd, shows.select.unwatchWrite shows.ordered fd,
        shows.epoll.unwatchWrite shows.ordered fd, shows.kqueue.unwatchWrite fd, ordered,
        shows.small⟩
  | unwatch fd =>
      refine ⟨shows.poll.unwatch shows.ordered fd, shows.select.unwatch shows.ordered fd,
        shows.epoll.unwatch shows.ordered fd, shows.kqueue.unwatch fd, ordered, ?_⟩
      intro n watched
      rw [Driver.call, Bool.and_eq_true] at watched
      exact shows.small n watched.1

theorem Drivers.Show.run (shows : all.Show fdSetSize d) {calls : List DriverCall}
    (legal : LegalCalls fdSetSize d calls) :
    (calls.foldl (Drivers.call fdSetSize) all).Show fdSetSize (calls.foldl Driver.call d) := by
  induction calls generalizing all d with
  | nil => exact shows
  | cons c rest ih => exact ih (shows.call legal.1) legal.2

theorem Drivers.Show.agree (shows : all.Show fdSetSize d) : all.Agree d := by
  have ordered := shows.ordered
  refine ⟨shows.poll.driver ordered, shows.select.driver ordered, shows.epoll.driver ordered,
    shows.kqueue.driver, shows.poll.unique, shows.select.unique, ?_⟩
  intro fd unwatched
  refine ⟨?_, ?_, ?_, ?_⟩
  · rw [Table.Denotes.mem_iff shows.poll, Driver.entry_unwatched unwatched, not_not]
  · rw [Table.Denotes.mem_iff shows.select, Driver.entry_unwatched unwatched, not_not]
  · rw [shows.epoll]
    exact Driver.entry_unwatched unwatched
  · intro set here filter
    obtain ⟨kept, there, same⟩ := shows.kqueue
    cases there.symm.trans here
    cases filter with
    | read => exact (same fd).1.trans unwatched
    | write => exact (same fd).2.trans (ordered fd unwatched)

end

/-- In every order of calls on descriptors below `FD_SETSIZE` that watches each for reading
    first, the four drivers wait for the same descriptors, and after `unwatch` none of them
    knows the descriptor. -/
theorem drivers_agree (fdSetSize : Nat) (signals : List (Option Bool)) (calls : List DriverCall)
    (legal : LegalCalls fdSetSize {} calls) :
    (calls.foldl (Drivers.call fdSetSize) { kqueue := some { signals } }).Agree
        (calls.foldl Driver.call {}) ∧
      ∀ fd, calls.getLast? = some (.unwatch fd) →
        (calls.foldl (Drivers.call fdSetSize) { kqueue := some { signals } }).Forgets fd := by
  have started : ({ kqueue := some { signals } } : Drivers).Show fdSetSize {} :=
    ⟨⟨List.nodup_nil, fun _ => rfl⟩, ⟨List.nodup_nil, fun _ => rfl⟩, rfl,
      ⟨_, rfl, fun _ => ⟨rfl, rfl⟩⟩, fun _ _ => rfl, nofun⟩
  have agree := (started.run legal).agree
  refine ⟨agree, fun fd last => agree.forgotten fd ?_⟩
  obtain ⟨before, rfl⟩ := List.getLast?_eq_some_iff.mp last
  rw [List.foldl_append]
  simp [Driver.call]

theorem drivers_agree_reused :
    let calls : List DriverCall := [.watchRead 7, .watchWrite 7, .watchRead 8, .unwatchWrite 7,
      .unwatch 7, .watchRead 7, .unwatch 8]
    let all := calls.foldl (Drivers.call 1024) { kqueue := some { signals := [some true] } }
    all.Agree (calls.foldl Driver.call {}) ∧ all.Forgets 8 := by
  intro calls all
  have legal : LegalCalls 1024 {} calls := by
    simp [LegalCalls, DriverCall.Legal, Driver.call, calls]
  have agree := drivers_agree 1024 [some true] calls legal
  exact ⟨agree.1, agree.2 8 rfl⟩

end PhpWebSocket
