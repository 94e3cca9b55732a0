import PhpWebSocket.Lib.Machine
import PhpWebSocket.Lib.Vec
import PhpWebSocket.Waits

/-! # The tables of the drivers in memory

The tables of `poll` and `select` once more, as the drivers keep them: an array that grows, on
memory in which every access is checked, and for `select` two sets of bits with room for
`FD_SETSIZE` of them. What the model says of a table is what happens in memory.
-/

namespace PhpWebSocket

open Lib

/-- `sizeof(struct pollfd)` and `sizeof(websocket_select_fd)`. -/
def entrySize : UInt64 := 8

/-- Room for an entry behind the last one. -/
def ensureEntry {α : Type} (fds : Vec α) : Vec α :=
  if fds.count = fds.capacity then fds.grow entrySize else fds

/-- `poll_fds`, `poll_fd_count` and `poll_fd_capacity`. -/
abbrev PollFds := Vec PollFd

/-- `select_fds`, `select_fd_count` and `select_fd_capacity`. -/
abbrev SelectFds := Vec SelectFd

namespace PollFds

/-- The two functions that add an event. -/
def watch (fds : PollFds) (event : UInt16) (fd : Nat) : Checked (Option Errno × PollFds) := do
  let found ← fds.find fun entry => .ok (entry.fd = fd)
  match found with
  | some i =>
      let fds ← fds.modify i fun entry => { entry with events := entry.events ||| event }
      .ok (none, fds)
  | none =>
      let fds ← (ensureEntry fds).push { fd, events := event }
      .ok (none, fds)

/-- `websocket_poll_watch_read`. -/
def watchRead (fds : PollFds) (fd : Nat) : Checked (Option Errno × PollFds) := fds.watch pollIn fd

/-- `websocket_poll_watch_write`. -/
def watchWrite (fds : PollFds) (fd : Nat) : Checked (Option Errno × PollFds) := fds.watch pollOut fd

/-- `websocket_poll_unwatch_write`. -/
def unwatchWrite (fds : PollFds) (fd : Nat) : Checked PollFds := do
  let found ← fds.find fun entry => .ok (entry.fd = fd)
  match found with
  | none => .ok fds
  | some i =>
      let fds ← fds.modify i fun entry => { entry with events := entry.events &&& ~~~pollOut }
      let entry ← fds.get i
      if entry.events = 0 then fds.removeAt i else .ok fds

/-- `websocket_poll_unwatch`. -/
def unwatch (fds : PollFds) (fd : Nat) : Checked PollFds := do
  let found ← fds.find fun entry => .ok (entry.fd = fd)
  match found with
  | none => .ok fds
  | some i => fds.removeAt i

/-- `poll` on the cells that are in use, and how many of them it has found ready. -/
def poll (fds : PollFds) (condition : Nat → Condition) : Checked (Nat × PollFds) := do
  let fds ← fds.update (PollFd.answered condition)
  let ready ← fds.fold (fun ready entry => .ok (if entry.revents ≠ 0 then ready + 1 else ready)) 0
  .ok (ready, fds)

/-- `websocket_poll_wait`. -/
def wait (fds : PollFds) (answer : KernelAnswer) : Checked (Waited × PollFds) :=
  if fds.count = 0 then .ok (.error .ebadf, fds)
  else
    match answer with
    | .failed e => .ok (.error e, fds)
    | .found condition => do
        let asked ← fds.poll condition
        if asked.1 = 0 then .ok (.ok (asked.1, none), asked.2)
        else
          let found ← asked.2.find fun entry => .ok (entry.revents ≠ 0)
          match found with
          | none => .ok (.ok (asked.1, none), asked.2)
          | some i =>
              let entry ← asked.2.get i
              .ok (.ok (asked.1, some entry.fd), asked.2)

end PollFds

/-- The two sets for `select`, and the largest descriptor plus one. -/
structure FdSets where
  reads : List Bool
  writes : List Bool
  nfds : Nat

/-- `FD_ZERO` -/
def FdSets.zero (fdSetSize : Nat) : FdSets :=
  ⟨List.replicate fdSetSize false, List.replicate fdSetSize false, 0⟩

/-- `FD_SET` under a flag. -/
def fdSet (flag : Bool) (bits : List Bool) (fd : Nat) : Checked (List Bool) :=
  if flag then Checked.write bits fd [true] else .ok bits

/-- `FD_ISSET` under a flag. -/
def fdIsSet (flag : Bool) (bits : List Bool) (fd : Nat) : Checked Bool :=
  if flag then Checked.read bits fd else .ok false

/-- An entry's part in the two sets and in `max_fd`. -/
def FdSets.add (sets : FdSets) (entry : SelectFd) : Checked FdSets := do
  let reads ← fdSet entry.read sets.reads entry.fd
  let writes ← fdSet entry.write sets.writes entry.fd
  .ok { reads, writes, nfds := max sets.nfds (entry.fd + 1) }

/-- The set for writing is looked at behind the one for reading. -/
def FdSets.has (sets : FdSets) (entry : SelectFd) : Checked Bool := do
  let read ← fdIsSet entry.read sets.reads entry.fd
  if read then .ok true else fdIsSet entry.write sets.writes entry.fd

/-- `select` on the two sets. -/
def FdSets.select (sets : FdSets) (answer : KernelAnswer) : Except Errno (Nat × FdSets) :=
  match PhpWebSocket.select sets.nfds (sets.reads.getD · false) (sets.writes.getD · false) answer with
  | .error e => .error e
  | .ok (ready, reads, writes) =>
      .ok (ready, { sets with
        reads := (List.range sets.reads.length).map reads
        writes := (List.range sets.writes.length).map writes })

namespace SelectFds

variable (fdSetSize : Nat)

/-- `websocket_select_ensure_fd`: the index of the entry. -/
def ensureFd (fds : SelectFds) (fd : Nat) : Checked (Option (UInt64 × SelectFds)) :=
  if fd ≥ fdSetSize then .ok none
  else do
    let found ← fds.find fun entry => .ok (entry.fd = fd)
    match found with
    | some i => .ok (some (i, fds))
    | none =>
        let fds' ← (ensureEntry fds).push ⟨fd, false, false⟩
        .ok (some (fds.count, fds'))

/-- `websocket_select_watch_read` and `websocket_select_watch_write`, but for the flag. -/
def watch (flag : SelectFd → SelectFd) (fds : SelectFds) (fd : Nat) :
    Checked (Option Errno × SelectFds) := do
  let ensured ← fds.ensureFd fdSetSize fd
  match ensured with
  | none => .ok (some emfile, fds)
  | some (i, fds) =>
      let fds ← fds.modify i flag
      .ok (none, fds)

/-- `websocket_select_watch_read`. -/
def watchRead (fds : SelectFds) (fd : Nat) : Checked (Option Errno × SelectFds) :=
  watch fdSetSize (fun entry => { entry with read := true }) fds fd

/-- `websocket_select_watch_write`. -/
def watchWrite (fds : SelectFds) (fd : Nat) : Checked (Option Errno × SelectFds) :=
  watch fdSetSize (fun entry => { entry with write := true }) fds fd

/-- `websocket_select_unwatch_write`. -/
def unwatchWrite (fds : SelectFds) (fd : Nat) : Checked SelectFds := do
  let found ← fds.find fun entry => .ok (entry.fd = fd)
  match found with
  | none => .ok fds
  | some i =>
      let fds ← fds.modify i fun entry => { entry with write := false }
      let entry ← fds.get i
      if !entry.read then fds.removeAt i else .ok fds

/-- `websocket_select_unwatch`. -/
def unwatch (fds : SelectFds) (fd : Nat) : Checked SelectFds := do
  let found ← fds.find fun entry => .ok (entry.fd = fd)
  match found with
  | none => .ok fds
  | some i => fds.removeAt i

/-- `websocket_select_wait`. -/
def wait (fds : SelectFds) (answer : KernelAnswer) : Checked Waited :=
  if fds.count = 0 then .ok (.error .ebadf)
  else do
    let sets ← fds.fold FdSets.add (FdSets.zero fdSetSize)
    match sets.select answer with
    | .error e => .ok (.error e)
    | .ok (ready, sets) =>
        if ready = 0 then .ok (.ok (ready, none))
        else do
          let found ← fds.find sets.has
          match found with
          | none => .ok (.ok (ready, none))
          | some i =>
              let entry ← fds.get i
              .ok (.ok (ready, some entry.fd))

end SelectFds

/-! ## What an array stands for -/

/-- The array holds the entries, one for each descriptor, and a descriptor is an `int`. -/
structure Backs {α : Type} (key : α → Nat) (fds : Vec α) (entries : List α) (capacity : Nat) :
    Prop where
  array : fds.Holds entries
  capacity : fds.capacity.toNat = capacity
  unique : Table.Unique key entries
  small : ∀ entry ∈ entries, key entry < 2 ^ 31

namespace Backs

variable {α : Type} {key : α → Nat} {fds : Vec α} {entries : List α} {capacity fd : Nat}
  {i : UInt64}

theorem few (backs : Backs key fds entries capacity) : entries.length ≤ 2 ^ 31 := by
  have inside : entries.map key ⊆ List.range (2 ^ 31) := by
    intro fd listed
    obtain ⟨entry, mem, rfl⟩ := List.mem_map.mp listed
    exact List.mem_range.mpr (backs.small entry mem)
  have fewer := (List.subperm_of_subset backs.unique inside).length_le
  rwa [List.length_map, List.length_range] at fewer

theorem empty : Backs key ({} : Vec α) [] 0 :=
  ⟨Vec.holds_empty, rfl, List.nodup_nil, by simp⟩

theorem find (backs : Backs key fds entries capacity) (fd : Nat) :
    ∃ found, fds.find (fun entry => .ok (decide (key entry = fd))) = .ok found ∧
      found.map UInt64.toNat = Table.index key entries fd :=
  backs.array.find fun _ _ => rfl

theorem inside (here : Table.index key entries fd = some i.toNat) : i.toNat < entries.length :=
  (List.findIdx?_eq_some_iff_getElem.mp here).1

theorem modify (backs : Backs key fds entries capacity) (inside : i.toNat < entries.length)
    {f : α → α} (same : ∀ entry, key (f entry) = key entry) :
    ∃ fds', fds.modify i f = .ok fds' ∧ Backs key fds' (entries.modify i.toNat f) capacity := by
  obtain ⟨fds', changed, capacity', holds⟩ := backs.array.modify inside f
  refine ⟨fds', changed, holds, capacity' ▸ backs.capacity, backs.unique.modify same _, ?_⟩
  intro entry mem
  have listed := List.mem_map_of_mem (f := key) mem
  rw [Table.map_modify same] at listed
  obtain ⟨old, mem, own⟩ := List.mem_map.mp listed
  exact own ▸ backs.small old mem

theorem removeAt (backs : Backs key fds entries capacity) (inside : i.toNat < entries.length) :
    ∃ fds', fds.removeAt i = .ok fds' ∧ Backs key fds' (entries.eraseIdx i.toNat) capacity := by
  obtain ⟨fds', removed, capacity', holds⟩ := backs.array.removeAt inside
  refine ⟨fds', removed, holds, capacity' ▸ backs.capacity, backs.unique.eraseIdx _, ?_⟩
  intro entry mem
  exact backs.small entry (List.mem_of_mem_eraseIdx mem)

/-- There is always room for one more: a table of all descriptors is far from the largest block. -/
theorem add (backs : Backs key fds entries capacity) (entry : α) (small : key entry < 2 ^ 31)
    (fresh : Table.index key entries (key entry) = none) :
    ∃ fds', (ensureEntry fds).push entry = .ok fds' ∧
      Backs key fds' (entries ++ [entry]) (grownCapacity entries.length capacity) := by
  have few := backs.few
  have count := backs.array.count
  have roomy : (ensureEntry fds).Holds entries ∧ (ensureEntry fds).count < (ensureEntry fds).capacity ∧
      (ensureEntry fds).capacity.toNat = grownCapacity entries.length capacity := by
    unfold ensureEntry
    by_cases full : fds.count = fds.capacity
    · have all : entries.length = capacity := by rw [← count, full, backs.capacity]
      rw [if_pos full, grownCapacity, if_pos all, ← all]
      apply backs.array.grow (by decide) full
      rw [show entrySize.toNat = 8 from rfl]
      omega
    · have less : fds.count.toNat ≠ fds.capacity.toNat := fun same => full (UInt64.toNat.inj same)
      rw [if_neg full, grownCapacity, if_neg (by rwa [← count, ← backs.capacity])]
      refine ⟨backs.array, ?_, backs.capacity⟩
      rw [UInt64.lt_iff_toNat_lt]
      have room := backs.array.room
      have cells := backs.array.capacity
      omega
  obtain ⟨holds, room, grown⟩ := roomy
  obtain ⟨fds', pushed, capacity', holds'⟩ := holds.push room entry
  refine ⟨fds', pushed, holds', capacity' ▸ grown, backs.unique.append fresh, ?_⟩
  intro other mem
  rcases List.mem_append.mp mem with old | new
  · exact backs.small other old
  · rw [List.mem_singleton.mp new]
    exact small

end Backs

/-! ## The drivers with memory and without -/

/-- The outcome of a call that may be refused, and of one that may not. -/
def calls {α : Type} (called : Checked (Option Errno × α)) : Checked (UseResult × α) := do
  let done ← called
  .ok (.called done.1, done.2)

def performs {α : Type} (performed : Checked α) : Checked (UseResult × α) := do
  let fds ← performed
  .ok (.called none, fds)

def PollFds.use (fds : PollFds) : DriverUse → Checked (UseResult × PollFds)
  | .call (.watchRead fd) => calls (fds.watchRead fd)
  | .call (.watchWrite fd) => calls (fds.watchWrite fd)
  | .call (.unwatchWrite fd) => performs (fds.unwatchWrite fd)
  | .call (.unwatch fd) => performs (fds.unwatch fd)
  | .wait answer => do
      let done ← fds.wait answer
      .ok (.waited done.1, done.2)

def SelectFds.use (fdSetSize : Nat) (fds : SelectFds) : DriverUse → Checked (UseResult × SelectFds)
  | .call (.watchRead fd) => calls (fds.watchRead fdSetSize fd)
  | .call (.watchWrite fd) => calls (fds.watchWrite fdSetSize fd)
  | .call (.unwatchWrite fd) => performs (fds.unwatchWrite fd)
  | .call (.unwatch fd) => performs (fds.unwatch fd)
  | .wait answer => do
      let waited ← fds.wait fdSetSize answer
      .ok (.waited waited, fds)

/-- The descriptor of a use is an `int`. -/
def DriverUse.Small : DriverUse → Prop
  | .call (.watchRead fd) | .call (.watchWrite fd) => fd < 2 ^ 31
  | _ => True

/-- The array is the table. -/
def PollFds.Shows (fds : PollFds) (table : PollTable) : Prop :=
  Backs PollFd.fd fds table.fds table.capacity

/-- The array is the table, whose descriptors have a bit in the sets. -/
structure SelectFds.Shows (fdSetSize : Nat) (fds : SelectFds) (table : SelectTable) : Prop where
  backs : Backs SelectFd.fd fds table.fds table.capacity
  bits : ∀ entry ∈ table.fds, entry.fd < fdSetSize

namespace PollFds

variable {fds : PollFds} {table : PollTable} {fd : Nat}

theorem Shows.watch (shows : fds.Shows table) (event : UInt16) (small : fd < 2 ^ 31) :
    ∃ fds', fds.watch event fd = .ok ((table.watch event fd).1, fds') ∧
      PollFds.Shows fds' (table.watch event fd).2 := by
  obtain ⟨found, scan, same⟩ := Backs.find shows fd
  rw [PollFds.watch, scan, PollTable.watch, ← same]
  cases found with
  | none =>
      obtain ⟨fds', pushed, backs⟩ := Backs.add shows { fd, events := event } small same.symm
      refine ⟨fds', ?_, backs⟩
      simp [pushed]
  | some i =>
      let add (entry : PollFd) : PollFd := { entry with events := entry.events ||| event }
      obtain ⟨fds', changed, backs⟩ := Backs.modify shows (Backs.inside same.symm) (f := add) fun _ => rfl
      refine ⟨fds', ?_, backs⟩
      simp only [add] at changed
      simp [changed]

theorem Shows.unwatchWrite (shows : fds.Shows table) (fd : Nat) :
    ∃ fds', fds.unwatchWrite fd = .ok fds' ∧ PollFds.Shows fds' (table.unwatchWrite fd) := by
  obtain ⟨found, scan, same⟩ := Backs.find shows fd
  rw [PollFds.unwatchWrite, scan, PollTable.unwatchWrite, ← same]
  cases found with
  | none => exact ⟨fds, rfl, shows⟩
  | some i =>
      have inside := Backs.inside same.symm
      let clear (entry : PollFd) : PollFd := { entry with events := entry.events &&& ~~~pollOut }
      obtain ⟨fds', changed, backs⟩ := Backs.modify shows inside (f := clear) fun _ => rfl
      have still : i.toNat < (table.fds.modify i.toNat clear).length := by
        rwa [List.length_modify]
      have entry := backs.array.get still
      obtain ⟨fds'', removed, less⟩ := backs.removeAt still
      have kept : (table.fds.modify i.toNat clear)[i.toNat]? = some (table.fds.modify i.toNat clear)[i.toNat] :=
        List.getElem?_eq_getElem still
      simp only [clear] at changed entry kept
      simp only [Option.map_some, Checked.ok_bind, changed, entry, kept, Option.some_inj]
      split
      · exact ⟨fds'', removed, less⟩
      · exact ⟨fds', rfl, backs⟩

theorem Shows.unwatch (shows : fds.Shows table) (fd : Nat) :
    ∃ fds', fds.unwatch fd = .ok fds' ∧ PollFds.Shows fds' (table.unwatch fd) := by
  obtain ⟨found, scan, same⟩ := Backs.find shows fd
  rw [PollFds.unwatch, scan, PollTable.unwatch, ← same]
  cases found with
  | none => exact ⟨fds, rfl, shows⟩
  | some i => exact Backs.removeAt shows (Backs.inside same.symm)

theorem count_fold {α : Type} (p : α → Bool) (xs : List α) (n : Nat) :
    xs.foldlM (fun n x => (.ok (if p x then n + 1 else n) : Checked Nat)) n =
      .ok (n + xs.countP p) := by
  induction xs generalizing n with
  | nil => rfl
  | cons x xs ih =>
      rw [List.foldlM_cons, Checked.ok_bind, ih, List.countP_cons]
      split
      · rw [Nat.add_right_comm, Nat.add_assoc]
      · rfl

theorem Shows.wait (shows : fds.Shows table) (answer : KernelAnswer) :
    ∃ fds', fds.wait answer = .ok ((table.wait answer).1, fds') ∧
      PollFds.Shows fds' (table.wait answer).2 := by
  have count : fds.count = 0 ↔ table.fds.length = 0 := by
    rw [← shows.array.count]
    exact ⟨fun none => by rw [none]; rfl, fun none => UInt64.toNat.inj none⟩
  unfold PollFds.wait PollTable.wait
  simp only [count]
  split
  · exact ⟨fds, rfl, shows⟩
  · cases answer with
    | failed e => exact ⟨fds, rfl, shows⟩
    | found condition =>
        obtain ⟨fds', updated, capacity, holds⟩ := shows.array.update (PollFd.answered condition)
        have backs : PollFds.Shows fds'
            { table with fds := table.fds.map (PollFd.answered condition) } := by
          refine ⟨holds, capacity ▸ shows.capacity, ?_, ?_⟩
          · exact shows.unique.map fun _ => rfl
          · intro entry listed
            obtain ⟨old, mem, rfl⟩ := List.mem_map.mp listed
            exact shows.small old mem
        have counted := count_fold (fun entry : PollFd => decide (entry.revents ≠ 0))
          (table.fds.map (PollFd.answered condition)) 0
        simp only [decide_eq_true_eq, Nat.zero_add] at counted
        have polled : fds.poll condition = .ok ((table.fds.map (PollFd.answered condition)).countP
            fun entry => entry.revents ≠ 0, fds') := by
          simp only [PollFds.poll, updated, Checked.ok_bind, holds.fold, counted]
        have scan := holds.find_get (p := fun entry => .ok (decide (entry.revents ≠ 0)))
          fun _ _ => rfl
        refine ⟨fds', ?_, backs⟩
        simp only [polled, Checked.ok_bind, PhpWebSocket.poll]
        split
        · rfl
        · rcases scan with ⟨missed, none⟩ | ⟨i, entry, hit, here, first⟩
          · simp only [missed, Checked.ok_bind]
            rw [none]
            rfl
          · simp only [hit, here, Checked.ok_bind]
            rw [first]
            rfl

end PollFds

namespace FdSets

variable {fdSetSize : Nat} {sets : FdSets} {entry : SelectFd} {fds : List SelectFd}

/-- What has been put into the two sets. -/
structure Filled (fdSetSize : Nat) (fds : List SelectFd) (sets : FdSets) : Prop where
  sizes : sets.reads.length = fdSetSize ∧ sets.writes.length = fdSetSize
  reads : ∀ fd, sets.reads.getD fd false = fds.any fun entry => decide (entry.fd = fd) && entry.read
  writes : ∀ fd, sets.writes.getD fd false = fds.any fun entry => decide (entry.fd = fd) && entry.write
  nfds : sets.nfds = fds.foldl (fun nfds entry => max nfds (entry.fd + 1)) 0

theorem Filled.zero : Filled fdSetSize [] (zero fdSetSize) := by
  have none (fd : Nat) : (List.replicate fdSetSize false).getD fd false = false := by
    grind
  exact ⟨⟨List.length_replicate, List.length_replicate⟩, none, none, rfl⟩

theorem fdSet_ok {bits : List Bool} {fd : Nat} (inside : fd < bits.length) (flag : Bool) :
    ∃ bits', fdSet flag bits fd = .ok bits' ∧ bits'.length = bits.length ∧
      ∀ n, bits'.getD n false = (bits.getD n false || (decide (fd = n) && flag)) := by
  cases flag with
  | false => exact ⟨bits, rfl, rfl, fun n => by simp⟩
  | true =>
      refine ⟨bits.set fd true, ?_, List.length_set, ?_⟩
      · have written : fdSet true bits fd = .ok (bits.take fd ++ [true] ++ bits.drop (fd + 1)) :=
          Checked.write_ok inside
        rw [written, List.append_assoc, List.singleton_append, List.set_eq_take_append_cons_drop,
          if_pos inside]
      · intro n
        by_cases own : fd = n <;> grind

theorem Filled.add (filled : Filled fdSetSize fds sets) (inside : entry.fd < fdSetSize) :
    ∃ sets', sets.add entry = .ok sets' ∧ Filled fdSetSize (fds ++ [entry]) sets' := by
  obtain ⟨readSize, writeSize⟩ := filled.sizes
  obtain ⟨reads, readSet, readSize', readBits⟩ := fdSet_ok (readSize.symm ▸ inside) entry.read
  obtain ⟨writes, writeSet, writeSize', writeBits⟩ := fdSet_ok (writeSize.symm ▸ inside) entry.write
  refine ⟨{ reads, writes, nfds := max sets.nfds (entry.fd + 1) }, ?_, ?_⟩
  · rw [FdSets.add, readSet, Checked.ok_bind, writeSet, Checked.ok_bind]
  · refine ⟨⟨readSize'.trans readSize, writeSize'.trans writeSize⟩, ?_, ?_, ?_⟩
    · intro fd
      rw [readBits, filled.reads, List.any_append]
      simp
    · intro fd
      rw [writeBits, filled.writes, List.any_append]
      simp
    · rw [filled.nfds, List.foldl_append]
      rfl

theorem Filled.fold (filled : Filled fdSetSize fds sets) (more : List SelectFd)
    (inside : ∀ entry ∈ more, entry.fd < fdSetSize) :
    ∃ sets', more.foldlM FdSets.add sets = .ok sets' ∧ Filled fdSetSize (fds ++ more) sets' := by
  induction more generalizing fds sets with
  | nil => exact ⟨sets, rfl, by rwa [List.append_nil]⟩
  | cons entry more ih =>
      obtain ⟨sets', added, filled'⟩ := filled.add (inside entry List.mem_cons_self)
      obtain ⟨last, rest, full⟩ := ih filled' fun later mem => inside later (List.mem_cons_of_mem _ mem)
      refine ⟨last, ?_, ?_⟩
      · rw [List.foldlM_cons, added, Checked.ok_bind, rest]
      · rwa [List.append_assoc] at full

theorem has_ok (inside : entry.fd < fdSetSize) (reads writes : FdSet) (nfds : Nat) :
    FdSets.has ⟨(List.range fdSetSize).map reads, (List.range fdSetSize).map writes, nfds⟩ entry =
      .ok ((entry.read && reads entry.fd) || (entry.write && writes entry.fd)) := by
  have bit (set : FdSet) : Checked.read ((List.range fdSetSize).map set) entry.fd = .ok (set entry.fd) := by
    simp [Checked.read, inside]
  rw [FdSets.has, fdIsSet, fdIsSet, bit, bit]
  cases entry.read <;> cases entry.write <;> cases reads entry.fd <;> simp

end FdSets

namespace SelectFds

variable {fdSetSize : Nat} {fds : SelectFds} {table : SelectTable} {fd : Nat}

theorem Shows.ensureFd (shows : fds.Shows fdSetSize table) (small : fd < 2 ^ 31) :
    (fds.ensureFd fdSetSize fd = .ok none ∧ table.ensureFd fdSetSize fd = none) ∨
    ∃ i fds' table', fds.ensureFd fdSetSize fd = .ok (some (i, fds')) ∧
      table.ensureFd fdSetSize fd = some (i.toNat, table') ∧
      SelectFds.Shows fdSetSize fds' table' ∧ i.toNat < table'.fds.length := by
  unfold SelectFds.ensureFd SelectTable.ensureFd
  split
  · exact .inl ⟨rfl, rfl⟩
  · rename_i room
    obtain ⟨found, scan, same⟩ := shows.backs.find fd
    rw [scan, ← same, Checked.ok_bind]
    cases found with
    | some i => exact .inr ⟨i, fds, table, rfl, rfl, shows, Backs.inside same.symm⟩
    | none =>
        obtain ⟨fds', pushed, backs⟩ := shows.backs.add ⟨fd, false, false⟩ small same.symm
        let table' : SelectTable :=
          ⟨table.fds ++ [⟨fd, false, false⟩], grownCapacity table.fds.length table.capacity⟩
        refine .inr ⟨fds.count, fds', table', ?_, ?_, ⟨backs, ?_⟩, ?_⟩
        · simp only [pushed, Checked.ok_bind]
        · rw [shows.backs.array.count]
          rfl
        · intro entry mem
          rcases List.mem_append.mp mem with old | new
          · exact shows.bits entry old
          · rw [List.mem_singleton.mp new]
            exact Nat.lt_of_not_le room
        · rw [shows.backs.array.count, List.length_append]
          exact Nat.lt_succ_self _

theorem Shows.modify (shows : fds.Shows fdSetSize table) {i : UInt64}
    (inside : i.toNat < table.fds.length) {f : SelectFd → SelectFd}
    (same : ∀ entry, (f entry).fd = entry.fd) :
    ∃ fds', fds.modify i f = .ok fds' ∧
      SelectFds.Shows fdSetSize fds' { table with fds := table.fds.modify i.toNat f } := by
  obtain ⟨fds', changed, backs⟩ := shows.backs.modify inside same
  refine ⟨fds', changed, backs, ?_⟩
  intro entry mem
  have listed := List.mem_map_of_mem (f := SelectFd.fd) mem
  rw [Table.map_modify same] at listed
  obtain ⟨old, mem, own⟩ := List.mem_map.mp listed
  exact own ▸ shows.bits old mem

theorem Shows.removeAt (shows : fds.Shows fdSetSize table) {i : UInt64}
    (inside : i.toNat < table.fds.length) :
    ∃ fds', fds.removeAt i = .ok fds' ∧ SelectFds.Shows fdSetSize fds' (table.removeFdAt i.toNat) := by
  obtain ⟨fds', removed, backs⟩ := shows.backs.removeAt inside
  exact ⟨fds', removed, backs, fun entry mem => shows.bits entry (List.mem_of_mem_eraseIdx mem)⟩

theorem Shows.watch (shows : fds.Shows fdSetSize table) (small : fd < 2 ^ 31)
    {flag : SelectFd → SelectFd} (same : ∀ entry, (flag entry).fd = entry.fd) :
    ∃ fds', SelectFds.watch fdSetSize flag fds fd = .ok ((table.watch fdSetSize flag fd).1, fds') ∧
      SelectFds.Shows fdSetSize fds' (table.watch fdSetSize flag fd).2 := by
  unfold SelectFds.watch SelectTable.watch
  rcases shows.ensureFd small with ⟨refused, none⟩ | ⟨i, fds', table', ensured, there, shows', inside⟩
  · rw [refused, none]
    exact ⟨fds, rfl, shows⟩
  · obtain ⟨fds'', changed, shows''⟩ := shows'.modify inside same
    rw [ensured, there]
    exact ⟨fds'', by simp only [Checked.ok_bind, changed], shows''⟩

theorem Shows.unwatchWrite (shows : fds.Shows fdSetSize table) (fd : Nat) :
    ∃ fds', fds.unwatchWrite fd = .ok fds' ∧
      SelectFds.Shows fdSetSize fds' (table.unwatchWrite fd) := by
  obtain ⟨found, scan, same⟩ := shows.backs.find fd
  rw [SelectFds.unwatchWrite, scan, SelectTable.unwatchWrite, ← same]
  cases found with
  | none => exact ⟨fds, rfl, shows⟩
  | some i =>
      let clear (entry : SelectFd) : SelectFd := { entry with write := false }
      obtain ⟨fds', changed, shows'⟩ := shows.modify (Backs.inside same.symm) (f := clear) fun _ => rfl
      have still : i.toNat < (table.fds.modify i.toNat clear).length := by
        rw [List.length_modify]
        exact Backs.inside same.symm
      have entry := shows'.backs.array.get still
      obtain ⟨fds'', removed, less⟩ := shows'.removeAt still
      have kept := List.getElem?_eq_getElem still
      simp only [clear] at changed entry kept
      simp only [Option.map_some, Checked.ok_bind, changed, entry, kept, Option.some_inj,
        Bool.not_eq_true']
      split
      · exact ⟨fds'', removed, less⟩
      · exact ⟨fds', rfl, shows'⟩

theorem Shows.unwatch (shows : fds.Shows fdSetSize table) (fd : Nat) :
    ∃ fds', fds.unwatch fd = .ok fds' ∧ SelectFds.Shows fdSetSize fds' (table.unwatch fd) := by
  obtain ⟨found, scan, same⟩ := shows.backs.find fd
  rw [SelectFds.unwatch, scan, SelectTable.unwatch, ← same]
  cases found with
  | none => exact ⟨fds, rfl, shows⟩
  | some i => exact shows.removeAt (Backs.inside same.symm)

theorem Shows.wait (shows : fds.Shows fdSetSize table) (answer : KernelAnswer) :
    fds.wait fdSetSize answer = .ok (table.wait answer) := by
  have count : fds.count = 0 ↔ table.fds.length = 0 := by
    rw [← shows.backs.array.count]
    exact ⟨fun none => by rw [none]; rfl, fun none => UInt64.toNat.inj none⟩
  obtain ⟨sets, folded, filled⟩ := FdSets.Filled.zero.fold table.fds shows.bits
  rw [List.nil_append] at filled
  have reads : (sets.reads.getD · false) = table.driver.reads := funext filled.reads
  have writes : (sets.writes.getD · false) = table.driver.writes := funext filled.writes
  unfold SelectFds.wait SelectTable.wait
  simp only [count, shows.backs.array.fold, folded, Checked.ok_bind, FdSets.select, reads, writes,
    show sets.nfds = table.nfds from filled.nfds, filled.sizes]
  split
  · rfl
  · cases PhpWebSocket.select table.nfds table.driver.reads table.driver.writes answer with
    | error e => rfl
    | ok selected =>
        obtain ⟨ready, reads, writes⟩ := selected
        have scan := shows.backs.array.find_get fun entry mem =>
          FdSets.has_ok (shows.bits entry mem) reads writes table.nfds
        dsimp only
        split
        · rfl
        · rcases scan with ⟨missed, none⟩ | ⟨i, entry, hit, here, first⟩
          · rw [missed, none]
            rfl
          · rw [hit, first, Checked.ok_bind]
            simp only [here, Checked.ok_bind]
            rfl

end SelectFds

/-! ## Every order of uses -/

theorem PollFds.refines : Refines PollFds.Shows (fun _ => DriverUse.Small) PollFds.use PollTable.use := by
  intro fds table u shows small
  cases u with
  | wait answer =>
      obtain ⟨fds', waited, shows'⟩ := shows.wait answer
      exact ⟨fds', by rw [PollFds.use, waited, Checked.ok_bind]; rfl, shows'⟩
  | call c =>
      cases c with
      | watchRead fd =>
          obtain ⟨fds', watched, shows'⟩ := shows.watch pollIn small
          exact ⟨fds', by rw [PollFds.use, PollFds.watchRead, watched]; rfl, shows'⟩
      | watchWrite fd =>
          obtain ⟨fds', watched, shows'⟩ := shows.watch pollOut small
          exact ⟨fds', by rw [PollFds.use, PollFds.watchWrite, watched]; rfl, shows'⟩
      | unwatchWrite fd =>
          obtain ⟨fds', unwatched, shows'⟩ := shows.unwatchWrite fd
          exact ⟨fds', by rw [PollFds.use, unwatched]; rfl, shows'⟩
      | unwatch fd =>
          obtain ⟨fds', unwatched, shows'⟩ := shows.unwatch fd
          exact ⟨fds', by rw [PollFds.use, unwatched]; rfl, shows'⟩

theorem SelectFds.refines (fdSetSize : Nat) :
    Refines (SelectFds.Shows fdSetSize) (fun _ => DriverUse.Small) (SelectFds.use fdSetSize)
      (SelectTable.use fdSetSize) := by
  intro fds table u shows small
  cases u with
  | wait answer =>
      exact ⟨fds, by rw [SelectFds.use, shows.wait answer, Checked.ok_bind]; rfl, shows⟩
  | call c =>
      cases c with
      | watchRead fd =>
          let read (entry : SelectFd) : SelectFd := { entry with read := true }
          have keys (entry : SelectFd) : (read entry).fd = entry.fd := rfl
          obtain ⟨fds', watched, shows'⟩ := shows.watch small keys
          exact ⟨fds', by rw [SelectFds.use, SelectFds.watchRead, watched]; rfl, shows'⟩
      | watchWrite fd =>
          let write (entry : SelectFd) : SelectFd := { entry with write := true }
          have keys (entry : SelectFd) : (write entry).fd = entry.fd := rfl
          obtain ⟨fds', watched, shows'⟩ := shows.watch small keys
          exact ⟨fds', by rw [SelectFds.use, SelectFds.watchWrite, watched]; rfl, shows'⟩
      | unwatchWrite fd =>
          obtain ⟨fds', unwatched, shows'⟩ := shows.unwatchWrite fd
          exact ⟨fds', by rw [SelectFds.use, unwatched]; rfl, shows'⟩
      | unwatch fd =>
          obtain ⟨fds', unwatched, shows'⟩ := shows.unwatch fd
          exact ⟨fds', by rw [SelectFds.use, unwatched]; rfl, shows'⟩

/-- For every order of calls and waits on descriptors that are an `int`, whatever the kernel
    answers: both drivers stay inside their memory, read no cell that has not been written, ask for
    no block whose size overflows, set no bit outside of a set, and give the answers of the plain
    tables; the arrays end up holding these tables. -/
theorem driver_tables_inside (fdSetSize : Nat) (uses : List DriverUse)
    (small : ∀ u ∈ uses, u.Small) :
    (∃ fds, checkedAnswers PollFds.use {} uses = .ok ((answers PollTable.use {} uses).1, fds) ∧
      fds.Shows (answers PollTable.use {} uses).2) ∧
    ∃ fds, checkedAnswers (SelectFds.use fdSetSize) {} uses =
        .ok ((answers (SelectTable.use fdSetSize) {} uses).1, fds) ∧
      fds.Shows fdSetSize (answers (SelectTable.use fdSetSize) {} uses).2 := by
  constructor
  · exact PollFds.refines.run Backs.empty (Admitted.of_forall small)
  · exact (SelectFds.refines fdSetSize).run ⟨Backs.empty, by simp⟩ (Admitted.of_forall small)

theorem driver_tables_inside_reused :
    let uses : List DriverUse := [.call (.watchRead 7), .call (.watchRead 2000), .call (.watchWrite 7),
      .wait (.found fun _ => { hangup := true }), .call (.unwatch 7), .call (.watchRead 7)]
    (∃ fds, checkedAnswers PollFds.use {} uses = .ok ((answers PollTable.use {} uses).1, fds) ∧
      fds.count.toNat = 2) ∧
    ∃ fds, checkedAnswers (SelectFds.use 1024) {} uses =
        .ok ((answers (SelectTable.use 1024) {} uses).1, fds) ∧ fds.count.toNat = 1 := by
  intro uses
  obtain ⟨⟨poll, ran, shows⟩, select, ran', shows'⟩ := driver_tables_inside 1024 uses (by
    simp [uses, DriverUse.Small])
  exact ⟨⟨poll, ran, shows.array.count⟩, select, ran', shows'.backs.array.count⟩

end PhpWebSocket
