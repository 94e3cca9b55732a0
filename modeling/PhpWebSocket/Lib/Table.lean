import Mathlib.Data.List.Nodup
import Mathlib.Logic.Function.Basic

/-! # Tables with a key

An array whose entries are found by a key, from the front. While no two entries have the same
key, an entry that is changed in place, removed or added at the end is the only one that a
look-up finds changed.
-/

namespace PhpWebSocket.Lib.Table

variable {α κ : Type*} (key : α → κ)

/-- At most one entry for each key. -/
def Unique (table : List α) : Prop := (table.map key).Nodup

section

variable {key} {table : List α}

theorem map_modify {f : α → α} (same : ∀ entry, key (f entry) = key entry) (table : List α)
    (i : Nat) : (table.modify i f).map key = table.map key := by
  induction table generalizing i with
  | nil => simp
  | cons first table ih =>
      cases i with
      | zero => simp [same]
      | succ i => simp [ih]

theorem Unique.modify (unique : Unique key table) {f : α → α}
    (same : ∀ entry, key (f entry) = key entry) (i : Nat) : Unique key (table.modify i f) := by
  rw [Unique, map_modify same]
  exact unique

theorem map_map_key {f : α → α} (same : ∀ entry, key (f entry) = key entry) (table : List α) :
    (table.map f).map key = table.map key := by
  rw [List.map_map]
  exact congrArg (List.map · table) (funext same)

theorem Unique.map (unique : Unique key table) {f : α → α}
    (same : ∀ entry, key (f entry) = key entry) : Unique key (table.map f) := by
  rw [Unique, map_map_key same]
  exact unique

theorem Unique.eraseIdx (unique : Unique key table) (i : Nat) : Unique key (table.eraseIdx i) :=
  unique.sublist ((List.eraseIdx_sublist table i).map key)

end

variable [DecidableEq κ]

/-- The first entry with the key. -/
def get (table : List α) (k : κ) : Option α := table.find? fun entry => key entry = k

def index (table : List α) (k : κ) : Option Nat := table.findIdx? fun entry => key entry = k

variable {key} {table : List α} {k : κ} {i : Nat}

theorem get_cons (entry : α) (table : List α) (k : κ) :
    get key (entry :: table) k = if key entry = k then some entry else get key table k := by
  rw [get, List.find?_cons]
  by_cases own : key entry = k
  · simp [own]
  · simp [own, get]

theorem index_cons (entry : α) (table : List α) (k : κ) :
    index key (entry :: table) k =
      if key entry = k then some 0 else (index key table k).map (· + 1) := by
  rw [index, List.findIdx?_cons]
  by_cases own : key entry = k
  · simp [own]
  · simp [own, index]

theorem get_eq_none : get key table k = none ↔ k ∉ table.map key := by
  simp [get, List.find?_eq_none]

theorem index_eq_none : index key table k = none ↔ get key table k = none := by
  simp [index, get, List.findIdx?_eq_none_iff, List.find?_eq_none]

theorem get_append (entry : α) (fresh : index key table (key entry) = none) (j : κ) :
    get key (table ++ [entry]) j = if j = key entry then some entry else get key table j := by
  induction table with
  | nil =>
      rw [List.nil_append, get_cons]
      simp only [eq_comm]
  | cons first table ih =>
      rw [index_eq_none, get_cons] at fresh
      rw [List.cons_append, get_cons, get_cons]
      split at fresh
      · cases fresh
      · rename_i other
        rw [ih (index_eq_none.mpr fresh)]
        by_cases own : j = key entry
        · simp [own, other]
        · simp [own]

theorem index_append (entry : α) (fresh : index key table (key entry) = none) :
    index key (table ++ [entry]) (key entry) = some table.length := by
  induction table with
  | nil => simp [index_cons]
  | cons first table ih =>
      rw [index_cons] at fresh
      rw [List.cons_append, index_cons]
      split at fresh
      · cases fresh
      · rename_i other
        rw [if_neg other, ih (Option.map_eq_none_iff.mp fresh)]
        rfl

theorem Unique.append (unique : Unique key table) {entry : α}
    (fresh : index key table (key entry) = none) : Unique key (table ++ [entry]) := by
  rw [index_eq_none, get_eq_none] at fresh
  rw [Unique, List.map_append]
  exact List.Nodup.append unique (List.nodup_singleton _) (List.disjoint_singleton.mpr fresh)

theorem get_modify {f : α → α} (same : ∀ entry, key (f entry) = key entry)
    (here : index key table k = some i) (j : κ) :
    get key (table.modify i f) j =
      if j = k then (get key table k).map f else get key table j := by
  induction table generalizing i with
  | nil => cases here
  | cons first table ih =>
      rw [index_cons] at here
      split at here
      · rename_i own
        cases here
        rw [List.modify_zero_cons, get_cons, get_cons, get_cons, same, own, if_pos rfl]
        by_cases asked : j = k
        · simp [asked]
        · simp [asked, Ne.symm asked]
      · rename_i other
        obtain ⟨i, found, rfl⟩ := Option.map_eq_some_iff.mp here
        rw [List.modify_succ_cons, get_cons, get_cons, get_cons, if_neg other, ih found]
        by_cases own : j = k
        · simp [own, other]
        · simp [own]

theorem get_eraseIdx (unique : Unique key table) (here : index key table k = some i) (j : κ) :
    get key (table.eraseIdx i) j = if j = k then none else get key table j := by
  induction table generalizing i with
  | nil => cases here
  | cons first table ih =>
      obtain ⟨apart, unique⟩ := List.nodup_cons.mp unique
      rw [index_cons] at here
      split at here
      · rename_i own
        cases here
        rw [List.eraseIdx_cons_zero, get_cons, own]
        by_cases same : j = k
        · rw [if_pos same, same]
          exact get_eq_none.mpr (own ▸ apart)
        · rw [if_neg same, if_neg (Ne.symm same)]
      · rename_i other
        obtain ⟨i, found, rfl⟩ := Option.map_eq_some_iff.mp here
        rw [List.eraseIdx_cons_succ, get_cons, get_cons, ih unique found]
        by_cases same : j = k
        · simp [same, other]
        · simp [same]

theorem getElem?_index (here : index key table k = some i) : table[i]? = get key table k := by
  induction table generalizing i with
  | nil => cases here
  | cons first table ih =>
      rw [index_cons] at here
      rw [get_cons]
      split at here
      · rename_i own
        cases here
        rw [if_pos own, List.getElem?_cons_zero]
      · rename_i other
        obtain ⟨i, found, rfl⟩ := Option.map_eq_some_iff.mp here
        rw [if_neg other, List.getElem?_cons_succ, ih found]

/-- An entry of the table is the one that its key finds. -/
theorem get_of_mem (unique : Unique key table) {entry : α} (mem : entry ∈ table) :
    get key table (key entry) = some entry := by
  induction table with
  | nil => cases mem
  | cons first table ih =>
      obtain ⟨apart, unique⟩ := List.nodup_cons.mp unique
      rw [get_cons]
      rcases List.mem_cons.mp mem with rfl | later
      · exact if_pos rfl
      · have other : key first ≠ key entry := fun same =>
          apart (same ▸ List.mem_map_of_mem later)
        rw [if_neg other]
        exact ih unique later

/-- Where an entry is, is a matter of the keys. -/
theorem index_map (table : List α) (k : κ) :
    index key table k = index id (table.map key) k := by
  rw [index, index, List.findIdx?_map]
  rfl

theorem map_eraseIdx (here : index key table k = some i) :
    (table.eraseIdx i).map key = (table.map key).erase k := by
  induction table generalizing i with
  | nil => cases here
  | cons first table ih =>
      rw [index_cons] at here
      split at here
      · rename_i own
        cases here
        simp [own]
      · rename_i other
        obtain ⟨i, found, rfl⟩ := Option.map_eq_some_iff.mp here
        simp [other, ih found]

theorem erase_unlisted (absent : index key table k = none) :
    (table.map key).erase k = table.map key := by
  apply List.erase_of_not_mem
  rwa [index_eq_none, get_eq_none] at absent

/-- What holds of some entry with the key holds of the one there is. -/
theorem any_eq_get (unique : Unique key table) (k : κ) (p : α → Bool) :
    (table.any fun entry => decide (key entry = k) && p entry) = (get key table k).any p := by
  induction table with
  | nil => rfl
  | cons first table ih =>
      obtain ⟨apart, unique⟩ := List.nodup_cons.mp unique
      rw [List.any_cons, get_cons, ih unique]
      by_cases own : key first = k
      · rw [if_pos own, get_eq_none.mpr (own ▸ apart)]
        simp [own]
      · simp [own]

/-! ## The map of a table -/

/-- The table has one entry for each key that `m` maps, and the entry has the value. -/
structure Denotes {β : Type*} (key : α → κ) (value : α → β) (table : List α) (m : κ → Option β) :
    Prop where
  unique : Unique key table
  get : ∀ k, (get key table k).map value = m k

namespace Denotes

variable {β : Type*} {value : α → β} {m : κ → Option β}

theorem index_eq_none (denotes : Denotes key value table m) :
    index key table k = none ↔ m k = none := by
  rw [Table.index_eq_none, ← denotes.get k, Option.map_eq_none_iff]

theorem append (denotes : Denotes key value table m) {entry : α} (fresh : m (key entry) = none) :
    Denotes key value (table ++ [entry])
      (Function.update m (key entry) (some (value entry))) := by
  have absent := denotes.index_eq_none.mpr fresh
  refine ⟨denotes.unique.append absent, ?_⟩
  intro j
  rw [get_append entry absent, Function.update_apply]
  split
  · rfl
  · exact denotes.get j

theorem modify (denotes : Denotes key value table m) (here : index key table k = some i)
    {f : α → α} (same : ∀ entry, key (f entry) = key entry) {g : β → β}
    (changes : ∀ entry, value (f entry) = g (value entry)) :
    Denotes key value (table.modify i f) (Function.update m k ((m k).map g)) := by
  refine ⟨denotes.unique.modify same i, ?_⟩
  intro j
  rw [get_modify same here, Function.update_apply]
  split
  · rw [← denotes.get k, Option.map_map, Option.map_map]
    exact congrArg (fun change => Option.map change _) (funext changes)
  · exact denotes.get j

theorem eraseIdx (denotes : Denotes key value table m) (here : index key table k = some i) :
    Denotes key value (table.eraseIdx i) (Function.update m k none) := by
  refine ⟨denotes.unique.eraseIdx i, ?_⟩
  intro j
  rw [get_eraseIdx denotes.unique here, Function.update_apply]
  split
  · rfl
  · exact denotes.get j

theorem getElem? (denotes : Denotes key value table m) (here : index key table k = some i) :
    table[i]?.map value = m k := by
  rw [getElem?_index here, denotes.get]

theorem getElem?_modify (denotes : Denotes key value table m) (here : index key table k = some i)
    {f : α → α} {g : β → β} (changes : ∀ entry, value (f entry) = g (value entry)) :
    (table.modify i f)[i]?.map value = (m k).map g := by
  rw [List.getElem?_modify_eq, Option.map_eq_map, Option.map_map, ← denotes.getElem? here,
    Option.map_map]
  exact congrArg (fun change => Option.map change _) (funext changes)

theorem map (denotes : Denotes key value table m) {f : α → α}
    (keys : ∀ entry, key (f entry) = key entry) (values : ∀ entry, value (f entry) = value entry) :
    Denotes key value (table.map f) m := by
  have found (k : κ) : Table.get key (table.map f) k = (Table.get key table k).map f := by
    rw [Table.get, Table.get, List.find?_map]
    congr 2
    funext entry
    simp [keys]
  refine ⟨denotes.unique.map keys, ?_⟩
  · intro k
    rw [found, Option.map_map, ← denotes.get k]
    exact congrArg (Option.map · _) (funext values)

theorem of_mem (denotes : Denotes key value table m) {entry : α} (mem : entry ∈ table) :
    m (key entry) = some (value entry) := by
  rw [← denotes.get, get_of_mem denotes.unique mem]
  rfl

theorem mem_iff (denotes : Denotes key value table m) : k ∈ table.map key ↔ m k ≠ none := by
  rw [← denotes.get k, Ne, Option.map_eq_none_iff, get_eq_none, not_not]

theorem any_eq (denotes : Denotes key value table m) (k : κ) (p : β → Bool) :
    (table.any fun entry => decide (key entry = k) && p (value entry)) = (m k).any p := by
  rw [any_eq_get denotes.unique, ← denotes.get k, Option.any_map]

end Denotes

end PhpWebSocket.Lib.Table
