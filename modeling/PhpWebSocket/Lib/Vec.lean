import PhpWebSocket.Lib.Block
import PhpWebSocket.Lib.Table

/-! # Growable arrays

An array in a block from the allocator, with the number of cells that are in use and the number
there are, both machine words. It grows by doubling, an element is found by a scan from the
front, and what stands behind an element that is taken out moves down. Every access is checked,
and so is the size that the allocator is asked for: a product that does not fit in a word is a
smaller block.
-/

namespace PhpWebSocket.Lib

structure Vec (α : Type) where
  /-- No cells behind a null pointer. -/
  block : Block α := []
  count : UInt64 := 0
  capacity : UInt64 := 0

namespace Vec

variable {α : Type}

/-- A cell that has not been written is outside of what the array holds. -/
def get (v : Vec α) (i : UInt64) : Checked α := do
  let cell ← Checked.read v.block i.toNat
  match cell with
  | some x => .ok x
  | none => .error .outside

def set (v : Vec α) (i : UInt64) (x : α) : Checked (Vec α) := do
  let block ← v.block.put i.toNat [x]
  .ok { v with block }

/-- `capacity = capacity > 0 ? capacity * 2 : 8`, and a block for as many elements of `size`
    octets. -/
def grow (size : UInt64) (v : Vec α) : Vec α :=
  let capacity := if v.capacity > 0 then v.capacity * 2 else 8
  { v with block := v.block.resize ((size * capacity).toNat / size.toNat), capacity }

/-- `v[count++] = x` -/
def push (v : Vec α) (x : α) : Checked (Vec α) := do
  let v' ← v.set v.count x
  .ok { v' with count := v'.count + 1 }

def modify (v : Vec α) (i : UInt64) (f : α → α) : Checked (Vec α) := do
  let x ← v.get i
  v.set i (f x)

/-- `for (; i < count; i++) if (p(v[i])) return i;` -/
def findFrom (p : α → Checked Bool) (v : Vec α) : Nat → UInt64 → Checked (Option UInt64)
  | 0, _ => .error .endless
  | fuel + 1, i =>
      if i < v.count then do
        let x ← v.get i
        let hit ← p x
        if hit then .ok (some i) else findFrom p v fuel (i + 1)
      else .ok none

def find (p : α → Checked Bool) (v : Vec α) : Checked (Option UInt64) :=
  v.findFrom p (v.count.toNat + 1) 0

/-- `for (; i < count; i++) state = f(state, v[i]);` -/
def foldFrom {σ : Type} (f : σ → α → Checked σ) (v : Vec α) : Nat → UInt64 → σ → Checked σ
  | 0, _, _ => .error .endless
  | fuel + 1, i, state =>
      if i < v.count then do
        let x ← v.get i
        let state ← f state x
        foldFrom f v fuel (i + 1) state
      else .ok state

def fold {σ : Type} (f : σ → α → Checked σ) (v : Vec α) (state : σ) : Checked σ :=
  v.foldFrom f (v.count.toNat + 1) 0 state

/-- `for (; i < count; i++) v[i] = f(v[i]);` -/
def updateFrom (f : α → α) : Nat → UInt64 → Vec α → Checked (Vec α)
  | 0, _, _ => .error .endless
  | fuel + 1, i, v =>
      if i < v.count then do
        let v ← v.modify i f
        updateFrom f fuel (i + 1) v
      else .ok v

def update (f : α → α) (v : Vec α) : Checked (Vec α) := updateFrom f (v.count.toNat + 1) 0 v

/-- `memmove` of the `n` cells behind cell `i` to where it stands. -/
def moveOver (b : Block α) (i n : Nat) : Checked (Block α) := do
  let cells ← Checked.copy b (i + 1) n
  Checked.write b i cells

/-- The element is taken out, and what stands behind it moves down. -/
def removeAt (v : Vec α) (i : UInt64) : Checked (Vec α) := do
  let block ←
    if i + 1 < v.count then moveOver v.block i.toNat (v.count - i - 1).toNat else .ok v.block
  .ok { v with block, count := v.count - 1 }

/-- What an array stands for. -/
structure Holds (v : Vec α) (xs : List α) : Prop where
  count : v.count.toNat = xs.length
  capacity : v.capacity.toNat = v.block.length
  room : xs.length ≤ v.block.length
  cells : ∀ n < xs.length, v.block[n]? = some xs[n]?

theorem holds_empty : Holds ({} : Vec α) [] := ⟨rfl, rfl, Nat.le_refl 0, by simp⟩

theorem put_one {b : Block α} {n : Nat} (inside : n < b.length) (x : α) :
    b.put n [x] = .ok (b.set n (some x)) := by
  have written : b.put n [x] = .ok (b.take n ++ [some x] ++ b.drop (n + 1)) :=
    Checked.write_ok (Nat.succ_le_of_lt inside)
  rw [written, List.append_assoc, List.singleton_append, List.set_eq_take_append_cons_drop,
    if_pos inside]

theorem moveOver_ok {b : Block α} {i n : Nat} (room : i + 1 + n ≤ b.length) :
    ∃ b', moveOver b i n = .ok b' ∧ b'.length = b.length ∧
      ∀ m < i + n, b'[m]? = if m < i then b[m]? else b[m + 1]? := by
  have cells : ((b.drop (i + 1)).take n).length = n := by grind
  refine ⟨b.take i ++ (b.drop (i + 1)).take n ++ b.drop (i + n), ?_, ?_, ?_⟩
  · rw [moveOver, Checked.copy_ok room, Checked.ok_bind, Checked.write_ok (by omega), cells]
  · grind
  · intro m before
    grind

section

variable {v : Vec α} {xs : List α} {i : UInt64}

theorem Holds.get (holds : v.Holds xs) (inside : i.toNat < xs.length) :
    v.get i = .ok xs[i.toNat] := by
  simp [Vec.get, Checked.read, holds.cells _ inside, inside]

theorem Holds.set (holds : v.Holds xs) (inside : i.toNat < xs.length) (x : α) :
    ∃ v', v.set i x = .ok v' ∧ v'.capacity = v.capacity ∧ v'.Holds (xs.set i.toNat x) := by
  have room := holds.room
  refine ⟨{ v with block := v.block.set i.toNat (some x) }, ?_, rfl, ?_⟩
  · rw [Vec.set, put_one (by omega), Checked.ok_bind]
  · constructor <;> grind [holds.count, holds.capacity, holds.cells]

theorem Holds.push (holds : v.Holds xs) (room : v.count < v.capacity) (x : α) :
    ∃ v', v.push x = .ok v' ∧ v'.capacity = v.capacity ∧ v'.Holds (xs ++ [x]) := by
  rw [UInt64.lt_iff_toNat_lt, holds.capacity] at room
  have small := v.capacity.toNat_lt
  have next : (v.count + 1).toNat = v.count.toNat + 1 := by
    rw [UInt64.toNat_add, show (1 : UInt64).toNat = 1 from rfl, Nat.mod_eq_of_lt]
    grind [holds.capacity]
  refine ⟨{ v with block := v.block.set v.count.toNat (some x), count := v.count + 1 }, ?_, rfl, ?_⟩
  · rw [Vec.push, Vec.set, put_one room, Checked.ok_bind, Checked.ok_bind]
  · constructor <;> grind [holds.count, holds.capacity, holds.cells]

theorem Holds.modify (holds : v.Holds xs) (inside : i.toNat < xs.length) (f : α → α) :
    ∃ v', v.modify i f = .ok v' ∧ v'.capacity = v.capacity ∧ v'.Holds (xs.modify i.toNat f) := by
  obtain ⟨v', written, capacity, holds'⟩ := holds.set inside (f xs[i.toNat])
  refine ⟨v', ?_, capacity, ?_⟩
  · rw [Vec.modify, holds.get inside, Checked.ok_bind, written]
  · have same : xs.set i.toNat (f xs[i.toNat]) = xs.modify i.toNat f := by
      apply List.ext_getElem?
      grind
    rwa [← same]

theorem Holds.next (holds : v.Holds xs) (inside : i.toNat < xs.length) :
    (i + 1).toNat = i.toNat + 1 := by
  have small := v.count.toNat_lt
  have count := holds.count
  rw [UInt64.toNat_add, show (1 : UInt64).toNat = 1 from rfl, Nat.mod_eq_of_lt (by omega)]

theorem Holds.inside_iff (holds : v.Holds xs) : i < v.count ↔ i.toNat < xs.length := by
  rw [UInt64.lt_iff_toNat_lt, holds.count]

theorem Holds.findFrom (holds : v.Holds xs) {p : α → Checked Bool} {q : α → Bool}
    (reads : ∀ x ∈ xs, p x = .ok (q x)) {fuel : Nat} (enough : xs.length < i.toNat + fuel)
    (inside : i.toNat ≤ xs.length) :
    ∃ found, v.findFrom p fuel i = .ok found ∧
      found.map UInt64.toNat = ((xs.drop i.toNat).findIdx? q).map (· + i.toNat) := by
  induction fuel generalizing i with
  | zero => omega
  | succ fuel ih =>
      unfold Vec.findFrom
      by_cases more : i < v.count
      · have here := holds.inside_iff.mp more
        have next := holds.next here
        rw [if_pos more, holds.get here, Checked.ok_bind, reads _ (List.getElem_mem here),
          Checked.ok_bind, List.drop_eq_getElem_cons here, List.findIdx?_cons]
        by_cases hit : q xs[i.toNat] = true
        · refine ⟨some i, ?_, ?_⟩ <;> simp [hit]
        · obtain ⟨found, scan, same⟩ := @ih (i + 1) (by omega) (by omega)
          refine ⟨found, ?_, ?_⟩
          · rw [if_neg hit, scan]
          · rw [same, next, if_neg hit, Option.map_map]
            congr 1
            funext k
            grind
      · have past : xs.length ≤ i.toNat := Nat.le_of_not_lt fun less => more (holds.inside_iff.mpr less)
        refine ⟨none, ?_, ?_⟩ <;> simp [more, List.drop_of_length_le past]

theorem Holds.find (holds : v.Holds xs) {p : α → Checked Bool} {q : α → Bool}
    (reads : ∀ x ∈ xs, p x = .ok (q x)) :
    ∃ found, v.find p = .ok found ∧ found.map UInt64.toNat = xs.findIdx? q := by
  have enough : xs.length < (0 : UInt64).toNat + (v.count.toNat + 1) := by simp [holds.count]
  obtain ⟨found, scan, same⟩ := holds.findFrom reads enough (Nat.zero_le _)
  exact ⟨found, scan, by simpa using same⟩

theorem Holds.find_get (holds : v.Holds xs) {p : α → Checked Bool} {q : α → Bool}
    (reads : ∀ x ∈ xs, p x = .ok (q x)) :
    (v.find p = .ok none ∧ xs.find? q = none) ∨
      ∃ i x, v.find p = .ok (some i) ∧ v.get i = .ok x ∧ xs.find? q = some x := by
  obtain ⟨found, scan, same⟩ := holds.find reads
  cases found with
  | none =>
      refine .inl ⟨scan, ?_⟩
      rw [List.find?_eq_none]
      simpa [List.findIdx?_eq_none_iff] using same.symm
  | some i =>
      obtain ⟨inside, hit, first⟩ := List.findIdx?_eq_some_iff_getElem.mp same.symm
      refine .inr ⟨i, xs[i.toNat], scan, holds.get inside, ?_⟩
      rw [List.find?_eq_some_iff_getElem]
      exact ⟨hit, i.toNat, inside, rfl, fun j before => by simpa using first j before⟩

theorem Holds.foldFrom {σ : Type} (holds : v.Holds xs) (f : σ → α → Checked σ) {fuel : Nat}
    (enough : xs.length < i.toNat + fuel) (inside : i.toNat ≤ xs.length) (state : σ) :
    v.foldFrom f fuel i state = (xs.drop i.toNat).foldlM f state := by
  induction fuel generalizing i state with
  | zero => omega
  | succ fuel ih =>
      unfold Vec.foldFrom
      by_cases more : i < v.count
      · have here := holds.inside_iff.mp more
        have next := holds.next here
        rw [if_pos more, holds.get here, Checked.ok_bind, List.drop_eq_getElem_cons here,
          List.foldlM_cons]
        congr 1
        funext state
        rw [ih (by omega) (by omega), next]
      · have past : xs.length ≤ i.toNat := Nat.le_of_not_lt fun less => more (holds.inside_iff.mpr less)
        rw [if_neg more, List.drop_of_length_le past]
        rfl

theorem Holds.fold {σ : Type} (holds : v.Holds xs) (f : σ → α → Checked σ) (state : σ) :
    v.fold f state = xs.foldlM f state :=
  holds.foldFrom f (by simp [holds.count]) (Nat.zero_le _) state

theorem Holds.updateFrom (holds : v.Holds xs) (f : α → α) {fuel : Nat}
    (enough : xs.length < i.toNat + fuel) (inside : i.toNat ≤ xs.length) :
    ∃ v', updateFrom f fuel i v = .ok v' ∧ v'.capacity = v.capacity ∧
      v'.Holds (xs.take i.toNat ++ (xs.drop i.toNat).map f) := by
  induction fuel generalizing i v xs with
  | zero => omega
  | succ fuel ih =>
      unfold Vec.updateFrom
      by_cases more : i < v.count
      · have here := holds.inside_iff.mp more
        have next := holds.next here
        obtain ⟨v', changed, capacity, holds'⟩ := holds.modify here f
        have length : (xs.modify i.toNat f).length = xs.length := List.length_modify ..
        obtain ⟨v'', rest, capacity', holds''⟩ := @ih v' _ (i + 1) holds' (by omega) (by omega)
        refine ⟨v'', ?_, capacity'.trans capacity, ?_⟩
        · rw [if_pos more, changed, Checked.ok_bind, rest]
        · have same : (xs.modify i.toNat f).take (i + 1).toNat ++
              ((xs.modify i.toNat f).drop (i + 1).toNat).map f =
              xs.take i.toNat ++ (xs.drop i.toNat).map f := by
            rw [next]
            apply List.ext_getElem?
            grind
          rwa [← same]
      · have past : xs.length ≤ i.toNat := Nat.le_of_not_lt fun less => more (holds.inside_iff.mpr less)
        refine ⟨v, if_neg more, rfl, ?_⟩
        simpa [List.drop_of_length_le past, List.take_of_length_le past] using holds

theorem Holds.update (holds : v.Holds xs) (f : α → α) :
    ∃ v', v.update f = .ok v' ∧ v'.capacity = v.capacity ∧ v'.Holds (xs.map f) :=
  holds.updateFrom f (by simp [holds.count]) (Nat.zero_le _)

theorem Holds.removeAt (holds : v.Holds xs) (inside : i.toNat < xs.length) :
    ∃ v', v.removeAt i = .ok v' ∧ v'.capacity = v.capacity ∧ v'.Holds (xs.eraseIdx i.toNat) := by
  have count := holds.count
  have room := holds.room
  have one : (1 : UInt64).toNat = 1 := rfl
  have next := holds.next inside
  have fewer : (v.count - 1).toNat = xs.length - 1 := by
    rw [UInt64.toNat_sub_of_le _ _ (by rw [UInt64.le_iff_toNat_le]; omega), count, one]
  by_cases more : i + 1 < v.count
  · have behind : i.toNat + 1 < xs.length := by rwa [UInt64.lt_iff_toNat_lt, next, count] at more
    have first : (v.count - i).toNat = xs.length - i.toNat := by
      rw [UInt64.toNat_sub_of_le _ _ (by rw [UInt64.le_iff_toNat_le]; omega), count]
    have rest : (v.count - i - 1).toNat = xs.length - i.toNat - 1 := by
      rw [UInt64.toNat_sub_of_le _ _ (by rw [UInt64.le_iff_toNat_le]; omega), first, one]
    obtain ⟨block, moved, length, cells⟩ :=
      @moveOver_ok α v.block i.toNat (xs.length - i.toNat - 1) (by omega)
    refine ⟨{ v with block, count := v.count - 1 }, ?_, rfl, ?_⟩
    · rw [Vec.removeAt, if_pos more, rest, moved, Checked.ok_bind]
    · constructor <;> grind [holds.capacity, holds.cells]
  · have last : i.toNat + 1 = xs.length := by
      rw [UInt64.lt_iff_toNat_lt, next, count] at more
      omega
    refine ⟨{ v with count := v.count - 1 }, ?_, rfl, ?_⟩
    · rw [Vec.removeAt, if_neg more, Checked.ok_bind]
    · constructor <;> grind [holds.capacity, holds.cells]

theorem toNat_double (n : UInt64) (small : 2 * n.toNat + 8 < 2 ^ 64) :
    (if n > 0 then n * 2 else 8).toNat = if n.toNat > 0 then n.toNat * 2 else 8 := by
  rw [toNat_if_gt, UInt64.toNat_mul, show (2 : UInt64).toNat = 2 from rfl,
    Nat.mod_eq_of_lt (by omega)]
  rfl

/-- A full array grows while the size of the new block is a machine word. -/
theorem Holds.grow (holds : v.Holds xs) {size : UInt64} (positive : 0 < size)
    (full : v.count = v.capacity) (fits : size.toNat * (2 * xs.length + 8) < 2 ^ 64) :
    (v.grow size).Holds xs ∧ (v.grow size).count < (v.grow size).capacity ∧
      (v.grow size).capacity.toNat = if xs.length > 0 then xs.length * 2 else 8 := by
  have count := holds.count
  rw [UInt64.lt_iff_toNat_lt, show (0 : UInt64).toNat = 0 from rfl] at positive
  have words : 2 * xs.length + 8 < 2 ^ 64 := (Nat.le_mul_of_pos_left _ positive).trans_lt fits
  have capacity : (v.grow size).capacity.toNat = if xs.length > 0 then xs.length * 2 else 8 := by
    rw [Vec.grow, toNat_double _ (by rwa [← full, count]), ← full, count]
  have more : xs.length < (v.grow size).capacity.toNat := by
    rw [capacity]
    grind
  have asked : (size * (v.grow size).capacity).toNat / size.toNat =
      (v.grow size).capacity.toNat := by
    have most : (v.grow size).capacity.toNat ≤ 2 * xs.length + 8 := by grind
    rw [UInt64.toNat_mul, Nat.mod_eq_of_lt ((Nat.mul_le_mul_left _ most).trans_lt fits),
      Nat.mul_div_cancel_left _ positive]
  have block : (v.grow size).block = v.block.resize (v.grow size).capacity.toNat :=
    congrArg v.block.resize asked
  have length : v.block.length = xs.length := by rw [← holds.capacity, ← full, count]
  refine ⟨⟨count, ?_, ?_, ?_⟩, ?_, capacity⟩
  · rw [block, Block.length_resize (by omega)]
  · rw [block, Block.length_resize (by omega)]
    exact more.le
  · intro n inside
    rw [block, ← holds.cells n inside]
    grind [Block.resize]
  · rw [UInt64.lt_iff_toNat_lt]
    exact count.trans_lt more

end

end Vec

end PhpWebSocket.Lib
