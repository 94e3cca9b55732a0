import Mathlib.Data.List.Basic

/-! # Incremental consumers

A consumer looks at a buffer and takes items off its front, changing a state of its
own. It is incremental if what it has decided on a buffer it decides on every longer
one. Draining such a consumer gives the same end however the input arrives: the one
law is `drain_append`, and `foldl_feed` is what it says about any cutting of a
stream.
-/

namespace PhpWebSocket.Lib

variable {α σ ρ : Type*}

/-- The items of a stream that are not complete in its first `n` elements, and how many of
    these elements belong to them. -/
def cut : List (List α) → Nat → List (List α) × Nat
  | [], n => ([], n)
  | item :: rest, n => if n < item.length then (item :: rest, n) else cut rest (n - item.length)

theorem cut_zero {items : List (List α)} (nonempty : ∀ item ∈ items, item ≠ []) :
    cut items 0 = (items, 0) := by
  cases items with
  | nil => rfl
  | cons item rest => exact if_pos (List.length_pos_iff.mpr (nonempty item (List.mem_cons_self ..)))

theorem cut_add (items : List (List α)) (n m : Nat) :
    cut items (n + m) = cut (cut items n).1 ((cut items n).2 + m) := by
  induction items generalizing n with
  | nil => rfl
  | cons item rest ih =>
      by_cases short : n < item.length
      · simp only [cut, if_pos short]
      · have beyond : ¬ n + m < item.length := by omega
        have shifted : n + m - item.length = n - item.length + m := by omega
        simp only [cut, if_neg short, if_neg beyond, shifted, ih]

theorem cut_subset (items : List (List α)) (n : Nat) : (cut items n).1 ⊆ items := by
  induction items generalizing n with
  | nil => exact List.Subset.refl _
  | cons item rest ih =>
      unfold cut
      split
      · exact List.Subset.refl _
      · exact List.subset_cons_of_subset _ (ih _)

theorem cut_lt {items rest : List (List α)} {item : List α} {n : Nat}
    (next : (cut items n).1 = item :: rest) : (cut items n).2 < item.length := by
  induction items generalizing n with
  | nil => cases next
  | cons first others ih =>
      unfold cut at next ⊢
      split at next
      · rename_i short
        cases next
        rw [if_pos short]
        exact short
      · rename_i long
        rw [if_neg long]
        exact ih next

/-- What a consumer does with a buffer: wait for more, stop for good, or go on; the
    last two take elements off the front. -/
inductive Bite (σ ρ : Type*) where
  | wait
  | stop (taken : Nat) (result : ρ)
  | take (taken : Nat) (state : σ)

structure Consumer (α σ ρ : Type*) where
  bite : σ → List α → Bite σ ρ
  progress : ∀ {s b n s'}, bite s b = .take n s' → 0 < n ∧ n ≤ b.length
  bounded : ∀ {s b n r}, bite s b = .stop n r → n ≤ b.length
  stable : ∀ {s b}, bite s b ≠ .wait → ∀ c, bite s (b ++ c) = bite s b

/-- The end of a round: the state or the result, and what is left in the buffer. -/
inductive Drained (α σ ρ : Type*) where
  | waiting (state : σ) (left : List α)
  | stopped (result : ρ) (left : List α)

namespace Consumer

variable (C : Consumer α σ ρ)

def drain (s : σ) (b : List α) : Drained α σ ρ :=
  match _atBite : C.bite s b with
  | .wait => .waiting s b
  | .stop n r => .stopped r (b.drop n)
  | .take n s' => drain s' (b.drop n)
termination_by b.length
decreasing_by
  have shorter := C.progress _atBite
  rw [List.length_drop]
  omega

variable {C} {s : σ} {b : List α}

theorem drain_wait (h : C.bite s b = .wait) : C.drain s b = .waiting s b := by
  unfold drain
  split <;> simp_all

theorem drain_stop {n : Nat} {r : ρ} (h : C.bite s b = .stop n r) :
    C.drain s b = .stopped r (b.drop n) := by
  unfold drain
  split <;> simp_all

theorem drain_take {n : Nat} {s' : σ} (h : C.bite s b = .take n s') :
    C.drain s b = C.drain s' (b.drop n) := by
  rw [drain]
  split <;> simp_all

variable (C)

/-- More input after a round. -/
def feed : Drained α σ ρ → List α → Drained α σ ρ
  | .waiting s left, c => C.drain s (left ++ c)
  | .stopped r left, c => .stopped r (left ++ c)

/-- Input that arrives later gives what it would have given at once. -/
theorem drain_append (s : σ) (b c : List α) : C.drain s (b ++ c) = C.feed (C.drain s b) c := by
  induction s, b using Consumer.drain.induct C with
  | case1 s b h => rw [drain_wait h, feed]
  | case2 s b n r h =>
      have more : C.bite s (b ++ c) = .stop n r := by rw [C.stable (by rw [h]; simp), h]
      rw [drain_stop h, drain_stop more, feed, List.drop_append_of_le_length (C.bounded h)]
  | case3 s b n s' h ih =>
      have more : C.bite s (b ++ c) = .take n s' := by rw [C.stable (by rw [h]; simp), h]
      rw [drain_take h, drain_take more, List.drop_append_of_le_length (C.progress h).2, ih]

/-- A stream in any number of pieces ends as the stream in one. -/
theorem foldl_feed (s : σ) (b : List α) (pieces : List (List α)) :
    pieces.foldl C.feed (C.drain s b) = C.drain s (b ++ pieces.flatten) := by
  induction pieces generalizing b with
  | nil => simp only [List.foldl_nil, List.flatten_nil, List.append_nil]
  | cons piece rest ih =>
      rw [List.foldl_cons, ← C.drain_append, ih, List.flatten_cons, List.append_assoc]

/-- A stream of items of which the consumer takes one whole item at a time. -/
structure Delimits (items : List (List α)) : Prop where
  decides : ∀ item ∈ items, ∀ s rest, C.bite s (item ++ rest) ≠ .wait
  takes : ∀ item ∈ items, ∀ s rest n s', C.bite s (item ++ rest) = .take n s' → n = item.length

namespace Delimits

variable {C} {items : List (List α)}

theorem tail {item : List α} (delimits : C.Delimits (item :: items)) : C.Delimits items :=
  ⟨fun x mem => delimits.decides x (List.mem_cons_of_mem _ mem),
    fun x mem => delimits.takes x (List.mem_cons_of_mem _ mem)⟩

theorem cut (delimits : C.Delimits items) (n : Nat) : C.Delimits (cut items n).1 :=
  ⟨fun x mem => delimits.decides x (cut_subset items n mem),
    fun x mem => delimits.takes x (cut_subset items n mem)⟩

theorem waits_or_stops {item : List α} (delimits : C.Delimits (item :: items)) {s : σ}
    {b c : List α} (inside : b ++ c = item) (short : b.length < item.length) (n : Nat) (s' : σ) :
    C.bite s b ≠ .take n s' := by
  intro taken
  have same := delimits.takes item (List.mem_cons_self ..) s [] n s'
  rw [List.append_nil, ← inside, C.stable (by rw [taken]; simp), taken] at same
  have whole : n = (b ++ c).length := same rfl
  have present := (C.progress taken).2
  rw [inside] at whole
  omega

theorem drain_left (delimits : C.Delimits items) {s s' : σ} {b c left : List α}
    (stream : b ++ c = items.flatten) (waits : C.drain s b = .waiting s' left) :
    left ++ c = (Lib.cut items b.length).1.flatten ∧ left.length = (Lib.cut items b.length).2 := by
  induction items generalizing s b with
  | nil =>
      obtain ⟨rfl, rfl⟩ := List.append_eq_nil_iff.mp stream
      cases atBite : C.bite s [] with
      | wait =>
          rw [drain_wait atBite] at waits
          cases waits
          exact ⟨rfl, rfl⟩
      | stop n r =>
          rw [drain_stop atBite] at waits
          cases waits
      | take n s'' =>
          obtain ⟨positive, none⟩ := C.progress atBite
          exact absurd none (Nat.not_le.mpr positive)
  | cons item rest ih =>
      rw [List.flatten_cons] at stream
      unfold Lib.cut
      by_cases short : b.length < item.length
      · obtain ⟨d, inside⟩ : ∃ d, b ++ d = item := by
          have front := List.prefix_of_prefix_length_le (List.prefix_append b c)
            (stream ▸ List.prefix_append item rest.flatten) (Nat.le_of_lt short)
          exact front
        rw [if_pos short]
        cases atBite : C.bite s b with
        | wait =>
            rw [drain_wait atBite] at waits
            cases waits
            exact ⟨stream, rfl⟩
        | stop n r =>
            rw [drain_stop atBite] at waits
            cases waits
        | take n s'' => exact absurd atBite (delimits.waits_or_stops inside short n s'')
      · rw [if_neg short]
        obtain ⟨b', rfl⟩ : ∃ b', b = item ++ b' := by
          have front := List.prefix_of_prefix_length_le
            (stream ▸ List.prefix_append item rest.flatten) (List.prefix_append b c)
            (Nat.le_of_not_lt short)
          exact front.imp fun _ h => h.symm
        rw [List.append_assoc, List.append_cancel_left_eq] at stream
        cases atBite : C.bite s (item ++ b') with
        | wait => exact absurd atBite (delimits.decides item (List.mem_cons_self ..) s b')
        | stop n r =>
            rw [drain_stop atBite] at waits
            cases waits
        | take n s'' =>
            have whole := delimits.takes item (List.mem_cons_self ..) s b' n s'' atBite
            rw [drain_take atBite, whole, List.drop_left] at waits
            have later := ih delimits.tail stream waits
            rwa [List.length_append, Nat.add_sub_cancel_left]

end Delimits

/-- A consumer that keeps step with an abstract machine: one item of its input after the
    other, until the machine is over. The machine may only do what is `fair`. -/
structure Simulates {ι μ : Type*} (encode : ι → List α) (step : μ → ι → μ) (ended : μ → Prop)
    (fair : μ → Prop) (related : σ → μ → Prop) (result : σ → ρ) : Prop where
  takes : ∀ {s m} (item : ι) (rest : List α), related s m → ¬ ended m → fair (step m item) →
    ∃ s', C.bite s (encode item ++ rest) = .take (encode item).length s' ∧ related s' (step m item)
  waits : ∀ {s m}, related s m → ¬ ended m → C.bite s [] = .wait
  stops : ∀ {s m} (b : List α), related s m → ended m → C.bite s b = .stop 0 (result s)
  still : ∀ {m} (item : ι), ended m → step m item = m
  earlier : ∀ {m} (item : ι), fair (step m item) → fair m

namespace Simulates

variable {C} {ι μ : Type*} {encode : ι → List α} {step : μ → ι → μ} {ended fair : μ → Prop}
  {related : σ → μ → Prop} {result : σ → ρ}

theorem fair_start (sim : C.Simulates encode step ended fair related result) (items : List ι)
    {m : μ} (allFair : fair (items.foldl step m)) : fair m := by
  induction items generalizing m with
  | nil => exact allFair
  | cons item rest ih => exact sim.earlier item (ih allFair)

theorem foldl_of_over (sim : C.Simulates encode step ended fair related result) (items : List ι)
    {m : μ} (isOver : ended m) : items.foldl step m = m := by
  induction items with
  | nil => rfl
  | cons item rest ih => rw [List.foldl_cons, sim.still item isOver, ih]

/-- On the encoding of a sequence of items the consumer ends where the machine does. -/
theorem drain (sim : C.Simulates encode step ended fair related result) (items : List ι) {s : σ}
    {m : μ} (start : related s m) (allFair : fair (items.foldl step m)) :
    ∃ s', related s' (items.foldl step m) ∧
      ((¬ ended (items.foldl step m) ∧ C.drain s (items.flatMap encode) = .waiting s' []) ∨
        (ended (items.foldl step m) ∧
          ∃ left, C.drain s (items.flatMap encode) = .stopped (result s') left)) := by
  induction items generalizing s m with
  | nil =>
      by_cases isOver : ended m
      · exact ⟨s, start, Or.inr ⟨isOver, [], drain_stop (sim.stops [] start isOver)⟩⟩
      · exact ⟨s, start, Or.inl ⟨isOver, drain_wait (sim.waits start isOver)⟩⟩
  | cons item rest ih =>
      by_cases isOver : ended m
      · rw [sim.foldl_of_over (item :: rest) isOver]
        exact ⟨s, start, Or.inr ⟨isOver, _, drain_stop (sim.stops _ start isOver)⟩⟩
      · rw [List.foldl_cons] at allFair ⊢
        obtain ⟨s', bites, after⟩ :=
          sim.takes item (rest.flatMap encode) start isOver (sim.fair_start rest allFair)
        rw [List.flatMap_cons, drain_take bites, List.drop_left]
        exact ih after allFair

end Simulates

end Consumer

end PhpWebSocket.Lib
