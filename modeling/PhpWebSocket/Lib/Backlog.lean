import Mathlib.Data.List.Basic

/-! # A backlog of items cut at any point

A writer hands items to a sink that takes any number of elements at a time. What
the sink has not taken waits in a queue, with an offset into its head. `Carries`
relates the two levels: the elements taken so far, followed by those that wait, are
the accepted items in order. Its rules are the moves a writer can make.
-/

namespace PhpWebSocket.Lib

variable {α : Type*}

/-- The elements that wait: the head from the offset on, then the other items. -/
def unsent : List (List α) → Nat → List α
  | [], _ => []
  | head :: rest, offset => head.drop offset ++ rest.flatten

@[simp] theorem unsent_nil (offset : Nat) : unsent ([] : List (List α)) offset = [] := rfl

@[simp] theorem unsent_cons (head : List α) (rest : List (List α)) (offset : Nat) :
    unsent (head :: rest) offset = head.drop offset ++ rest.flatten := rfl

theorem unsent_zero (queue : List (List α)) : unsent queue 0 = queue.flatten := by
  cases queue with
  | nil => rfl
  | cons head rest => simp only [unsent_cons, List.drop_zero, List.flatten_cons]

theorem unsent_push {queue : List (List α)} (waiting : queue ≠ []) (offset : Nat) (item : List α) :
    unsent (queue ++ [item]) offset = unsent queue offset ++ item := by
  cases queue with
  | nil => exact absurd rfl waiting
  | cons head rest =>
      simp only [List.cons_append, unsent_cons, List.flatten_append, List.flatten_singleton,
        List.append_assoc]

theorem unsent_advance (head : List α) (rest : List (List α)) (offset taken : Nat) :
    unsent (head :: rest) offset =
      (head.drop offset).take taken ++ unsent (head :: rest) (offset + taken) := by
  simp only [unsent_cons, ← List.append_assoc, ← List.drop_drop, List.take_append_drop]

/-- What has gone out of a stream of items: some of them whole, and part of the next. -/
theorem exists_whole_of_isPrefix {sent : List α} {items : List (List α)}
    (front : sent <+: items.flatten) :
    ∃ k part, k ≤ items.length ∧ sent = (items.take k).flatten ++ part ∧
      (part = [] ∨ ∃ item, items[k]? = some item ∧ part <+: item ∧ part ≠ item) := by
  induction items generalizing sent with
  | nil =>
      rw [List.flatten_nil, List.prefix_nil] at front
      exact ⟨0, [], Nat.le_refl 0, front, Or.inl rfl⟩
  | cons item rest ih =>
      rw [List.flatten_cons] at front
      by_cases whole : item <+: sent
      · obtain ⟨later, rfl⟩ := whole
        obtain ⟨k, part, bound, split, torn⟩ := ih ((List.prefix_append_right_inj item).mp front)
        refine ⟨k + 1, part, Nat.succ_le_succ bound, ?_, ?_⟩
        · simp only [List.take_succ_cons, List.flatten_cons, List.append_assoc, ← split]
        · exact torn.imp_right fun ⟨next, here, inside⟩ => ⟨next, here, inside⟩
      · have short : sent.length ≤ item.length := by
          by_contra longer
          exact whole (List.prefix_of_prefix_length_le (List.prefix_append item _) front (by omega))
        have inside := List.prefix_of_prefix_length_le front (List.prefix_append item _) short
        refine ⟨0, sent, Nat.zero_le _, rfl, Or.inr ⟨item, rfl, inside, ?_⟩⟩
        rintro rfl
        exact whole (List.prefix_refl _)

/-- `sent` has gone out of the accepted items, and the queue from `offset` on waits. -/
structure Carries (sent : List α) (queue : List (List α)) (offset : Nat)
    (accepted : List (List α)) : Prop where
  stream : sent ++ unsent queue offset = accepted.flatten

namespace Carries

variable {sent : List α} {queue : List (List α)} {offset : Nat} {accepted : List (List α)}

/-- What has gone out is an initial part of what was accepted. -/
theorem isPrefix (h : Carries sent queue offset accepted) : sent <+: accepted.flatten :=
  ⟨_, h.stream⟩

theorem push (h : Carries sent queue offset accepted) (waiting : queue ≠ []) (item : List α) :
    Carries sent (queue ++ [item]) offset (accepted ++ [item]) := by
  constructor
  rw [unsent_push waiting, ← List.append_assoc, h.stream, List.flatten_append,
    List.flatten_singleton]

theorem start (h : Carries sent [] offset accepted) (item : List α) (taken : Nat) :
    Carries (sent ++ item.take taken) [item] taken (accepted ++ [item]) := by
  constructor
  have before : sent = accepted.flatten := by simpa using h.stream
  simp only [unsent_cons, List.flatten_nil, List.append_nil, List.append_assoc,
    List.take_append_drop, List.flatten_append, List.flatten_singleton, before]

theorem direct (h : Carries sent [] offset accepted) (item : List α) :
    Carries (sent ++ item) [] offset (accepted ++ [item]) := by
  constructor
  have before : sent = accepted.flatten := by simpa using h.stream
  simp only [unsent_nil, List.append_nil, List.flatten_append, List.flatten_singleton, before]

variable {head : List α} {rest : List (List α)}

theorem advance (h : Carries sent (head :: rest) offset accepted) (taken : Nat) :
    Carries (sent ++ (head.drop offset).take taken) (head :: rest) (offset + taken) accepted := by
  constructor
  rw [List.append_assoc, ← unsent_advance, h.stream]

theorem pop (h : Carries sent (head :: rest) offset accepted) (done : head.length ≤ offset) :
    Carries sent rest 0 accepted := by
  constructor
  rw [unsent_zero, ← h.stream, unsent_cons, List.drop_of_length_le done, List.nil_append]

end Carries

end PhpWebSocket.Lib
