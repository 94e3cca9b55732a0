import Mathlib.Data.List.Basic

/-! # Inboxes

What has arrived for a reader, and how far it has read. The mark is that of an
edge-triggered source: an arrival sets it, and reporting it clears it, whatever is left to
read. Nothing is stranded as long as what waits is marked; only a report can spoil that.
-/

namespace PhpWebSocket.Lib

variable {α : Type*}

structure Inbox (α : Type*) where
  taken : List α := []
  waiting : List α := []
  /-- Something has arrived since the last report. -/
  marked : Bool := false

namespace Inbox

variable {s s' s'' : Inbox α} {fair fair' : α → Prop}

def arrived (s : Inbox α) : List α := s.taken ++ s.waiting

def arrive (s : Inbox α) (fresh : List α) : Inbox α :=
  { s with waiting := s.waiting ++ fresh, marked := s.marked || !fresh.isEmpty }

/-- The first `n` elements that wait are taken. -/
def take (s : Inbox α) (n : Nat) : Inbox α :=
  { s with taken := s.taken ++ s.waiting.take n, waiting := s.waiting.drop n }

def report (s : Inbox α) : Inbox α := { s with marked := false }

/-- What waits is marked. -/
def Signalled (s : Inbox α) : Prop := s.waiting ≠ [] → s.marked = true

theorem signalled_of_empty (empty : s.waiting = []) : s.Signalled := fun some => absurd empty some

theorem Signalled.take (signalled : s.Signalled) (n : Nat) : (s.take n).Signalled := by
  refine fun some => signalled fun empty => some ?_
  rw [Inbox.take, empty, List.drop_nil]

theorem arrived_take (s : Inbox α) (n : Nat) : (s.take n).arrived = s.arrived := by
  rw [arrived, take, List.append_assoc, List.take_append_drop, arrived]

/-- Some fair arrivals later. -/
def Grows (fair : α → Prop) (s s' : Inbox α) : Prop :=
  ∃ fresh, (∀ a ∈ fresh, fair a) ∧ s' = s.arrive fresh

theorem arrive_nil (s : Inbox α) : s.arrive [] = s := by
  simp only [arrive, List.append_nil, List.isEmpty_nil, Bool.not_true, Bool.or_false]

theorem arrive_arrive (s : Inbox α) (fresh more : List α) :
    (s.arrive fresh).arrive more = s.arrive (fresh ++ more) := by
  cases fresh <;> simp [arrive]

theorem Grows.refl (s : Inbox α) : Grows fair s s := ⟨[], by simp, (arrive_nil s).symm⟩

theorem Grows.trans (first : Grows fair s s') (next : Grows fair s' s'') : Grows fair s s'' := by
  obtain ⟨fresh, fairFresh, rfl⟩ := first
  obtain ⟨more, fairMore, rfl⟩ := next
  exact ⟨fresh ++ more, fun a mem => (List.mem_append.mp mem).elim (fairFresh a) (fairMore a),
    arrive_arrive s fresh more⟩

theorem Grows.mono (grows : Grows fair s s') (weaker : ∀ a, fair a → fair' a) : Grows fair' s s' := by
  obtain ⟨fresh, fairFresh, later⟩ := grows
  exact ⟨fresh, fun a mem => weaker a (fairFresh a mem), later⟩

theorem Grows.taken (grows : Grows fair s s') : s'.taken = s.taken := by
  obtain ⟨fresh, -, rfl⟩ := grows
  rfl

theorem Signalled.grows (signalled : s.Signalled) (grows : Grows fair s s') : s'.Signalled := by
  obtain ⟨fresh, -, rfl⟩ := grows
  cases fresh with
  | nil =>
      rw [arrive_nil]
      exact signalled
  | cons a rest => exact fun _ => Bool.or_true _

/-! ## Since a report -/

/-- Everything that had arrived in `s` has been taken in `s'`, or more has arrived. -/
def Drained (s s' : Inbox α) : Prop := s.arrived.length ≤ s'.taken.length ∨ s'.marked = true

/-- Reading and arrivals, and no report. -/
structure Unreported (s s' : Inbox α) : Prop where
  marked : s.marked = true → s'.marked = true
  arrived : s'.marked = true ∨ s'.arrived = s.arrived

namespace Unreported

theorem refl (s : Inbox α) : s.Unreported s := ⟨id, Or.inr rfl⟩

theorem trans (first : s.Unreported s') (next : s'.Unreported s'') : s.Unreported s'' := by
  refine ⟨next.marked ∘ first.marked, ?_⟩
  rcases next.arrived with marked | same
  · exact Or.inl marked
  · exact first.arrived.imp next.marked same.trans

theorem take (s : Inbox α) (n : Nat) : s.Unreported (s.take n) := ⟨id, Or.inr (arrived_take s n)⟩

/-- Where nothing has been reported, what waits is marked as soon as all that was there has been
    taken. -/
theorem signalled_iff (unreported : s.Unreported s') : s'.Signalled ↔ s.Drained s' := by
  rcases unreported.arrived with marked | same
  · exact iff_of_true (fun _ => marked) (Or.inr marked)
  · have length : s.arrived.length = s'.taken.length + s'.waiting.length := by
      rw [← same, Inbox.arrived, List.length_append]
    rw [Drained, Signalled, length]
    constructor
    · intro signalled
      by_cases empty : s'.waiting = []
      · exact Or.inl (by simp [empty])
      · exact Or.inr (signalled empty)
    · rintro (all | marked) some
      · exact absurd (List.eq_nil_of_length_eq_zero (by omega)) some
      · exact marked

end Unreported

theorem Grows.unreported (grows : Grows fair s s') : s.Unreported s' := by
  obtain ⟨fresh, -, rfl⟩ := grows
  cases fresh with
  | nil =>
      rw [arrive_nil]
      exact .refl s
  | cons a rest => exact ⟨fun _ => Bool.or_true _, Or.inl (Bool.or_true _)⟩

end Inbox

end PhpWebSocket.Lib
