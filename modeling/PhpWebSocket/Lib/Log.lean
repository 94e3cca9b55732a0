import Mathlib.Data.List.Induction

/-! # Logs whose entries answer for their past

A log grows at its end. A rule says, of an entry and the entries before it, whether
the entry was in order when it was written; `Guarded` logs are those all of whose
entries were. A state machine keeps such a log guarded if each entry it writes obeys
the rule against the log so far (`Guarded.snoc`); precedence, at most once and
nothing after are all rules of this kind.
-/

namespace PhpWebSocket.Lib

variable {α : Type*} {rule : List α → α → Prop} {log : List α}

/-- Every entry obeyed the rule against what came before it. -/
def Guarded (rule : List α → α → Prop) (log : List α) : Prop :=
  ∀ past entry rest, log = past ++ entry :: rest → rule past entry

namespace Guarded

theorem nil : Guarded rule ([] : List α) := by
  intro past entry rest same
  simp at same

theorem snoc (h : Guarded rule log) {entry : α} (new : rule log entry) :
    Guarded rule (log ++ [entry]) := by
  intro past e rest same
  rcases List.eq_nil_or_concat rest with rfl | ⟨front, last, rfl⟩
  · obtain ⟨rfl, tail⟩ := List.append_inj' same rfl
    cases tail
    exact new
  · rw [List.concat_eq_append, ← List.cons_append, ← List.append_assoc] at same
    exact h past e front (List.append_inj' same rfl).1

theorem append (h : Guarded rule log) {news : List α} (free : ∀ e ∈ news, ∀ past, rule past e) :
    Guarded rule (log ++ news) := by
  induction news generalizing log with
  | nil =>
      rw [List.append_nil]
      exact h
  | cons e news ih =>
      rw [List.append_cons]
      exact ih (h.snoc (free e List.mem_cons_self log)) fun e' mem => free e' (List.mem_cons_of_mem _ mem)

theorem of_snoc {entry : α} (h : Guarded rule (log ++ [entry])) :
    Guarded rule log ∧ rule log entry := by
  refine ⟨?_, h log entry [] rfl⟩
  intro past e rest same
  exact h past e (rest ++ [entry]) (by rw [same]; simp)

/-- An entry that excludes its like from the past is written at most once. -/
theorem countP_le_one (h : Guarded rule log) (p : α → Bool)
    (once : ∀ past e, rule past e → p e → ∀ e' ∈ past, p e' = false) : log.countP p ≤ 1 := by
  induction log using List.reverseRecOn with
  | nil => exact Nat.zero_le _
  | append_singleton log entry ih =>
      obtain ⟨before, new⟩ := of_snoc h
      rw [List.countP_append, List.countP_singleton]
      by_cases again : p entry = true
      · have none : log.countP p = 0 :=
          List.countP_eq_zero.mpr fun e mem => by simp [once log entry new again e mem]
        simp [none, again]
      · simpa [again] using ih before

/-- A rule that forbids one kind of entry behind another holds of every pair. -/
theorem pairwise {R : α → α → Prop} (h : Guarded (fun past e => ∀ e' ∈ past, R e' e) log) :
    log.Pairwise R := by
  induction log using List.reverseRecOn with
  | nil => exact List.Pairwise.nil
  | append_singleton log entry ih =>
      obtain ⟨before, new⟩ := of_snoc h
      refine List.pairwise_append.mpr ⟨ih before, List.pairwise_singleton .., ?_⟩
      intro e mem e' last
      rw [List.mem_singleton] at last
      subst last
      exact new e mem

end Guarded

end PhpWebSocket.Lib
