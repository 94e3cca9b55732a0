import Mathlib.Data.List.Induction

/-! # Questions that wait for an answer

A log of questions, each with the time it was asked, and of answers. What is asked may also
be dropped, when another one comes to be asked. At most one question waits for its answer;
the next one may be asked when it has been answered or dropped.
-/

namespace PhpWebSocket.Lib

inductive Question (τ : Type*) where
  | asked (time : τ)
  | answered
  | dropped
  /-- Nothing that concerns a question. -/
  | other

namespace Question

variable {τ : Type*}

def next (waiting : Option τ) : Question τ → Option τ
  | asked time => some time
  | answered | dropped => none
  | other => waiting

/-- The time of the question that waits for its answer. -/
def unanswered (log : List (Question τ)) : Option τ := log.foldl next none

@[simp] theorem unanswered_concat (log : List (Question τ)) (q : Question τ) :
    unanswered (log ++ [q]) = next (unanswered log) q := by
  rw [unanswered, List.foldl_append]
  rfl

/-- The question that waits is in the log, with no answer behind it. -/
theorem of_unanswered {log : List (Question τ)} {time : τ} (waits : unanswered log = some time) :
    ∃ before after, log = before ++ asked time :: after ∧ answered ∉ after ∧ dropped ∉ after := by
  induction log using List.reverseRecOn with
  | nil => cases waits
  | append_singleton log q ih =>
      rw [unanswered_concat] at waits
      cases q with
      | asked t =>
          cases waits
          exact ⟨log, [], rfl, List.not_mem_nil, List.not_mem_nil⟩
      | answered | dropped => cases waits
      | other =>
          obtain ⟨before, after, same, unheard, kept⟩ := ih waits
          refine ⟨before, after ++ [other], by simp [same], ?_, ?_⟩
          · simp [unheard]
          · simp [kept]

/-- A question that does not wait any more has been answered or dropped. -/
theorem settled_of_unanswered {before after : List (Question τ)} {time : τ}
    (settled : unanswered (before ++ asked time :: after) = none) :
    answered ∈ after ∨ dropped ∈ after := by
  have asking (waiting : Option τ) (log : List (Question τ)) (some_waits : waiting ≠ none)
      (ends : log.foldl next waiting = none) : answered ∈ log ∨ dropped ∈ log := by
    induction log generalizing waiting with
    | nil => exact absurd ends some_waits
    | cons q log ih =>
        cases q with
        | asked t => simpa using ih (some t) nofun ends
        | answered => simp
        | dropped => simp
        | other => simpa using ih waiting some_waits ends
  rw [unanswered, List.foldl_append] at settled
  exact asking (some time) after nofun settled

end Question

end PhpWebSocket.Lib
