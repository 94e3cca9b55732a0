import PhpWebSocket.Lib.Checked

/-! # Machines on checked memory

A machine answers each input and goes on to another state. One that works on checked memory
refines a plain one if no step of it is a fault, it gives the same answers, and a relation between
the states is kept. The whole of a run then is a run of the plain machine.
-/

namespace PhpWebSocket.Lib

variable {σ τ ι ο : Type*}

/-- The answers to a list of inputs, and the state that is left. -/
def answers (step : σ → ι → ο × σ) : σ → List ι → List ο × σ
  | state, [] => ([], state)
  | state, input :: rest =>
      let done := step state input
      let later := answers step done.2 rest
      (done.1 :: later.1, later.2)

def checkedAnswers {σ ι ο : Type} (step : σ → ι → Checked (ο × σ)) :
    σ → List ι → Checked (List ο × σ)
  | state, [] => .ok ([], state)
  | state, input :: rest => do
      let done ← step state input
      let later ← checkedAnswers step done.2 rest
      .ok (done.1 :: later.1, later.2)

/-- Every input comes in a state that admits it. -/
def Admitted (admits : σ → ι → Prop) (step : σ → ι → ο × σ) : σ → List ι → Prop
  | _, [] => True
  | state, input :: rest => admits state input ∧ Admitted admits step (step state input).2 rest

theorem Admitted.of_forall {admits : ι → Prop} {step : σ → ι → ο × σ} {state : σ}
    {inputs : List ι} (all : ∀ input ∈ inputs, admits input) :
    Admitted (fun _ => admits) step state inputs := by
  induction inputs generalizing state with
  | nil => trivial
  | cons input rest ih =>
      exact ⟨all input List.mem_cons_self, ih fun later mem => all later (List.mem_cons_of_mem _ mem)⟩

theorem answers_append (step : σ → ι → ο × σ) (state : σ) (first next : List ι) :
    (answers step state (first ++ next)).2 =
      (answers step (answers step state first).2 next).2 := by
  induction first generalizing state with
  | nil => rfl
  | cons input rest ih => exact ih _

theorem Admitted.append {admits : σ → ι → Prop} {step : σ → ι → ο × σ} {state : σ}
    {first next : List ι} (before : Admitted admits step state first)
    (after : Admitted admits step (answers step state first).2 next) :
    Admitted admits step state (first ++ next) := by
  induction first generalizing state with
  | nil => exact after
  | cons input rest ih => exact ⟨before.1, ih before.2 after⟩

section

variable {σ ι ο : Type}

/-- The checked machine `impl` does in memory what `spec` does, where `spec` admits the input. -/
def Refines (shows : σ → τ → Prop) (admits : τ → ι → Prop) (impl : σ → ι → Checked (ο × σ))
    (spec : τ → ι → ο × τ) : Prop :=
  ∀ memory state input, shows memory state → admits state input →
    ∃ memory', impl memory input = .ok ((spec state input).1, memory') ∧
      shows memory' (spec state input).2

variable {shows : σ → τ → Prop} {admits : τ → ι → Prop} {impl : σ → ι → Checked (ο × σ)}
  {spec : τ → ι → ο × τ} {memory : σ} {state : τ} {inputs : List ι}

theorem Refines.run (refines : Refines shows admits impl spec) (start : shows memory state)
    (admitted : Admitted admits spec state inputs) :
    ∃ memory', checkedAnswers impl memory inputs = .ok ((answers spec state inputs).1, memory') ∧
      shows memory' (answers spec state inputs).2 := by
  induction inputs generalizing memory state with
  | nil => exact ⟨memory, rfl, start⟩
  | cons input rest ih =>
      obtain ⟨next, done, shown⟩ := refines _ _ _ start admitted.1
      obtain ⟨last, later, shown⟩ := ih shown admitted.2
      refine ⟨last, ?_, shown⟩
      rw [checkedAnswers, done, Checked.ok_bind, later, Checked.ok_bind]
      rfl

end

end PhpWebSocket.Lib
