import PhpWebSocket.Rounds

/-! # Reachable states

Where a run starts, the states in which the loop of `run` calls its functions, and what
follows for one connection: along any run its life is a sequence of steps, so what each
step preserves holds of it at every time.
-/

namespace PhpWebSocket

open Lib Relation

/-- A new server, when `run` is called. -/
def World.start (env : Env) : World := { env := { env with exception := none } }

/-- The same server once it listens. -/
def World.listening (env : Env) (fd : Nat) : World :=
  { World.start env with listenerFd := some fd }

theorem World.listening_settled (env : Env) (fd : Nat) :
    Settled (World.listening env fd).toHub := by
  refine ⟨rfl, fun i isOpen => absurd isOpen Bool.false_ne_true, ?_, ?_, fun i _ => rfl⟩
  · intro i mem
    exact absurd mem List.not_mem_nil
  · intro i isOpen
    exact absurd isOpen Bool.false_ne_true

theorem World.start_settled (env : Env) : Settled (World.start env).toHub := by
  refine ⟨rfl, fun i isOpen => absurd isOpen Bool.false_ne_true, ?_, ?_, fun i _ => rfl⟩
  · intro i mem
    exact absurd mem List.not_mem_nil
  · intro i isOpen
    exact absurd isOpen Bool.false_ne_true

/-! ## The life of a connection along a run -/

theorem Move.life_step {server : Server} {h h' : Hub} (move : Move server h h') (i : ConnId) :
    h'.life i = h.life i ∨
      Life.Step server i h.Quiet (i ∈ h.connections) (h.life i) (h'.life i) := by
  cases move with
  | seen | raise => exact Or.inl rfl
  | ask j request born step =>
      by_cases same : i = j
      · subst same
        apply Or.inr
        rw [h.emit_eq i, h.life_evolve_self _ _ (by simp [Event.about])]
        exact step
      · apply Or.inl
        rw [h.emit_eq j, h.life_evolve_of_ne same _ _ (by simp [Event.about])]
  | act act =>
      cases act with
      | own j _ step _ others =>
          by_cases same : i = j
          · subst same
            exact Or.inr step
          · exact Or.inl (others i same)
      | world lives => exact Or.inl (lives i)
      | enlist | remove => exact Or.inl rfl

theorem Moves.life_invariant {server : Server} {h h' : Hub} {i : ConnId} {holds : Life → Prop}
    (step : ∀ {quiet listed : Prop} {a b : Life}, Life.Step server i quiet listed a b → holds a → holds b)
    (moves : Moves server h h') (before : holds (h.life i)) : holds (h'.life i) := by
  induction moves with
  | refl => exact before
  | tail _ move ih =>
      rcases move.life_step i with same | stepped
      · rw [same]
        exact ih
      · exact step stepped ih

/-- An invariant of the steps holds of every connection at any time of a run. -/
theorem run_invariant {server : Server} {i : ConnId} {holds : Life → Prop} (start : holds ⟨{}, []⟩)
    (step : ∀ {quiet listed : Prop} {a b : Life}, Life.Step server i quiet listed a b → holds a → holds b)
    (env : Env) (waits : List WaitResult) :
    holds (((World.start env).runtimeRun server waits).world.toHub.life i) :=
  Moves.life_invariant step (World.runtimeRun_moves (World.start_settled env) waits) start

/-! ## The loop -/

/-- The worlds in which the loop of `run` calls one of its functions. The functions are
    taken in any order, so these are more worlds than the loop comes to. -/
inductive Reached (server : Server) : World → Prop
  | listening (env : Env) (fd : Nat) : Reached server (World.listening env fd)
  | interrupted {w : World} (reached : Reached server w) (e : Errno) : Reached server (w.setErrno e)
  | ready {w : World} (reached : Reached server w) (wait : WaitResult)
      (ok : (w.processReady server wait).1 = true) : Reached server (w.processReady server wait).2
  | processed {w : World} (reached : Reached server w) (ok : (w.processConnections server).1 = true) :
      Reached server (w.processConnections server).2
  | purged {w : World} (reached : Reached server w)
      (ok : (w.onHub (w.purgeClosedConnections server)).1 = true) :
      Reached server (w.onHub (w.purgeClosedConnections server)).2

namespace Ran

variable {server : Server} {w w' : World}

theorem settled (call : Ran server w (true, w')) (before : Settled w.toHub) : Settled w'.toHub := by
  obtain ⟨seen, call⟩ := call
  exact call.settled before

end Ran

namespace Reached

variable {server : Server} {w : World}

theorem settled (reached : Reached server w) : Settled w.toHub := by
  induction reached with
  | listening env fd => exact World.listening_settled env fd
  | @interrupted w _ e ih =>
      have acts : Acts server w.toHub (w.setErrno e).toHub := World.setErrno_acts w e
      exact ih.acts acts
  | @ready w _ wait ok ih =>
      have call : Ran server w (w.processReady server wait) := World.processReady_ran ih wait
      rw [← Prod.eta (w.processReady server wait), ok] at call
      exact call.settled ih
  | @processed w _ ok ih =>
      have call : Ran server w (w.processConnections server) := World.processConnections_ran ih
      rw [← Prod.eta (w.processConnections server), ok] at call
      exact call.settled ih
  | @purged w _ ok ih =>
      have call : Ran server w (w.onHub (w.purgeClosedConnections server)) := World.purge_ran ih
      rw [← Prod.eta (w.onHub (w.purgeClosedConnections server)), ok] at call
      exact call.settled ih

theorem serve (reached : Reached server w) (wait : WaitResult)
    (ok : (w.serve server wait).1 = true) : Reached server (w.serve server wait).2 := by
  unfold World.serve at ok ⊢
  cases ready : (w.processReady server wait).1 with
  | false => simp [ready] at ok
  | true =>
      simp only [ready, Bool.not_true, Bool.false_eq_true, if_false] at ok ⊢
      cases processed : ((w.processReady server wait).2.processConnections server).1 with
      | false => simp [processed] at ok
      | true =>
          simp only [processed, Bool.not_true, Bool.false_eq_true, if_false] at ok ⊢
          exact ((reached.ready wait ready).processed processed).purged ok

theorem round (reached : Reached server w) (wait : WaitResult)
    (ok : (w.runRound server wait).1 = true) : Reached server (w.runRound server wait).2 := by
  cases wait with
  | ready | idle => exact reached.serve _ ok
  | failed e =>
      simp only [World.runRound] at ok ⊢
      split at ok
      · rename_i interrupted
        rw [if_pos interrupted]
        exact reached.interrupted e
      · cases ok

end Reached

/-- Where the loop waits, the world is reached. -/
theorem reached_of_waiting {server : Server} {w : World} (reached : Reached server w)
    (waits : List WaitResult) (waiting : (w.runLoop server waits).1 = .waiting) :
    Reached server (w.runLoop server waits).2 := by
  induction waits generalizing w with
  | nil =>
      unfold World.runLoop at waiting ⊢
      split
      · exact reached
      · exact reached
  | cons wait rest ih =>
      simp only [World.runLoop] at waiting ⊢
      split at waiting
      · cases waiting
      · rename_i going
        rw [if_neg going]
        split at waiting
        · rename_i ok
          rw [if_pos ok]
          exact ih (reached.round wait ok) waiting
        · cases waiting

end PhpWebSocket
