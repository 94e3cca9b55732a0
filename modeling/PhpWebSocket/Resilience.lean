import PhpWebSocket.Reached

/-! # One client and the loop

A false from a function of the server ends `run`. While no callback throws and no error
is raised, there is one way to it: a Ping whose Pong cannot be sent at once, because the
queue is too small or too full or the socket fails. Every other failure of a single
connection ends that connection alone.
-/

namespace PhpWebSocket

/-- The frames handled between two worlds, each with what was found when it came. -/
def handledSince (before after : World) : List Handled := after.handled.drop before.handled.length

theorem Ran.verdict {server : Server} {w : World} {r : Bool × World} (call : Ran server w r)
    (quiet : r.2.Quiet) : r.1 = true ↔ ∀ x ∈ handledSince w r.2, x.Answerable := by
  obtain ⟨seen, call⟩ := call
  rw [handledSince, call.handled, List.drop_left]
  exact call.verdict quiet

/-- In every world the loop comes to, a connection is processed with true exactly if
    every Ping that was handled found its connection able to take the Pong, and the loop
    goes on under the same condition until `stop` is called. -/
theorem loop_kept_iff_pings_answerable (server : Server) :
    (∀ w, Reached server w →
      (∀ fd, (w.processConnectionFd server fd).2.Quiet →
        ((w.processConnectionFd server fd).1 = true ↔
          ∀ x ∈ handledSince w (w.processConnectionFd server fd).2, x.Answerable)) ∧
      ((w.processConnections server).2.Quiet →
        ((w.processConnections server).1 = true ↔
          ∀ x ∈ handledSince w (w.processConnections server).2, x.Answerable))) ∧
      ∀ env fd waits, let looped := (World.listening env fd).runLoop server waits
        looped.2.Quiet → looped.2.running = true → looped.2.stopped = false →
          (looped.1 = .waiting ↔ ∀ x ∈ looped.2.handled, x.Answerable) := by
  refine ⟨fun w reached => ⟨?_, ?_⟩, ?_⟩
  · intro fd quiet
    exact (World.processConnectionFd_ran reached.settled fd).verdict quiet
  · intro quiet
    exact (World.processConnections_ran reached.settled).verdict quiet
  · intro env fd waits looped quiet running going
    obtain ⟨ok, call, on, off⟩ := World.runLoop_ran server (World.listening_settled env fd) waits
    have verdict : ok = true ↔ ∀ x ∈ looped.2.handled, x.Answerable := call.verdict quiet
    rw [← verdict]
    constructor
    · intro waiting
      by_contra failed
      have left := off (Bool.eq_false_iff.mpr failed)
      rw [waiting] at left
      cases left
    · intro succeeded
      rcases on succeeded with waiting | halted | stopped
      · exact waiting
      · rw [running] at halted
        cases halted
      · rw [going] at stopped
        cases stopped

/-- A Ping that is answered, and the loop that goes on. -/
theorem loop_kept_iff_pings_answerable_answered :
    let server : Server := { options := .array fun _ => none, lib := sampleLib }
    let ping : Chunk := ⟨[0x89, 0x80, 1, 2, 3, 4], by decide, by decide⟩
    let env : Env :=
      { accepts := [.client 5 none], recvs := [.data sampleRequestChunk, .data ping] }
    let w := ((World.listening env 3).runRound server (.ready 3)).2
    Reached server w ∧ (w.processConnectionFd server 5).2.Quiet ∧
      (w.processConnectionFd server 5).1 = true ∧
      handledSince w (w.processConnectionFd server 5).2 ≠ [] ∧
      ∀ x ∈ handledSince w (w.processConnectionFd server 5).2, x.Answerable := by
  intro server ping env w
  have reached : Reached server w := (Reached.listening env 3).round (.ready 3) (by decide +kernel)
  have quiet : (w.processConnectionFd server 5).2.Quiet := by
    change (w.processConnectionFd server 5).2.env.exception = none
    decide +kernel
  have ok : (w.processConnectionFd server 5).1 = true := by decide +kernel
  have verdict := ((loop_kept_iff_pings_answerable server).1 w reached).1 5 quiet
  exact ⟨reached, quiet, ok, by decide +kernel, verdict.mp ok⟩

/-- A Ping ends the run, though nothing was thrown and nobody called `stop`: the Pong is
    longer than the write queue may be. -/
theorem ping_ends_the_run :
    let server : Server :=
      { options := .array fun name => if name = "maxQueuedBytes" then some 1 else none
        lib := sampleLib }
    let ping : Chunk := ⟨[0x89, 0x80, 1, 2, 3, 4], by decide, by decide⟩
    let env : Env :=
      { accepts := [.client 5 none], recvs := [.data sampleRequestChunk, .data ping] }
    let w := ((World.listening env 3).runRound server (.ready 3)).2
    let done := w.processConnectionFd server 5
    Reached server w ∧ done.1 = false ∧ done.2.env.exception = none ∧
      done.2.running = true ∧ done.2.stopped = false ∧ (done.2.conn 0).isOpen = true ∧
      ((World.listening env 3).runLoop server [.ready 3, .ready 5]).1 = .left := by
  intro server ping env w done
  refine ⟨(Reached.listening env 3).round (.ready 3) (by decide +kernel), ?_⟩
  decide +kernel

end PhpWebSocket
