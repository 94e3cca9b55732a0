import PhpWebSocket.Effects
import PhpWebSocket.Lib.Log

/-! # The callbacks of a connection

Which callback may be called when, as a rule on the log of one connection: every event
answers for the events before it. The rule is kept by every step in the life of a
connection; that no end of a connection goes untold needs the server's table as well.
-/

namespace PhpWebSocket

open Lib Relation

/-! ## The rule -/

namespace Event

def isResponse : Event → Bool
  | .response _ _ _ => true
  | _ => false

def isHandshake : Event → Bool
  | .handshake _ _ => true
  | _ => false

def isParsed : Event → Bool
  | .parsed _ _ _ => true
  | _ => false

def isUpgraded : Event → Bool
  | .upgraded _ _ => true
  | _ => false

def isOpened : Event → Bool
  | .opened _ => true
  | _ => false

def isMessage : Event → Bool
  | .message _ _ _ _ => true
  | _ => false

def isClosed : Event → Bool
  | .closed _ => true
  | _ => false

/-- Events of a connection that has been upgraded. -/
def isUse (e : Event) : Bool := e.isUpgraded || e.isOpened || e.isMessage || e.isClosed

end Event

/-- The request was accepted by the parser and by the handshake callback, if there is
    one. -/
structure Approved (server : Server) (past : Trace) : Prop where
  parsed : past.any Event.isParsed
  approved : past.any Event.isApproved
  asked : (∀ t, (server.handlers t).onHandshake.isSome) → past.any Event.isHandshake

/-- What an event asks of the events of the same connection before it. -/
def LifecycleRule (server : Server) (past : Trace) : Event → Prop
  | .handshake _ _ => past.any Event.isHandshake = false
  | .approved _ => past.any Event.isParsed ∧
      ((∀ t, (server.handlers t).onHandshake.isSome) → past.any Event.isHandshake)
  | .response _ status complete => past.any Event.isResponse = false ∧
      (status = 101 → complete = true → Approved server past)
  | .opened _ => past.any Event.isOpened = false ∧ past.any Event.isMessage = false ∧
      past.any Event.isUpgraded ∧ Approved server past
  | .message _ _ _ conn => conn.isOpen = true ∧ conn.closeAfterWrite = false ∧
      past.any Event.isClosed = false ∧ past.any Event.isUpgraded ∧
      ((∀ t, (server.handlers t).onOpen.isSome) → past.any Event.isOpened)
  | .closed _ => past.any Event.isClosed = false ∧ past.any Event.isUpgraded
  | _ => True

/-- A connection whose log is in order, and whose state shows what has happened. -/
structure Lawful (server : Server) (i : ConnId) (life : Life) : Prop where
  guarded : Guarded (LifecycleRule server) life.log
  own : ∀ e ∈ life.log, e.about = some i
  unanswered : life.conn.isOpen = true → life.conn.upgraded = false →
    life.log.any Event.isResponse = false
  unused : life.conn.upgraded = false → life.log.any Event.isUse = false
  upgraded : life.conn.upgraded = true → life.log.any Event.isUpgraded
  opened : life.conn.upgraded = true → (∀ t, (server.handlers t).onOpen.isSome) →
    life.log.any Event.isOpened
  told : life.log.any Event.isClosed = life.conn.closeNotified
  shut : life.conn.closeNotified = true → life.conn.isOpen = false

namespace Lawful

variable {server : Server} {i : ConnId} {c c' : Connection} {log : Trace} {e : Event}

theorem start : Lawful server i ⟨{}, []⟩ :=
  ⟨Guarded.nil, by simp, fun _ _ => rfl, fun _ => rfl, fun h => absurd h Bool.false_ne_true,
    fun h => absurd h Bool.false_ne_true, rfl, fun h => absurd h Bool.false_ne_true⟩

theorem yield {maxMessageSize : Nat} (lawful : Lawful server i ⟨c, log⟩)
    (yields : Yields maxMessageSize c c') : Lawful server i ⟨c', log⟩ := by
  refine ⟨lawful.guarded, lawful.own, ?_, ?_, ?_,
    ?_, lawful.told.trans yields.closeNotified.symm, ?_⟩
  · intro isOpen fresh
    exact lawful.unanswered (yields.isOpen isOpen) (yields.upgraded.symm.trans fresh)
  · intro fresh
    exact lawful.unused (yields.upgraded.symm.trans fresh)
  · intro used
    exact lawful.upgraded (yields.upgraded.symm.trans used)
  · intro used
    exact lawful.opened (yields.upgraded.symm.trans used)
  · intro told
    have was := lawful.shut (yields.closeNotified.symm.trans told)
    by_contra isOpen
    have wasOpen := yields.isOpen (by simpa using isOpen)
    rw [was] at wasOpen
    cases wasOpen

/-- One event in order, on a connection whose upgrade it does not touch: a response ends
    the connection, and only an upgraded one is used. -/
theorem snoc (lawful : Lawful server i ⟨c, log⟩) (about : e.about = some i)
    (rule : LifecycleRule server log e) {isOpen closeNotified : Bool}
    (closes : isOpen = true → c.isOpen = true ∧ e.isResponse = false)
    (used : e.isUse = true → c.upgraded = true)
    (told : closeNotified = (c.closeNotified || e.isClosed))
    (shut : closeNotified = true → isOpen = false) :
    Lawful server i ⟨{ c with isOpen, closeNotified }, log ++ [e]⟩ := by
  refine ⟨lawful.guarded.snoc rule, ?_, ?_, ?_, ?_,
    ?_, ?_, shut⟩
  · intro e' mem
    rcases List.mem_append.mp mem with old | new
    · exact lawful.own e' old
    · rw [List.mem_singleton.mp new]
      exact about
  · intro stillOpen fresh
    rw [List.any_append, lawful.unanswered (closes stillOpen).1 fresh]
    simpa using (closes stillOpen).2
  · intro fresh
    have unused : e.isUse = false := by
      by_contra use
      have wasUsed := used (by simpa using use)
      rw [show c.upgraded = false from fresh] at wasUsed
      cases wasUsed
    rw [List.any_append, lawful.unused fresh]
    simpa using unused
  · intro isUsed
    rw [List.any_append, lawful.upgraded isUsed, Bool.true_or]
  · intro isUsed always
    rw [List.any_append, lawful.opened isUsed always, Bool.true_or]
  · rw [List.any_append, lawful.told, told]
    simp

theorem note (lawful : Lawful server i ⟨c, log⟩) (about : e.about = some i)
    (rule : LifecycleRule server log e) (response : e.isResponse = false)
    (use : e.isUse = false) : Lawful server i ⟨c, log ++ [e]⟩ := by
  refine lawful.snoc about rule (fun isOpen => ⟨isOpen, response⟩) ?_ ?_ lawful.shut
  · intro h
    rw [use] at h
    cases h
  · simp only [Event.isUse, Bool.or_eq_false_iff] at use
    rw [use.2, Bool.or_false]

theorem approved (lawful : Lawful server i ⟨c, log⟩) (mem : .approved i ∈ log) :
    Approved server log := by
  obtain ⟨past, rest, split⟩ := List.append_of_mem mem
  obtain ⟨parsed, asked⟩ := lawful.guarded past (.approved i) rest split
  have grows : ∀ {p : Event → Bool}, past.any p = true → log.any p = true := by
    intro p found
    rw [split, List.any_append, found, Bool.true_or]
  exact ⟨grows parsed, List.any_eq_true.mpr ⟨_, mem, rfl⟩, fun always => grows (asked always)⟩

theorem fresh (lawful : Lawful server i ⟨c, log⟩) (fresh : c.upgraded = false) :
    log.any Event.isOpened = false ∧ log.any Event.isMessage = false ∧
      log.any Event.isClosed = false := by
  have unused := lawful.unused fresh
  simp only [List.any_eq_false, Event.isUse, Bool.or_eq_true, not_or] at unused ⊢
  exact ⟨fun e mem => (unused e mem).1.1.2, fun e mem => (unused e mem).1.2,
    fun e mem => (unused e mem).2⟩

/-- The switch to frames: the 101, the upgrade, and the open callback if there is one. -/
theorem upgrade (lawful : Lawful server i ⟨c, log⟩) (isOpen : c.isOpen = true)
    (fresh : c.upgraded = false) (mem : .approved i ∈ log) (left : Bytes) (opened : Bool)
    (called : (∀ t, (server.handlers t).onOpen.isSome) → opened = true)
    (subprotocol : Option Bytes) (defer : Bool) :
    Lawful server i
      ⟨{ c with selectedSubprotocol := subprotocol, upgraded := true, deferClose := defer },
        log ++ [.response i 101 true, .upgraded i left] ++ if opened then [.opened i] else []⟩ := by
  have approved := lawful.approved mem
  obtain ⟨noOpened, noMessage, noClosed⟩ := lawful.fresh fresh
  have switched : Guarded (LifecycleRule server) (log ++ [.response i 101 true, .upgraded i left]) := by
    have responded : Guarded (LifecycleRule server) (log ++ [.response i 101 true]) :=
      lawful.guarded.snoc ⟨lawful.unanswered isOpen fresh, fun _ _ => approved⟩
    have upgraded : Guarded (LifecycleRule server)
        (log ++ [.response i 101 true] ++ [.upgraded i left]) := responded.snoc trivial
    rwa [List.append_assoc] at upgraded
  have notTold : c.closeNotified = false := by
    rw [← lawful.told]
    exact noClosed
  have opening : LifecycleRule server (log ++ [.response i 101 true, .upgraded i left]) (.opened i) := by
    refine ⟨?_, ?_, ?_, ?_, ?_, ?_⟩
    · rw [List.any_append, noOpened]
      rfl
    · rw [List.any_append, noMessage]
      rfl
    · rw [List.any_append]
      exact Bool.or_true _
    · rw [List.any_append, approved.parsed, Bool.true_or]
    · rw [List.any_append, approved.approved, Bool.true_or]
    · intro always
      rw [List.any_append, approved.asked always, Bool.true_or]
  refine ⟨?_, ?_, fun _ fresh => absurd fresh (by simp), fun fresh => absurd fresh (by simp),
    ?_, ?_, ?_, ?_⟩
  · cases opened with
    | false => simpa using switched
    | true => exact switched.snoc opening
  · intro e mem
    have own := lawful.own e
    cases opened <;> simp at mem <;> rcases mem with old | rfl | rfl | rfl <;> first | exact own old | rfl
  · intro _
    simp [Event.isUpgraded]
  · intro _ always
    rw [called always]
    simp [Event.isOpened]
  · rw [notTold, List.any_append, List.any_append, noClosed]
    cases opened <;> rfl
  · intro told
    rw [show c.closeNotified = true from told] at notTold
    cases notTold

end Lawful

/-- Every step in the life of a connection keeps its log in order. -/
theorem Life.Step.lawful {server : Server} {i : ConnId} {quiet listed : Prop} {a b : Life}
    (step : Life.Step server i quiet listed a b) (lawful : Lawful server i a) :
    Lawful server i b := by
  cases step with
  | create =>
      exact ⟨Guarded.nil, by simp, fun _ _ => rfl, fun _ => rfl, fun h => absurd h Bool.false_ne_true,
        fun h => absurd h Bool.false_ne_true, rfl, fun h => absurd h Bool.false_ne_true⟩
  | yield yields => exact lawful.yield yields
  | accepted => exact lawful.note rfl trivial rfl rfl
  | submit => exact lawful.note rfl trivial rfl rfl
  | send _ _ _ yields => exact (lawful.yield yields).note rfl trivial rfl rfl
  | bye _ _ _ _ _ yields => exact (lawful.yield yields).note rfl trivial rfl rfl
  | parsed => exact lawful.note rfl trivial rfl rfl
  | @ask c log request _ _ _ _ first =>
      refine lawful.note rfl (List.any_eq_false.mpr ?_) rfl rfl
      intro e mem asked
      cases e with
      | handshake j r =>
          have same : j = i := by simpa [Event.about] using lawful.own _ mem
          subst same
          exact first r mem
      | _ => cases asked
  | approve _ _ parsed asked =>
      refine lawful.note rfl ⟨?_, ?_⟩ rfl rfl
      · obtain ⟨buffer, upgrade, mem⟩ := parsed
        exact List.any_eq_true.mpr ⟨_, mem, rfl⟩
      · intro always
        obtain ⟨request, mem⟩ := asked always
        exact List.any_eq_true.mpr ⟨_, mem, rfl⟩
  | @reject c log status complete isOpen fresh notUpgrade =>
      have rule : LifecycleRule server log (.response i status complete) := by
        refine ⟨lawful.unanswered isOpen fresh, ?_⟩
        intro switching whole
        rw [notUpgrade switching] at whole
        cases whole
      exact lawful.snoc rfl rule (fun h => absurd h Bool.false_ne_true)
        (fun h => absurd h Bool.false_ne_true) (Bool.or_false _).symm fun _ => rfl
  | upgrade isOpen fresh parsed approved defer opened called =>
      exact lawful.upgrade isOpen fresh approved _ opened called _ defer
  | @deliver c log type payload noException reading =>
      have untold : c.closeNotified = false := by
        by_contra told
        have shut := lawful.shut (by simpa using told)
        rw [reading.1] at shut
        cases shut
      have rule : LifecycleRule server log (.message i type payload c) :=
        ⟨reading.1, reading.2.1, lawful.told.trans untold, lawful.upgraded reading.2.2,
          lawful.opened reading.2.2⟩
      exact lawful.snoc rfl rule (fun isOpen => ⟨isOpen, rfl⟩) (fun _ => reading.2.2)
        (Bool.or_false _).symm lawful.shut
  | @notify c log noException closed upgraded first =>
      have rule : LifecycleRule server log (.closed i) :=
        ⟨lawful.told.trans first, lawful.upgraded upgraded⟩
      exact lawful.snoc rfl rule (fun isOpen => absurd isOpen (by rw [closed]; decide))
        (fun _ => upgraded) (by rw [first]; rfl) fun _ => closed

/-! ## Who is let in -/

/-- Behind `past`, the connection `i` has been let in: in a state that the run to `final` has passed
    the parser has taken what the buffer held for a request, and the handshake callback, if there
    is one, has accepted it. -/
def LetIn (server : Server) (env : Env) (final : World) (i : ConnId) (past : Trace) : Prop :=
  ∃ (w : World) (upgrade : HttpUpgrade) (h : Hub),
    Effects server (fun _ => True) (World.start env) w ∧
    parseUpgrade server.lib server.subprotocols (w.buffer i) = .ok upgrade ∧
    w.trace ++ [.parsed i (w.buffer i) upgrade] <+: past ∧
    Consent server i upgrade (w.emit (.parsed i (w.buffer i) upgrade)) h ∧
    h.trace ++ [.approved i] <+: past ∧
    Effects server (fun _ => True) { w with toHub := h.emit (.approved i) } final

theorem LetIn.mono {server : Server} {env : Env} {final : World} {i : ConnId} {past later : Trace}
    (letIn : LetIn server env final i past) (grows : past <+: later) :
    LetIn server env final i later := by
  obtain ⟨w, upgrade, h, reached, parsed, noted, consent, approved, goes⟩ := letIn
  exact ⟨w, upgrade, h, reached, parsed, noted.trans grows, consent, approved.trans grows, goes⟩

theorem LetIn.next {server : Server} {env : Env} {final final' : World} {i : ConnId} {past : Trace}
    (letIn : LetIn server env final i past) (effect : Effect server (fun _ => True) final final') :
    LetIn server env final' i past := by
  obtain ⟨w, upgrade, h, reached, parsed, noted, consent, approved, goes⟩ := letIn
  exact ⟨w, upgrade, h, reached, parsed, noted, consent, approved, goes.trans (.single effect)⟩

/-- Who is approved is let in. -/
def ApprovalRule (server : Server) (env : Env) (final : World) (past : Trace) (e : Event) : Prop :=
  ∀ i, e = .approved i → LetIn server env final i (past ++ [e])

section

variable {server : Server} {env : Env} {most : Nat} {served : ConnId → Prop} {h h' : Hub}

theorem ApprovalRule.plain {e : Event} (plain : e.isApproved = false) (final : World) (past : Trace) :
    ApprovalRule server env final past e := by
  rintro i rfl
  cases plain

theorem Deed.news (deed : Deed most served h h') :
    ∃ news, h'.trace = h.trace ++ news ∧ ∀ e ∈ news, e.isApproved = false := by
  cases deed with
  | @frame i source payload opcode valid =>
      simp only [Hub.sendFrame]
      split
      · exact ⟨[.frame i source opcode payload], rfl, by simp [Event.isApproved]⟩
      · exact ⟨[], (List.append_nil _).symm, by simp⟩
  | @emit e other plain own => exact ⟨[e], rfl, by simpa using plain⟩
  | _ => exact ⟨[], (List.append_nil _).symm, by simp⟩

theorem Deeds.news (deeds : Deeds most served h h') :
    ∃ news, h'.trace = h.trace ++ news ∧ ∀ e ∈ news, e.isApproved = false := by
  induction deeds with
  | refl => exact ⟨[], (List.append_nil _).symm, by simp⟩
  | tail _ deed ih =>
      obtain ⟨first, before, plain⟩ := ih
      obtain ⟨next, after, more⟩ := deed.news
      refine ⟨first ++ next, by rw [after, before, List.append_assoc], ?_⟩
      intro e mem
      exact (List.mem_append.mp mem).elim (plain e) (more e)

theorem Consent.prefix_of {i : ConnId} {upgrade : HttpUpgrade}
    (consent : Consent server i upgrade h h') : h.trace <+: h'.trace := by
  cases consent with
  | unasked => exact List.prefix_rfl
  | @accepted onHandshake _ some called =>
      have deeds : Deeds 0 (fun _ => True) h _ := h.callHandshakeHandler_deeds i
        ⟨upgrade.method, upgrade.target, requestHeaders upgrade.headers⟩
        (onHandshake ⟨upgrade.method, upgrade.target, requestHeaders upgrade.headers⟩)
      rw [called] at deeds
      obtain ⟨news, same, -⟩ := deeds.news
      exact ⟨news, same.symm⟩

/-- An approval is behind the parser and the callback, and nothing else approves. -/
theorem Effect.approvals {w w' : World} (effect : Effect server (fun _ => True) w w')
    (reached : Effects server (fun _ => True) (World.start env) w)
    (before : Guarded (ApprovalRule server env w) w.trace) :
    Guarded (ApprovalRule server env w') w'.trace := by
  have guarded : Guarded (ApprovalRule server env w') w.trace := fun past e rest split i approved =>
    (before past e rest split i approved).next effect
  have later {h : Hub} (told : ∃ news, h.trace = w.trace ++ news ∧ ∀ e ∈ news, e.isApproved = false) :
      Guarded (ApprovalRule server env w') h.trace := by
    obtain ⟨news, same, plain⟩ := told
    rw [same]
    exact guarded.append fun e mem => ApprovalRule.plain (plain e mem) w'
  cases effect with
  | deed deed => exact later deed.news
  | @approve i upgrade h parsed consent told =>
      refine (later told.news).snoc ?_
      rintro j same
      injection same with same
      subst same
      have noted := consent.prefix_of.trans (List.prefix_append h.trace [.approved i])
      exact ⟨w, upgrade, h, reached, parsed, noted, consent, List.prefix_rfl, Effects.refl _⟩
  | admission fd =>
      cases watched : (w.env.now.2.watchRead fd).1 with
      | true =>
          rw [World.openConnection_watched watched]
          exact guarded.snoc (ApprovalRule.plain rfl _ _)
      | false =>
          rw [World.openConnection_unwatched watched]
          exact guarded
  | remove here told => exact later told.news
  | unlisten =>
      have same : w.unlistened.trace = w.trace := by
        simp only [Hub.unlistened]
        split <;> rfl
      change Guarded _ w.unlistened.trace
      rw [same]
      exact guarded
  | answered | stamp | beat | upgrade | fill | discard | listen => exact guarded

theorem Effects.approvals {w : World}
    (effects : Effects server (fun _ => True) (World.start env) w) :
    Guarded (ApprovalRule server env w) w.trace := by
  induction effects with
  | refl => exact Guarded.nil
  | tail reached effect ih => exact effect.approvals reached ih

/-- The 101 and the open callback are for who has been approved, so for who is let in. -/
theorem Approved.letIn {final : World} {i : ConnId} {past rest : Trace} {e : Event}
    (guarded : Guarded (ApprovalRule server env final) (past ++ e :: rest))
    (approved : Approved server (past.of i)) : LetIn server env final i past := by
  obtain ⟨verdict, mem, isApproved⟩ := List.any_eq_true.mp approved.approved
  obtain ⟨logged, about⟩ := List.mem_filter.mp mem
  cases verdict with
  | approved j =>
      obtain ⟨before, after, rfl⟩ := List.append_of_mem logged
      have same : j = i := by simpa [Event.about] using about
      subst same
      have letIn := guarded before (.approved j) (after ++ e :: rest) (by simp) j rfl
      exact letIn.mono ⟨after, by simp⟩
  | _ => cases isApproved

end

/-! ## No end goes untold -/

/-- As long as no exception is pending, an upgraded connection is in the table or its
    end has been told. -/
def EndsTold (h : Hub) : Prop :=
  h.Quiet → ∀ i, (h.conn i).upgraded = true → i ∈ h.connections ∨ (h.conn i).closeNotified = true

theorem Life.Step.upgrades {server : Server} {i : ConnId} {quiet listed : Prop} {a b : Life}
    (step : Life.Step server i quiet listed a b) (upgraded : b.conn.upgraded = true) :
    (a.conn.upgraded = true ∨ a.conn.isOpen = true) ∧
      (a.conn.closeNotified = true → b.conn.closeNotified = true) := by
  cases step with
  | create => cases upgraded
  | accepted | submit | parsed | ask | approve | deliver => exact ⟨Or.inl upgraded, id⟩
  | yield yields =>
      exact ⟨Or.inl (yields.upgraded.symm.trans upgraded), yields.closeNotified.trans⟩
  | send _ _ _ yields =>
      exact ⟨Or.inl (yields.upgraded.symm.trans upgraded), yields.closeNotified.trans⟩
  | bye _ _ _ _ _ yields =>
      exact ⟨Or.inl (yields.upgraded.symm.trans upgraded), yields.closeNotified.trans⟩
  | reject => exact ⟨Or.inl upgraded, id⟩
  | upgrade isOpen => exact ⟨Or.inr isOpen, id⟩
  | notify => exact ⟨Or.inl upgraded, fun _ => rfl⟩

theorem Act.accounted {server : Server} (registered : ∀ t, (server.handlers t).onClose.isSome)
    {h h' : Hub} (act : Act server h h') (ground : Grounded h) (accounted : EndsTold h) :
    EndsTold h' := by
  intro quiet j upgraded
  have wasQuiet : h.Quiet := act.exception.symm.trans quiet
  cases act with
  | own i born step calm others connections =>
      rw [connections]
      by_cases same : j = i
      · subst same
        obtain ⟨was, told⟩ := step.upgrades upgraded
        rcases was with used | isOpen
        · exact (accounted wasQuiet j used).imp_right told
        · exact Or.inl (ground.present j isOpen)
      · have conn : h'.conn j = h.conn j := congrArg Life.conn (others j same)
        rw [conn] at upgraded ⊢
        exact accounted wasQuiet j upgraded
  | world lives connections =>
      have conn : h'.conn j = h.conn j := congrArg Life.conn (lives j)
      rw [conn] at upgraded ⊢
      rw [connections]
      exact accounted wasQuiet j upgraded
  | enlist i born => exact (accounted wasQuiet j upgraded).imp_left (List.mem_append_left _)
  | @remove index i here closed told =>
      rcases accounted wasQuiet j upgraded with listed | notified
      · obtain ⟨k, within, atK⟩ := List.getElem_of_mem listed
        by_cases same : k = index
        · subst same
          rw [List.getElem?_eq_getElem within, atK] at here
          cases here
          exact Or.inr (told wasQuiet registered upgraded)
        · refine Or.inl (List.mem_eraseIdx_iff_getElem?.mpr ⟨k, same, ?_⟩)
          rw [List.getElem?_eq_getElem within, atK]
      · exact Or.inr notified

theorem Moves.accounted {server : Server} (registered : ∀ t, (server.handlers t).onClose.isSome)
    {h h' : Hub} (moves : Moves server h h') (ground : Grounded h) (accounted : EndsTold h) :
    EndsTold h' := by
  induction moves with
  | refl => exact accounted
  | tail moves move ih =>
      cases move with
      | act act => exact act.accounted registered (Moves.grounded moves ground) ih
      | ask | seen => exact ih
      | raise =>
          intro quiet
          cases quiet

/-! ## The table at the end of a run -/

namespace Hub

variable {server : Server} {h : Hub}

theorem runtimeClose_empty (settled : Settled h) (quiet : (h.runtimeClose server true).Quiet) :
    (h.runtimeClose server true).connections = [] := by
  have first : Acts server h h.unlistened := unlistened_acts h
  have after := settled.acts first
  have closing : Handles server h.unlistened []
      (h.unlistened.closeAllConnections server true) := closeAllFrom_handles after _
  rw [runtimeClose_eq] at quiet ⊢
  dsimp only at quiet ⊢
  split
  · rename_i ok
    exact closeAllFrom_empty _ _ true (Nat.le_refl _) ok
  · rename_i failed
    rw [if_neg failed] at quiet
    have pending : ¬ (h.unlistened.closeAllConnections server true).2.Quiet :=
      fun quiet => failed (closing.quiet_true quiet)
    have rest : Acts server (h.unlistened.closeAllConnections server true).2
        ((h.unlistened.closeAllConnections server true).2.closeAllConnections server false).2 :=
      closeAllFrom_acts (closing.moves.grounded after.grounded) pending _
    exact absurd (rest.exception.symm.trans quiet) pending

end Hub

theorem returned_empty {server : Server} {env : Env} {waits : List WaitResult} {ok : Bool}
    {w : World} (returned : (World.start env).runtimeRun server waits = .returned ok w)
    (quiet : w.Quiet) : w.connections = [] := by
  have post := World.runtimeRun_post server (World.start_settled env) waits
  rw [returned] at post
  cases post with
  | failed _ pending => exact absurd quiet pending
  | @left before _ _ moves settled closed =>
      have closing : Moves server before.toHub w.toHub := by
        rw [closed]
        exact Hub.runtimeClose_moves server (moves.grounded (World.start_settled env).grounded)
          fun quiet => (settled quiet).unasked
      have wasQuiet := closing.quiet quiet
      have noException : before.env.exception = none := wasQuiet
      rw [noException] at closed
      rw [Hub.Quiet, closed] at quiet
      rw [closed]
      exact Hub.runtimeClose_empty (settled wasQuiet) quiet

/-! ## The lifecycle -/

/-- For every connection of every run: one response and one call of each callback at
    most, each in its order, and the 101 and `on_open` only for who is let in. If `on_close` is
    registered throughout and the run ends without an exception, it has been called once for
    every upgraded connection. -/
theorem callback_lifecycle (server : Server) (env : Env) (waits : List WaitResult) (i : ConnId)
    (registered : ∀ t, (server.handlers t).onClose.isSome) :
    let run := (World.start env).runtimeRun server waits
    let log := run.world.trace.of i
    (Guarded (LifecycleRule server) log ∧ log.countP Event.isResponse ≤ 1 ∧
      log.countP Event.isHandshake ≤ 1 ∧ log.countP Event.isOpened ≤ 1 ∧
      log.countP Event.isClosed ≤ 1 ∧
      ∀ past e rest, run.world.trace = past ++ e :: rest →
        e = .response i 101 true ∨ e = .opened i → LetIn server env run.world i past) ∧
      ∀ ok w, run = .returned ok w → w.Quiet → (w.conn i).upgraded = true →
        (w.trace.of i).countP Event.isClosed = 1 := by
  intro run log
  have lawful : Lawful server i (run.world.toHub.life i) :=
    run_invariant Lawful.start (fun step lawful => step.lawful lawful) env waits
  have once : ∀ p : Event → Bool,
      (∀ past e, LifecycleRule server past e → p e = true → past.any p = false) → log.countP p ≤ 1 := by
    intro p alone
    apply lawful.guarded.countP_le_one p
    intro past e rule isP e' mem
    simpa using List.any_eq_false.mp (alone past e rule isP) e' mem
  have closedOnce : (run.world.trace.of i).countP Event.isClosed ≤ 1 := by
    apply once _
    intro past e rule isP
    cases e <;> first | exact rule.1 | cases isP
  refine ⟨⟨lawful.guarded, once _ ?_, once _ ?_, once _ ?_, closedOnce, ?_⟩, ?_⟩
  · intro past e rule isP
    cases e <;> first | exact rule.1 | cases isP
  · intro past e rule isP
    cases e <;> first | exact rule | cases isP
  · intro past e rule isP
    cases e <;> first | exact rule.1 | cases isP
  · intro past e rest split which
    have guarded : Guarded (ApprovalRule server env run.world) run.world.trace :=
      (World.runtimeRun_effects server _ (fun _ => trivial) waits).approvals
    have rule : LifecycleRule server (past.of i) e := by
      apply lawful.guarded (past.of i) e (Trace.of rest i)
      change run.world.trace.of i = _
      rw [split, Trace.of, List.filter_append, List.filter_cons_of_pos]
      · rfl
      · rcases which with rfl | rfl <;> simp [Event.about]
    rw [split] at guarded
    rcases which with rfl | rfl
    · exact (rule.2 rfl rfl).letIn guarded
    · exact rule.2.2.2.letIn guarded
  · intro ok w returned quiet upgraded
    have world : run.world = w := by rw [returned]; rfl
    have accounted : EndsTold run.world.toHub :=
      (World.runtimeRun_moves (World.start_settled env) waits).accounted registered
        (World.start_settled env).grounded fun _ j used => absurd used Bool.false_ne_true
    rw [world] at accounted lawful closedOnce
    have empty := returned_empty returned quiet
    have told : (w.conn i).closeNotified = true := by
      rcases accounted quiet i upgraded with listed | told
      · rw [empty] at listed
        cases listed
      · exact told
    have seen : (w.trace.of i).any Event.isClosed = true := lawful.told.trans told
    obtain ⟨e, mem, isClosed⟩ := List.any_eq_true.mp seen
    exact Nat.le_antisymm closedOnce (List.countP_pos_iff.mpr ⟨e, mem, isClosed⟩)

/-- A connection that is upgraded, and a run that `on_open` stops. -/
theorem callback_lifecycle_stopped :
    let nothing : Script := .finish (.returned .null)
    let server : Server :=
      { options := .array fun _ => none
        handlers := fun _ =>
          { onOpen := some (.takesNothing (.call .stop fun _ => nothing))
            onClose := some fun _ => nothing }
        lib := sampleLib }
    let env : Env := { accepts := [.client 5 none], recvs := [.data sampleRequestChunk] }
    ∃ w, (World.start env).runtimeRun server [.ready 3] = .returned true w ∧
      (w.conn 0).upgraded = true ∧ (w.trace.of 0).countP Event.isClosed = 1 := by
  intro nothing server env
  have evaluated : (match (World.start env).runtimeRun server [.ready 3] with
      | .returned ok w => ok && w.env.exception.isNone && (w.conn 0).upgraded
      | .waiting _ => false) = true := by decide +kernel
  cases atRun : (World.start env).runtimeRun server [.ready 3] with
  | waiting w =>
      rw [atRun] at evaluated
      cases evaluated
  | returned ok w =>
      rw [atRun] at evaluated
      simp only [Bool.and_eq_true, Option.isNone_iff_eq_none] at evaluated
      obtain ⟨⟨rfl, quiet⟩, upgraded⟩ := evaluated
      have told := (callback_lifecycle server env [.ready 3] 0 fun _ => rfl).2 true w atRun quiet upgraded
      exact ⟨w, rfl, upgraded, told⟩

end PhpWebSocket
