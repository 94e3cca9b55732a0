import PhpWebSocket.Inbound

/-! # From the socket to the callback

In any order of events, for any callbacks: what `on_message` has been given for a connection
is a function of the octets that have been taken off its socket. A client that writes
messages in frames therefore has them delivered one by one, however it cuts and masks them
and whatever Pings it sends between.
-/

namespace PhpWebSocket

open Lib Relation Kernel

namespace Kernel

variable {k k' : Kernel} {i : ConnId} {used : List RecvResult} {ticks : List Nat}

theorem Serves.heard (serves : k.Serves i used ticks k') :
    octetsAt (k'.sockets i).taken = octetsAt (k.sockets i).taken ++ octetsOf used := by
  induction serves with
  | done => exact (List.append_nil _).symm
  | @data k k₁ k₂ k' chunk used ticks grows front later serves ih =>
      have taken := (later.sockets i).taken
      rw [setSocket_self] at taken
      rw [ih, taken, Inbox.take, octetsAt_append, (grows.sockets i).taken, octetsOf, List.append_assoc]
      rw [show octetsAt (List.take chunk.octets.length (k₁.sockets i).waiting) = _ from front]
  | eof grows _ _ ih | failed grows _ _ ih =>
      rw [ih, (grows.sockets i).taken]
      rfl

end Kernel

theorem Trace.messages_of_unused {t : Trace} {i : ConnId} (unused : t.of i = []) : t.messages i = [] := by
  rw [Trace.messages, List.filterMap_eq_nil_iff]
  intro e mem
  apply Event.message?_of_receiver
  intro receiver
  have about : e.about = some i := by
    cases e with
    | message j type payload conn => exact receiver
    | _ => cases receiver
  have listed : e ∈ t.of i := List.mem_filter.mpr ⟨mem, decide_eq_true about⟩
  rw [unused] at listed
  cases listed

/-- Every connection from `first` on stands where the octets taken off its socket have brought
    it. -/
def Delivering (server : Server) (first : ConnId) (m : Site) : Prop :=
  ∀ i, first ≤ i → Received server i (octetsAt (m.kernel.sockets i).taken) m.world

namespace Delivering

variable {server : Server} {listener : Nat} {first : ConnId} {m m' : Site} {label : Label}

theorem aside {w w' : World} {k k' : Kernel} {phase phase' : Phase}
    (delivering : Delivering server first ⟨w, k, phase⟩) (effects : Effects server (fun _ => False) w w')
    (taken : ∀ i, (k'.sockets i).taken = (k.sockets i).taken) :
    Delivering server first ⟨w', k', phase'⟩ := by
  intro i new
  change Received server i (octetsAt (k'.sockets i).taken) w'
  rw [taken i]
  exact effects.received id (delivering i new)

/-- A call for one connection delivers what it takes off that socket. -/
theorem call {w w' : World} {k mid k' : Kernel} {phase phase' : Phase} {i : ConnId}
    {used : List RecvResult} (delivering : Delivering server first ⟨w, k, phase⟩)
    (call : Kernel.Call i w w' used k mid k') (effects : Effects server (· = i) w w')
    (next : w'.nextConnectionId = w.nextConnectionId) (born : i < w.nextConnectionId)
    (own : Inbound server i (octetsAt (k.sockets i).taken) w →
      Consumes server i (octetsAt (k.sockets i).taken) w.env.recvs w') :
    Delivering server first ⟨w', k', phase'⟩ := by
  obtain ⟨ticks, -, serves⟩ := call.serves
  intro j new
  change Received server j (octetsAt (k'.sockets j).taken) w'
  rw [(call.later.sockets j).taken]
  by_cases same : j = i
  · subst same
    obtain ⟨mine, taken, inbound⟩ := own (delivering j new).inbound
    have agree : mine = used := List.append_cancel_right (taken.symm.trans call.recvs)
    rw [serves.heard, ← agree]
    exact .of_born (next ▸ born) inbound
  · rw [(serves.others same).taken]
    exact effects.received same (delivering j new)

theorem step (listens : server.Listens) (attentive : Attentive server listener m)
    (delivering : Delivering server first m) (step : Site.Step server m label m') : Delivering server first m' := by
  cases step with
  | arrive grows => exact delivering.aside (.refl _) fun i => (grows.sockets i).taken
  | @interrupt w k going =>
      exact delivering.aside (.single (w.setErrno_effect server .eintr)) fun _ => rfl
  | timeout => exact delivering.aside (.refl _) fun _ => rfl
  | @listener w k mid k' fd used going listening unused ok accepts =>
      refine delivering.aside (World.acceptLoop_effects server w _ 0) fun i => ?_
      exact (accepts.later.sockets i).taken.trans (accepts.served.sockets i).taken
  | @ready w k k' fd clock going other reported readable =>
      refine delivering.aside (.single (w.tick_effect server)) fun i => ?_
      rcases reported with rfl | rfl
      · exact (k.report_taken w fd i).1
      · rfl
  | absent => exact delivering.aside (.refl _) fun _ => rfl
  | @serve w k mid k' fd nowUsec i used found ok call =>
      have born := attentive.tidy.known i (World.findFd_eq_some found).1
      have heeds := World.serveReady_heeds server (i := i) w nowUsec
      have effects : Effects server (· = i) w (w.serveReady server i nowUsec).2 :=
        @World.serveReady_effects server (· = i) i w rfl nowUsec
      exact delivering.call call effects heeds.tends.next born fun inbound =>
        World.serveReady_inbound listens born inbound nowUsec
  | @scan w k clock readable => exact delivering.aside (.single (w.tick_effect server)) fun _ => rfl
  | @check w k mid k' nowUsec i rest used ok call =>
      have born := (attentive.clocked.2 i List.mem_cons_self).1
      have heeds := World.processConnection_heeds server (i := i) w nowUsec
      have effects : Effects server (· = i) w (w.processConnection server i nowUsec).2 :=
        @World.processConnection_effects server (· = i) i w rfl nowUsec
      exact delivering.call call effects heeds.tends.next born fun inbound =>
        World.processConnection_inbound listens born inbound nowUsec
  | @purge w k nowUsec ok =>
      exact delivering.aside (World.purgeFrom_effects server w _ 0) fun _ => rfl

theorem walk (listens : server.Listens) {meets : Site → Label → Site → Prop}
    (attentive : Attentive server listener m) (delivering : Delivering server first m)
    (walk : Site.Walk server meets m m') : Delivering server first m' := by
  induction walk with
  | start => exact delivering
  | step walk step _ ih => exact ih.step listens (attentive.walk walk) step

theorem start (start : m.Starts listener) (ground : Grounded m.world.toHub) :
    Delivering server m.world.nextConnectionId m := by
  intro i new
  rw [start.untaken i]
  have unborn := ground.unborn i new
  have conn : m.world.conn i = {} := congrArg Life.conn unborn
  have fresh : (m.world.conn i).upgraded = false := congrArg Connection.upgraded conn
  refine ⟨fun _ => ⟨fresh, rfl⟩, fun _ => ⟨?_, fun opened => ?_⟩, fun asked => ?_⟩
  · exact Trace.messages_of_unused (congrArg Life.log unborn)
  · exact absurd ((congrArg Connection.isOpen conn).symm.trans opened) Bool.false_ne_true
  · exact absurd (fresh.symm.trans asked) Bool.false_ne_true

end Delivering

/-! ## A greeting -/

/-- A server that takes messages and does nothing with them. -/
def listeningServer : Server where
  options := .array fun _ => none
  handlers := fun _ => { onMessage := some fun _ _ _ => .finish (.returned .null) }
  lib := sampleLib

theorem listeningServer_listens : listeningServer.Listens := fun _ => rfl

/-- A request with a message of two octets right behind it. -/
def greeting : Chunk where
  octets := sampleRequest ++ [0x81, 0x82, 1, 2, 3, 4, 0x49, 0x6b]
  nonempty := by decide +kernel
  fits := by decide +kernel

/-- The server waits for the client. -/
def greeted : Site where
  world := (World.start
    { accepts := [.client 5 none, .failed .eagain, .failed .eagain]
      recvs := [.data greeting, .failed .eagain]
      clock := [1, 1, 1] }).listens 3
  kernel := {}
  phase := .waiting

theorem greeted_starts : greeted.Starts 3 where
  world := ⟨_, ⟨rfl, rfl, fun _ => ⟨rfl, rfl⟩, {}, rfl, fun _ => rfl, fun _ => rfl⟩, rfl, rfl⟩
  untaken _ := rfl
  signalled _ := Inbox.signalled_of_empty rfl
  backlog := Inbox.signalled_of_empty rfl
  past _ _ := nofun
  phase := rfl

theorem greeted_grounded : Grounded greeted.world.toHub where
  listed _ := nofun
  present _ opened := absurd opened Bool.false_ne_true
  unborn _ _ := rfl

theorem greeted_walk : ∃ m, Site.Walk listeningServer (fun _ _ _ => True) greeted m ∧
    octetsAt (m.kernel.sockets 0).taken = greeting.octets ∧ (m.world.conn 0).Reading := by
  let seat (clock : List Nat) : World := seated [.data greeting, .failed .eagain] clock
  let arrived : Kernel := { backlog := { waiting := [()], marked := true }, time := 1 }
  let k₁ := Kernel.accepted.setSocket 0
    ((Kernel.accepted.sockets 0).arrive (sentAtOne greeting.octets))
  let k₂ := k₁.setSocket 0 ((k₁.sockets 0).take greeting.octets.length)
  have arrives : Site.Step listeningServer greeted .quiet ⟨greeted.world, arrived, .waiting⟩ :=
    .arrive ⟨Nat.zero_le 1, fun _ => Inbox.Grows.refl _, [()], fun _ _ => trivial, rfl⟩
  have accepts : Site.Step listeningServer ⟨greeted.world, arrived, .waiting⟩
      (.accepted [.client 5 none, .failed .eagain] Kernel.accepted)
      ⟨seat [1, 1], Kernel.accepted, .served⟩ := by
    have unused : greeted.world.AcceptsUnused listeningServer
        [.client 5 none, .failed .eagain, .failed .eagain] 0 := by
      refine fun _ => ⟨⟨fun same => absurd (Option.some.inj same) (by decide), fun _ => nofun⟩,
        fun _ _ => ⟨trivial, ?_, ?_⟩, ?_⟩
      · intro ok
        exact absurd ok Bool.false_ne_true
      · intro _ _ interrupted
        exact absurd (Option.some.inj interrupted) nofun
      · intro failed
        exact absurd failed.symm Bool.false_ne_true
    refine .listener ⟨rfl, rfl⟩ rfl unused rfl
      ⟨rfl, nofun, ?_, ⟨[1], rfl, ?_⟩, Kernel.Grows.refl _⟩
    · refine .client (Kernel.Grows.refl _) nofun ?_
      exact .failed 0 (Kernel.Grows.refl _) (fun _ => rfl) (.done _)
    · simp [Kernel.reportBacklog, Kernel.accepted, arrived]
  have speaks : Site.Step listeningServer ⟨seat [1, 1], Kernel.accepted, .served⟩ .quiet
      ⟨seat [1, 1], k₁, .served⟩ := by
    refine .arrive (Kernel.accepted.grows_arrive 0 ?_)
    intro a mem
    obtain ⟨octet, -, rfl⟩ := List.mem_map.mp mem
    rfl
  have scans : Site.Step listeningServer ⟨seat [1, 1], k₁, .served⟩ .quiet
      ⟨seat [1], k₁, .scanning 1 [0]⟩ := .scan rfl
  have length : (sentAtOne greeting.octets).length = greeting.octets.length := List.length_map ..
  have waiting : (k₁.sockets 0).waiting = sentAtOne greeting.octets :=
    congrArg Inbox.waiting (Kernel.setSocket_self ..)
  have call : Kernel.Call 0 (seat [1]) ((seat [1]).processConnection listeningServer 0 1).2
      [.data greeting] k₁ k₂ k₂ := by
    refine ⟨?_, ?_, ⟨[1], ?_, .data (Kernel.Grows.refl _) ?_ (Kernel.Grows.refl _) (.done _)⟩,
      Kernel.Grows.refl _⟩
    · decide +kernel
    · decide +kernel
    · decide +kernel
    · rw [waiting, ← length, List.take_length, sentAtOne_octets]
  have checks : Site.Step listeningServer ⟨seat [1], k₁, .scanning 1 [0]⟩ (.checked 0 [.data greeting] k₂)
      ⟨((seat [1]).processConnection listeningServer 0 1).2, k₂, .scanning 1 []⟩ :=
    .check (by decide +kernel) call
  refine ⟨_, ((((Site.Walk.start _).step arrives trivial).step accepts trivial).step speaks
    trivial |>.step scans trivial).step checks trivial, ?_, by decide +kernel⟩
  obtain ⟨ticks, -, serves⟩ := call.serves
  have untaken : (k₁.sockets 0).taken = [] := congrArg Inbox.taken (Kernel.setSocket_self ..)
  have heard := serves.heard
  rw [untaken] at heard
  exact heard.trans (List.append_nil _)

/-! ## What is delivered -/

/-- What `on_message` has been given for a connection are the messages of the reference
    receiver for the frames that its octets go on with behind the opening request; and while
    it reads, these are all the frames there are. -/
theorem messages_follow_stream {server : Server} {listener : Nat} {m m' : Site}
    (start : m.Starts listener) (ground : Grounded m.world.toHub) (listens : server.Listens)
    (walk : Site.Walk server (fun _ _ _ => True) m m') {i : ConnId}
    (new : m.world.nextConnectionId ≤ i) :
    ((m'.world.conn i).upgraded = false ∧ m'.world.trace.messages i = []) ∨
      ∃ head frames rest,
        Conversation server (octetsAt (m'.kernel.sockets i).taken) head frames rest ∧
        m'.world.trace.messages i = (Receiver.run frames).messages ∧
        ((m'.world.conn i).Reading →
          parseFrame rest server.options.maxMessageSize = .incomplete) := by
  have attentive : Attentive server listener m := start.attentive
  have received := (Delivering.start start ground).walk listens attentive walk i new
  cases asked : (m'.world.conn i).upgraded with
  | false => exact Or.inl ⟨rfl, (received.inbound.fresh asked).1⟩
  | true =>
      obtain ⟨head, frames, rest, conversation, follows, left⟩ := received.inbound.going asked
      refine Or.inr ⟨head, frames, rest, conversation, follows.messages, fun reading => ?_⟩
      have born : i < m'.world.nextConnectionId := by
        by_contra before
        exact Bool.false_ne_true ((received.unborn (Nat.le_of_not_lt before)).1.symm.trans asked)
      rw [left reading]
      exact ((attentive.walk walk).ready i born).level reading

theorem messages_follow_stream_greeting : ∃ m : Site, ∃ head, ∃ frames rest,
    Conversation listeningServer greeting.octets head frames rest ∧
      m.world.trace.messages 0 = (Receiver.run frames).messages ∧
      parseFrame rest listeningServer.options.maxMessageSize = .incomplete := by
  obtain ⟨m, walk, octets, reading⟩ := greeted_walk
  rcases messages_follow_stream greeted_starts greeted_grounded listeningServer_listens walk
    (Nat.zero_le 0) with ⟨fresh, -⟩ | ⟨head, frames, rest, conversation, delivered, complete⟩
  · exact absurd (fresh.symm.trans reading.2.2) Bool.false_ne_true
  · rw [octets] at conversation
    exact ⟨m, head, frames, rest, conversation, delivered, complete reading⟩

/-! ## A client -/

/-- The parts of messages among frames, up to the first Close. -/
def partsOf (frames : List ServerFrame) : List (Part UInt8 UInt8) :=
  ((frames.takeWhile fun frame => frame.opcode ≠ opcodeClose).filter
    fun frame => !opcodeIsControl frame.opcode).map ServerFrame.part

section

variable {frame : ServerFrame} {rest : List ServerFrame}

theorem partsOf_close (close : frame.opcode = opcodeClose) : partsOf (frame :: rest) = [] := by
  simp [partsOf, close]

theorem partsOf_control (open_ : frame.opcode ≠ opcodeClose) (control : opcodeIsControl frame.opcode = true) :
    partsOf (frame :: rest) = partsOf rest := by
  simp [partsOf, open_, control]

theorem partsOf_data (data : opcodeIsControl frame.opcode = false) :
    partsOf (frame :: rest) = frame.part :: partsOf rest := by
  have open_ : frame.opcode ≠ opcodeClose := by
    intro close
    rw [close] at data
    cases data
  simp [partsOf, open_, data]

end

namespace Receiver

variable {maxMessageSize : Nat} {m : Receiver}

theorem messages_of_closed (closed : m.stage = .closed) (frames : List ServerFrame) :
    (frames.foldl (fun m frame => m.step maxMessageSize frame) m).messages = m.messages := by
  induction frames with
  | nil => rfl
  | cons frame rest ih => rw [List.foldl_cons, m.step_closed closed, ih]

/-- The receiver delivers what the assembler makes of the parts; control frames do not matter. -/
theorem messages_foldl {pending : Pending UInt8 UInt8} (stage : m.stage = .reading pending)
    {frames : List ServerFrame} (valid : ∀ frame ∈ frames, opcodeIsValid frame.opcode) :
    (frames.foldl (fun m frame => m.step maxMessageSize frame) m).messages =
      m.messages ++ (PhpWebSocket.messages maxMessageSize).run pending (partsOf frames) := by
  induction frames generalizing m pending with
  | nil => exact (List.append_nil _).symm
  | cons frame rest ih =>
      have later := fun frame mem => valid frame (List.mem_cons_of_mem _ mem)
      rw [List.foldl_cons, step, stage]
      dsimp only
      by_cases ping : frame.opcode = opcodePing
      · rw [if_pos ping, ih rfl later, messages_react,
          partsOf_control (by rw [ping]; decide) (by rw [ping]; rfl)]
        simp [Reaction.message?]
      rw [if_neg ping]
      by_cases pong : frame.opcode = opcodePong
      · rw [if_pos pong, ih stage later, partsOf_control (by rw [pong]; decide) (by rw [pong]; rfl)]
      rw [if_neg pong]
      by_cases close : frame.opcode = opcodeClose
      · rw [if_pos close, messages_of_closed rfl, messages_react, partsOf_close close]
        simp [Reaction.message?, Assembler.run]
      rw [if_neg close]
      have data : opcodeIsControl frame.opcode = false := by
        rcases Hub.valid_opcodes (valid frame List.mem_cons_self) with
          same | same | same | same | same | same
        · rw [same]; rfl
        · rw [same]; rfl
        · rw [same]; rfl
        · exact absurd same close
        · exact absurd same ping
        · exact absurd same pong
      rw [partsOf_data data, Assembler.run]
      cases (PhpWebSocket.messages maxMessageSize).take pending frame.part with
      | waiting pending => exact ih rfl later
      | message opcode payload =>
          rw [assembled, ih rfl later, messages_react]
          simp [Reaction.message?]
      | misplaced | tooLong | malformed =>
          rw [assembled, messages_of_closed rfl, messages_react]
          simp [Reaction.message?]

end Receiver

/-- A frame as a client packs it. -/
structure ClientFrame (maxMessageSize : Nat) where
  endian : Endian
  mask : MaskKey
  opcode : UInt8
  final : Bool
  payload : Bytes
  octets : Bytes
  packs : packPayload endian (some mask) payload opcode (clientFlags final) = some octets
  acceptable : Acceptable maxMessageSize ⟨opcode, final, octets.length, payload⟩
  small : payload.length < 2 ^ 63

namespace ClientFrame

variable {maxMessageSize : Nat}

def frame (client : ClientFrame maxMessageSize) : ServerFrame :=
  ⟨client.opcode, client.final, client.octets.length, client.payload⟩

/-- The server accepts the frame for what it is. -/
def accepted (client : ClientFrame maxMessageSize) : AcceptedFrame maxMessageSize where
  octets := client.octets
  frame := client.frame
  parsed := by
    have packed := client.packs
    rw [packPayload_client, Option.some_inj] at packed
    have parsed := parseFrame_clientFrame client.mask client.frame [] maxMessageSize client.acceptable
      client.small (congrArg List.length packed.symm)
    rw [List.append_nil] at parsed
    exact packed ▸ parsed
  whole := rfl

end ClientFrame

/-- A message in the pieces in which a client sends it. -/
structure ClientMessage (maxMessageSize : Nat) where
  opcode : UInt8
  piece : Bytes
  pieces : List Bytes
  kind : opcode = opcodeText ∨ opcode = opcodeBinary
  valid : opcode = opcodeText → isValidUtf8 (piece ++ pieces.flatten)
  fits : (piece ++ pieces.flatten).length ≤ maxMessageSize

namespace ClientMessage

variable {maxMessageSize : Nat}

def content (message : ClientMessage maxMessageSize) : UInt8 × Bytes :=
  (message.opcode, message.piece ++ message.pieces.flatten)

def parts (message : ClientMessage maxMessageSize) : List (Part UInt8 UInt8) :=
  Part.cut message.opcode message.piece message.pieces

theorem run_parts (ms : List (ClientMessage maxMessageSize)) :
    (messages maxMessageSize).run none (ms.flatMap parts) = ms.map content := by
  induction ms with
  | nil => rfl
  | cons message rest ih =>
      have valid : (messages maxMessageSize).wellFormed message.opcode
          (message.piece ++ message.pieces.flatten) = true := by
        simp only [messages, Bool.or_eq_true, decide_eq_true_eq]
        exact or_iff_not_imp_left.mpr fun text => message.valid (not_not.mp text)
      rw [List.flatMap_cons, parts, Assembler.run_cut message.fits valid, ih]
      rfl

end ClientMessage

theorem Receiver.messages_run {maxMessageSize : Nat} (frames : List (AcceptedFrame maxMessageSize)) :
    (Receiver.run frames).messages =
      (PhpWebSocket.messages maxMessageSize).run none (partsOf (frames.map AcceptedFrame.frame)) := by
  have valid : ∀ frame ∈ frames.map AcceptedFrame.frame, opcodeIsValid frame.opcode := by
    intro frame mem
    obtain ⟨accepted, -, rfl⟩ := List.mem_map.mp mem
    exact (clientFrame_of_parseFrame accepted.parsed).1.opcode
  have delivered := @Receiver.messages_foldl maxMessageSize {} none rfl _ valid
  rw [List.foldl_map] at delivered
  exact delivered

theorem partsOf_prefix (frames tail : List ServerFrame) :
    partsOf frames <+: partsOf (frames ++ tail) := by
  induction frames with
  | nil => exact List.nil_prefix
  | cons frame rest ih =>
      rw [List.cons_append]
      by_cases close : frame.opcode = opcodeClose
      · rw [partsOf_close close, partsOf_close close]
      · cases control : opcodeIsControl frame.opcode with
        | true =>
            rw [partsOf_control close control, partsOf_control close control]
            exact ih
        | false =>
            rw [partsOf_data control, partsOf_data control]
            exact List.cons_prefix_cons.mpr ⟨rfl, ih⟩

theorem parseFrame_nil (maxMessageSize : Nat) : parseFrame [] maxMessageSize = .incomplete := rfl

/-- Two conversations in one stream have the same opening request, and the frames of the one
    that is not finished are the first of the other's. -/
theorem Conversation.front {server : Server} {octets more request head rest : Bytes}
    {frames client : List (AcceptedFrame server.options.maxMessageSize)}
    (conversation : Conversation server octets head frames rest)
    (opens : ∃ upgrade, parseUpgrade server.lib server.subprotocols request = .ok upgrade ∧
      upgrade.bytesConsumed = request.length)
    (stream : octets ++ more = request ++ client.flatMap AcceptedFrame.octets) :
    head = request ∧ frames <+: client := by
  have ends {request : Bytes} (opens : ∃ upgrade,
      parseUpgrade server.lib server.subprotocols request = .ok upgrade ∧
        upgrade.bytesConsumed = request.length) :
      findHeaderEnd request = some (request.length - 4) := by
    obtain ⟨upgrade, accepted, whole⟩ := opens
    obtain ⟨h, consumed, -, found⟩ := parseUpgrade_ends accepted
    rw [← consumed, whole, List.take_length] at found
    rw [found, ← whole, consumed, Nat.add_sub_cancel]
  have mine : Begins server.options.maxMessageSize (octets ++ more) head frames (rest ++ more) := by
    refine ⟨ends conversation.opening, ?_⟩
    rw [conversation.stream, List.append_assoc]
  have theirs : Begins server.options.maxMessageSize (octets ++ more) request client [] := by
    refine ⟨ends opens, ?_⟩
    rw [stream, List.append_nil]
  exact theirs.front mine (parseFrame_nil _)

/-- What a client says in messages is delivered message by message, in order, and as far as
    it has been read; nothing else is delivered. -/
theorem client_messages_delivered {server : Server} {listener : Nat} {m m' : Site}
    (start : m.Starts listener) (ground : Grounded m.world.toHub) (listens : server.Listens)
    (walk : Site.Walk server (fun _ _ _ => True) m m') {i : ConnId}
    (new : m.world.nextConnectionId ≤ i) {request : Bytes} {upgrade : HttpUpgrade}
    (opens : parseUpgrade server.lib server.subprotocols request = .ok upgrade)
    (whole : upgrade.bytesConsumed = request.length)
    (client : List (ClientFrame server.options.maxMessageSize))
    (said : List (ClientMessage server.options.maxMessageSize))
    (speaks : partsOf (client.map ClientFrame.frame) = said.flatMap ClientMessage.parts)
    (arrived : octetsAt (m'.kernel.sockets i).taken <+: request ++ client.flatMap ClientFrame.octets) :
    m'.world.trace.messages i <+: said.map ClientMessage.content ∧
      ((m'.world.conn i).Reading →
        octetsAt (m'.kernel.sockets i).taken = request ++ client.flatMap ClientFrame.octets →
        m'.world.trace.messages i = said.map ClientMessage.content) := by
  have written : client.flatMap ClientFrame.octets =
      (client.map ClientFrame.accepted).flatMap AcceptedFrame.octets := by
    rw [List.flatMap_map]
    rfl
  have framed : (client.map ClientFrame.accepted).map AcceptedFrame.frame =
      client.map ClientFrame.frame := by
    rw [List.map_map]
    rfl
  have spoken : (messages server.options.maxMessageSize).run none
      (partsOf ((client.map ClientFrame.accepted).map AcceptedFrame.frame)) =
        said.map ClientMessage.content := by
    rw [framed, speaks, ClientMessage.run_parts]
  rw [written] at arrived ⊢
  generalize client.map ClientFrame.accepted = frames' at arrived spoken ⊢
  obtain ⟨more, stream⟩ := arrived
  rcases messages_follow_stream start ground listens walk new with
    ⟨fresh, silent⟩ | ⟨head, frames, rest, conversation, delivered, complete⟩
  · rw [silent]
    refine ⟨List.nil_prefix, fun reading => ?_⟩
    exact absurd (fresh.symm.trans reading.2.2) Bool.false_ne_true
  · obtain ⟨rfl, later, rfl⟩ := conversation.front ⟨upgrade, opens, whole⟩ stream
    rw [delivered, Receiver.messages_run, ← spoken, List.map_append]
    have front := partsOf_prefix (frames.map AcceptedFrame.frame) (later.map AcceptedFrame.frame)
    obtain ⟨behind, parts⟩ := front
    refine ⟨?_, fun reading all => ?_⟩
    · rw [← parts]
      exact Assembler.run_prefix ..
    · have left : rest = later.flatMap AcceptedFrame.octets := by
        rw [conversation.stream, List.flatMap_append, List.append_assoc] at all
        exact List.append_cancel_left (List.append_cancel_left all)
      have done : later = [] := by
        cases later with
        | nil => rfl
        | cons accepted later =>
            have parsed := complete reading
            rw [left, List.flatMap_cons, accepted.parsed_append] at parsed
            cases parsed
      rw [done, List.map_nil, List.append_nil]

theorem client_messages_delivered_greeting : ∃ m : Site,
    Site.Walk listeningServer (fun _ _ _ => True) greeted m ∧
      m.world.trace.messages 0 = [(opcodeText, [0x48, 0x69])] := by
  obtain ⟨m, walk, octets, reading⟩ := greeted_walk
  obtain ⟨header, same⟩ : ∃ header : HeaderBlock sampleLib [], header.octets = sampleRequest :=
    exists_headerBlock (by decide +kernel) (by decide +kernel) (by decide +kernel) (by decide +kernel)
  have limit : listeningServer.options.maxMessageSize = defaultMaxMessageSize := by decide +kernel
  let frame : ClientFrame listeningServer.options.maxMessageSize :=
    { endian := .little
      mask := ⟨1, 2, 3, 4⟩
      opcode := opcodeText
      final := true
      payload := [0x48, 0x69]
      octets := [0x81, 0x82, 1, 2, 3, 4, 0x49, 0x6b]
      packs := by decide
      acceptable := ⟨by decide, nofun, fun _ => by rw [limit]; decide, nofun⟩
      small := by decide }
  let message : ClientMessage listeningServer.options.maxMessageSize :=
    { opcode := opcodeText
      piece := [0x48, 0x69]
      pieces := []
      kind := Or.inl rfl
      valid := fun _ => by decide
      fits := by rw [limit]; decide }
  have opens : parseUpgrade listeningServer.lib listeningServer.subprotocols sampleRequest =
      .ok header.upgrade := same ▸ header.accepted
  have whole : header.upgrade.bytesConsumed = sampleRequest.length :=
    header.consumed.trans (congrArg List.length same)
  have delivered := client_messages_delivered greeted_starts greeted_grounded listeningServer_listens
    walk (Nat.zero_le 0) opens whole [frame] [message] rfl (octets ▸ List.prefix_refl _)
  exact ⟨m, walk, delivered.2 reading octets⟩

end PhpWebSocket
