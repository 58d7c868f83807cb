import MrUDP.Connection.Moves
import MrUDP.Connection.Outstanding
import MrUDP.Peers.Stretches
import MrUDP.Stream.Traffic

/-!
# Two connections that talk to each other

Two whole connections, each with its user, its timers, its handshake and its peer.  Their steps are
interleaved in any order; what one transmits the other receives in any order, any number of times or
never, and whatever else arrives is arbitrary as long as it is no reliable data.

What a connection hands to its user as reliable messages is a prefix of what the frames generated by
the peer mean, in both directions at once, through every close and every failure.

## Main definitions

* `messages`: what a sequence of frames means to the user of the peer.
* `heard`: the same calls of the receiver, with the end of the stream.
* `Connection.received`: the reliable messages a connection has handed to its user.
* `Connection.Follows`: a connection has processed so many of the peer's frames.
* `Conversation`, `Conversation.step`: the two connections.
* `Conversation.Fair`: where reliable data comes from.
-/

namespace MrUDP
open Wire Machine
open Connection (Calm Arrives Input Reactions)

/-! ## Messages -/

/-- The reliable messages among the calls of a receiver. -/
def handed (calls : List ReceiverCall) : List Bytes :=
  calls.filterMap fun
    | .receive data .reliable => some data
    | _ => none

@[simp] theorem handed_append (calls calls' : List ReceiverCall) :
    handed (calls ++ calls') = handed calls ++ handed calls' :=
  List.filterMap_append

/-- What frames mean to a receiver that has seen nothing before. -/
def messages (z : Zlib) (fs : List Frame) : List Bytes := handed (frameCalls z [] fs).1

theorem messages_append (z : Zlib) (fs gs : List Frame) :
    messages z (fs ++ gs) =
      messages z fs ++ handed (frameCalls z (frameCalls z [] fs).2 gs).1 := by
  rw [messages, frameCalls_append, handed_append, messages]

/-- The reliable messages among the calls of a receiver, and where the stream is closed. -/
def heard (calls : List ReceiverCall) : List (Option Bytes) :=
  calls.filterMap fun
    | .receive data .reliable => some (some data)
    | .close => some none
    | _ => none

@[simp] theorem heard_append (calls calls' : List ReceiverCall) :
    heard (calls ++ calls') = heard calls ++ heard calls' :=
  List.filterMap_append

theorem handed_eq (calls : List ReceiverCall) : handed calls = (heard calls).reduceOption := by
  rw [List.reduceOption, heard, List.filterMap_filterMap, handed]
  refine List.filterMap_congr fun call _ => ?_
  cases call with
  | receive data reliability => cases reliability <;> rfl
  | ack | onAck | close => rfl

/-- The memory behind a frame matters only for acknowledgements. -/
theorem processFrames_eq_frameCalls (z : Zlib) (buffer : Bytes) (vs : List Visited) :
    heard (Receiver.processFrames z .reliable buffer vs).1 =
        heard (frameCalls z buffer (vs.map Prod.fst)).1 ∧
      (Receiver.processFrames z .reliable buffer vs).2 =
        (frameCalls z buffer (vs.map Prod.fst)).2 := by
  have hone : ∀ (buffer : Bytes) (v : Visited),
      heard (Receiver.processReceived z .reliable buffer v).1 =
          heard (Receiver.processReceived z .reliable buffer (v.1, [])).1 ∧
        (Receiver.processReceived z .reliable buffer v).2 =
          (Receiver.processReceived z .reliable buffer (v.1, [])).2 := by
    intro buffer v
    by_cases hack : v.1.type = FrameTypeID.ackFrame
    · rw [Receiver.processReceived_ack z .reliable buffer hack,
        Receiver.processReceived_ack z .reliable buffer (v := (v.1, [])) hack]
      exact ⟨rfl, rfl⟩
    · simp only [Receiver.processReceived, if_neg hack, and_self]
  induction vs generalizing buffer with
  | nil => exact ⟨rfl, rfl⟩
  | cons v vs ih =>
      obtain ⟨hcalls, hbuffer⟩ := hone buffer v
      simp only [frameCalls, List.map_cons, Receiver.processFrames, heard_append]
      rw [hcalls, hbuffer]
      obtain ⟨hrest, hrestBuffer⟩ := ih (Receiver.processReceived z .reliable buffer (v.1, [])).2
      exact ⟨congrArg _ hrest, hrestBuffer⟩

/-- Unreliable frames that are not compressed leave the reliable stream alone. -/
theorem processFrames_unreliable (z : Zlib) (buffer : Bytes) {vs : List Visited}
    (h : ∀ v ∈ vs, v.1.type ≠ FrameTypeID.dataCompressed) :
    heard (Receiver.processFrames z .unreliable buffer vs).1 = [] ∧
      (Receiver.processFrames z .unreliable buffer vs).2 = buffer := by
  have hone : ∀ v : Visited, v.1.type ≠ FrameTypeID.dataCompressed →
      heard (Receiver.processReceived z .unreliable buffer v).1 = [] ∧
        (Receiver.processReceived z .unreliable buffer v).2 = buffer := by
    intro v hv
    rw [Receiver.processReceived]
    split
    · exact ⟨rfl, rfl⟩
    · split
      · exact ⟨rfl, rfl⟩
      · split
        · exact ⟨rfl, rfl⟩
        · exact ⟨rfl, rfl⟩
  induction vs with
  | nil => exact ⟨rfl, rfl⟩
  | cons v vs ih =>
      rw [List.forall_mem_cons] at h
      obtain ⟨hcalls, hbuffer⟩ := hone v h.1
      obtain ⟨hrest, hrestBuffer⟩ := ih h.2
      simp only [Receiver.processFrames, heard_append, hcalls, hbuffer, hrest, hrestBuffer,
        List.append_nil, and_self]

/-! ## What a connection hands to its user -/

namespace Connection

/-- The reliable messages handed to the user. -/
def received (c : Connection) : List Bytes :=
  c.delivered.filterMap fun
    | (data, .reliable) => some data
    | _ => none

theorem Calm.received {c c' : Connection} (h : Calm c c') : c'.received = c.received := by
  rw [Connection.received, h.delivered, Connection.received]

/-- The calls of the receiver have been carried out.  The user gets the messages among them, up to
the moment its handlers are disposed of. -/
structure Hands (calls : List ReceiverCall) (c c' : Connection) : Prop where
  receiveQueue : c'.receiver.receiveQueue = c.receiver.receiveQueue
  compressionBuffer : c'.receiver.compressionBuffer = c.receiver.compressionBuffer
  receiveHandler : c'.receiveHandler = true → c.receiveHandler = true
  silent : c.receiveHandler = false → c'.received = c.received
  received : ∃ ms, ms <+: handed calls ∧ c'.received = c.received ++ ms ∧
    (c'.receiveHandler = true → ms = handed calls)

variable {calls : List ReceiverCall} {now : Timepoint} {scripts : List (List UserCall)}
  {packet : Packet} {reactions : Reactions}

theorem Hands.of_calm (hcalls : handed calls = []) {c c' : Connection} (h : Calm c c') :
    Hands calls c c' where
  __ := h
  silent _ := h.received
  received := ⟨[], List.nil_prefix, by rw [h.received, List.append_nil], fun _ => hcalls.symm⟩

theorem Hands.trans {calls' : List ReceiverCall} {c₁ c₂ c₃ : Connection} (h : Hands calls c₁ c₂)
    (h' : Hands calls' c₂ c₃) : Hands (calls ++ calls') c₁ c₃ where
  receiveQueue := h'.receiveQueue.trans h.receiveQueue
  compressionBuffer := h'.compressionBuffer.trans h.compressionBuffer
  receiveHandler hhandler := h.receiveHandler (h'.receiveHandler hhandler)
  silent hsilent := by
    have hsilent' : c₂.receiveHandler = false := by
      rw [← Bool.not_eq_true]
      intro hhandler
      rw [h.receiveHandler hhandler] at hsilent
      cases hsilent
    rw [h'.silent hsilent', h.silent hsilent]
  received := by
    obtain ⟨ms, hprefix, hreceived, hall⟩ := h.received
    obtain ⟨ms', hprefix', hreceived', hall'⟩ := h'.received
    cases hhandler : c₂.receiveHandler with
    | true =>
        -- Everything so far was handed over, so what comes next continues it.
        obtain rfl := hall hhandler
        refine ⟨handed calls ++ ms', ?_, ?_, fun hlast => ?_⟩
        · rw [handed_append]
          exact (List.prefix_append_right_inj _).mpr hprefix'
        · rw [hreceived', hreceived, List.append_assoc]
        · rw [handed_append, hall' hlast]
    | false =>
        refine ⟨ms, ?_, ?_, fun hlast => ?_⟩
        · rw [handed_append]
          exact hprefix.trans (List.prefix_append _ _)
        · rw [h'.silent hhandler, hreceived]
        · rw [h'.receiveHandler hlast] at hhandler
          cases hhandler

theorem hands_carryOut {z : Zlib} {react : Connection → Connection}
    (hreact : ∀ c, Moves z now False False c (react c)) (c : Connection) (call : ReceiverCall) :
    Hands [call] c (carryOut z now react c call) := by
  have hother : (∀ data reliability, call ≠ .receive data reliability) →
      Hands [call] c (carryOut z now react c call) := by
    intro hne
    refine .of_calm ?_ (moves_carryOut hreact c call fun data reliability h =>
      hne data reliability h).calm
    cases call with
    | receive data reliability => exact absurd rfl (hne data reliability)
    | ack | onAck | close => rfl
  cases call with
  | receive data reliability =>
      rw [carryOut]
      by_cases hhandler : c.receiveHandler = true
      · rw [if_pos hhandler]
        have hcalm := (hreact { c with delivered := c.delivered ++ [(data, reliability)] }).calm
        have hreceived :
            (react { c with delivered := c.delivered ++ [(data, reliability)] }).received =
              c.received ++ handed [.receive data reliability] := by
          rw [hcalm.received, Connection.received, List.filterMap_append]
          cases reliability <;> rfl
        refine ⟨hcalm.receiveQueue, hcalm.compressionBuffer, fun _ => hhandler, fun h => ?_,
          handed [.receive data reliability], List.prefix_refl _, hreceived, fun _ => rfl⟩
        rw [hhandler] at h
        cases h
      · rw [if_neg hhandler]
        exact ⟨rfl, rfl, fun h => h, fun _ => rfl, [], List.nil_prefix, by simp,
          fun h => absurd h hhandler⟩
  | ack packetID => exact hother fun _ _ h => by cases h
  | onAck ack => exact hother fun _ _ h => by cases h
  | close => exact hother fun _ _ h => by cases h

/-- **The calls of the receiver, carried out**, whatever the handlers do in between. -/
theorem hands_carryOutAll {z : Zlib}
    (hscripts : ∀ script ∈ scripts, UserCall.RegistersAll False script) (calls : List ReceiverCall)
    (c : Connection) : Hands calls c (carryOutAll z now scripts calls c) := by
  induction calls generalizing scripts c with
  | nil =>
      rw [carryOutAll]
      exact .of_calm rfl (.refl c)
  | cons call calls ih =>
      cases scripts with
      | nil =>
          rw [carryOutAll]
          exact (hands_carryOut (fun _ => .refl) c call).trans (ih (by simp) _)
      | cons script scripts =>
          rw [List.forall_mem_cons] at hscripts
          rw [carryOutAll]
          exact (hands_carryOut (moves_userCalls script hscripts.1) c call).trans
            (ih hscripts.2 _)

/-! ## A packet is received -/

/-- A receive queue that does not wait for itself has nothing to pass on when it is opened. -/
theorem open_of_settled {z : Zlib} {r : Receiver}
    (h : r.receiveQueue.queue[r.receiveQueue.expectedID]? = none) :
    r.open z =
      ([], { r with status := if r.status = .uninitialized then .open else r.status }) := by
  have hqueue : r.receiveQueue.processQueue = ([], r.receiveQueue) := by
    rw [ReceiveQueue.processQueue]
    generalize r.receiveQueue.queue.size = fuel
    cases fuel with
    | zero => rfl
    | succ fuel =>
        rw [ReceiveQueue.processQueueLoop, ReceiveQueue.processNext_eq_none.mpr h]
  rw [Receiver.open, hqueue]
  rfl

theorem calm_handshakeOnReceive {z : Zlib} (scripts : List (List UserCall)) {c : Connection}
    (packet : Packet)
    (h : c.receiver.receiveQueue.queue[c.receiver.receiveQueue.expectedID]? = none) :
    Calm c (handshakeOnReceive z now scripts c packet) := by
  obtain ⟨c', hmoves, hsame | ⟨remoteID, first, hcomplete⟩⟩ :=
    @handshakeOnReceive_cases z now False False scripts c packet
  · rw [hsame]
    exact hmoves.calm
  · have hcalm := hmoves.calm
    rw [← hcalm.receiveQueue] at h
    have hopen := open_of_settled (z := z) h
    generalize (if c'.receiver.status = .uninitialized then Status.open else c'.receiver.status) =
      status at hopen
    have hrun : complete z now scripts c' remoteID first =
        call z now
          { c' with
            remoteID := remoteID
            handshake := ⟨TypeID.handshakeComplete, first⟩
            receiver := { c'.receiver with status := status } } .open := by
      rw [complete, onHandshakeComplete]
      dsimp only
      rw [hopen]
      dsimp only
      rw [carryOutAll]
    have hcall := (@Move.call z now False False
      { c' with
        remoteID := remoteID
        handshake := ⟨TypeID.handshakeComplete, first⟩
        receiver := { c'.receiver with status := status } } .open).calm
    rw [hcomplete, hrun]
    exact hcalm.trans
      { hcall with }

/-- The type of a packet with data in it. -/
def IsData (type : TypeID) : Prop := type = TypeID.dataReliable ∨ type = TypeID.dataUnreliable

instance (type : TypeID) : Decidable (IsData type) := inferInstanceAs (Decidable (_ ∨ _))

/-- A receiver that is not open looks at no packet. -/
theorem calm_of_not_open {z : Zlib} (scripts : List (List UserCall)) {c : Connection}
    {probe : Probe} (hopen : c.receiver.status ≠ .open) :
    Calm c (receiverOnReceive z now scripts { c with probe := probe } packet) := by
  rw [receiverOnReceive, Receiver.onReceive, if_pos hopen]
  dsimp only
  rw [carryOutAll]
  exact ⟨rfl, rfl, rfl, fun h => h⟩

/-- The receiver at most acknowledges a packet without data. -/
theorem calm_receiverOnReceive {z : Zlib}
    (hscripts : ∀ script ∈ scripts, UserCall.RegistersAll False script) (c : Connection)
    (hdata : ¬ IsData packet.header.type) : Calm c (receiverOnReceive z now scripts c packet) := by
  rw [IsData, not_or] at hdata
  by_cases hopen : c.receiver.status = .open
  swap
  · exact @calm_of_not_open now packet z scripts c c.probe hopen
  have hreceive : c.receiver.onReceive z packet =
      (if requiresAck packet.header.type then [.ack packet.header.id] else [], c.receiver) := by
    rw [Receiver.onReceive, if_neg (not_not.mpr hopen), if_neg hdata.1, if_neg hdata.2]
  rw [receiverOnReceive, hreceive]
  refine (moves_carryOutAll hscripts (fun _ _ hmem => ?_) c).calm
  split at hmem <;> simp at hmem

theorem calm_accept {z : Zlib} (hreactions : reactions.Registers False) {c : Connection}
    (hdata : ¬ IsData packet.header.type)
    (h : c.receiver.receiveQueue.queue[c.receiver.receiveQueue.expectedID]? = none) :
    Calm c (accept z now reactions c packet) := by
  have hhandshake := @calm_handshakeOnReceive now z reactions.opened c packet h
  have hprobe := (@Move.probe z now False False
    (handshakeOnReceive z now reactions.opened c packet)).calm
  have hsender := (@moves_senderOnReceive z now False False _ (moves_userCalls _ hreactions.2.1)
    { handshakeOnReceive z now reactions.opened c packet with
      probe := (handshakeOnReceive z now reactions.opened c packet).probe.on
        (handshakeOnReceive z now reactions.opened c packet).options now } packet).calm
  exact hhandshake.trans (hprobe.trans (hsender.trans
    (calm_receiverOnReceive hreactions.2.2 _ hdata)))

/-- A packet without data passes nothing on. -/
theorem calm_receive {z : Zlib} (hreactions : reactions.Registers False) {c : Connection}
    (path : Address) (hdata : ¬ IsData packet.header.type)
    (h : c.receiver.receiveQueue.queue[c.receiver.receiveQueue.expectedID]? = none) :
    Calm c (receive z now reactions c packet path) := by
  have hheader := header_onReceive c.options packet
  rw [receive]
  split
  · exact .refl c
  next packet₁ options hoptions =>
    rw [hoptions] at hheader
    have hheader' := header_networkPathOnReceive z now { c with options := options } packet₁ path
    have hpath := (@moves_networkPathOnReceive z now False False { c with options := options }
      packet₁ path).calm
    have hoptions' : Calm c { c with options := options } := ⟨rfl, rfl, rfl, fun h => h⟩
    split
    next hrun =>
      rw [hrun] at hpath
      exact hoptions'.trans hpath
    next packet₂ c₁ hrun =>
      rw [hrun] at hpath hheader'
      have hcalm : Calm c c₁ := hoptions'.trans hpath
      refine hcalm.trans (calm_accept hreactions ?_ ?_)
      · rwa [hheader'.trans hheader]
      · rw [hcalm.receiveQueue]
        exact h

/-- A packet with data is answered with a challenge, or goes to the receiver. -/
theorem receive_data {z : Zlib} {c : Connection} {path : Address}
    (hdata : IsData packet.header.type) :
    (∃ call, receive z now reactions c packet path = c.call z now call) ∨ ∃ probe,
      receive z now reactions c packet path =
        receiverOnReceive z now reactions.received { c with probe := probe } packet := by
  have hne : ∀ type : TypeID, ¬ IsData type → packet.header.type ≠ type := by
    rintro type htype rfl
    exact htype hdata
  rw [receive, HandshakeOptions.onReceive, if_neg (hne _ (by simp [IsData]; decide))]
  dsimp only
  rw [networkPathOnReceive, if_neg (hne _ (by simp [IsData]; decide))]
  by_cases hpath : path = c.remoteAddress
  · rw [if_neg (not_not.mpr hpath)]
    right
    have hhandshake : isHandshake packet.header.type = false := by
      rcases hdata with h | h <;> rw [h] <;> rfl
    have hack : isAck packet.header.type = false := by
      rcases hdata with h | h <;> rw [h] <;> rfl
    refine ⟨c.probe.on c.options now, ?_⟩
    dsimp only
    rw [accept, handshakeOnReceive, hhandshake, if_neg Bool.false_ne_true]
    dsimp only
    rw [senderOnReceive, hack, if_neg Bool.false_ne_true,
      if_neg (hne _ (by simp [IsData]; decide))]
  · rw [if_pos hpath, if_neg (hne _ (by simp [IsData]; decide))]
    exact .inl ⟨_, rfl⟩

/-! ## Following the peer -/

/-- The connection has processed the first `n` frames of `g`, and the user has got the messages in
them, up to the moment its handlers were disposed of. -/
structure Follows (z : Zlib) (g : List Frame) (c : Connection) (n : ℕ) : Prop where
  tracks : ReceiveQueue.Tracks g (n + 2 ^ 15) c.receiver.receiveQueue n
  settled : c.receiver.receiveQueue.queue[c.receiver.receiveQueue.expectedID]? = none
  buffer : c.receiver.compressionBuffer = (frameCalls z [] (g.take n)).2
  received : c.received <+: messages z (g.take n)
  whole : c.receiveHandler = true → c.received = messages z (g.take n)

theorem Follows.init (z : Zlib) {c : Connection} (hqueue : c.receiver.receiveQueue = {})
    (hbuffer : c.receiver.compressionBuffer = []) (hdelivered : c.delivered = [])
    (g : List Frame) : Follows z g c 0 where
  tracks := by
    rw [hqueue]
    simpa using ReceiveQueue.Tracks.init g
  settled := by
    rw [hqueue]
    simp
  buffer := by simp [hbuffer]
  received := by simp [Connection.received, hdelivered]
  whole _ := by simp [Connection.received, hdelivered, messages, handed]

variable {z : Zlib} {g : List Frame} {c c' : Connection} {n : ℕ}

/-- The peer may generate more frames. -/
theorem Follows.mono (h : Follows z g c n) {g' : List Frame} (hg : g <+: g') :
    Follows z g' c n := by
  obtain ⟨tail, rfl⟩ := hg
  have htake : (g ++ tail).take n = g.take n := List.take_append_of_le_length h.tracks.le_length
  exact ⟨h.tracks.mono tail, h.settled, htake ▸ h.buffer, htake ▸ h.received, htake ▸ h.whole⟩

theorem Follows.calm (h : Follows z g c n) (hcalm : Calm c c') : Follows z g c' n where
  tracks := by
    rw [hcalm.receiveQueue]
    exact h.tracks
  settled := by
    rw [hcalm.receiveQueue]
    exact h.settled
  buffer := hcalm.compressionBuffer.trans h.buffer
  received := by
    rw [hcalm.received]
    exact h.received
  whole hhandler := hcalm.received.trans (h.whole (hcalm.receiveHandler hhandler))

/-- The receiver has passed some more frames on, and its calls were carried out. -/
theorem Follows.hands (h : Follows z g c n) {n' : ℕ} {receiver : Receiver} {probe : Probe}
    (hhands : Hands calls { c with probe := probe, receiver := receiver } c')
    (htracks : ReceiveQueue.Tracks g (n' + 2 ^ 15) receiver.receiveQueue n')
    (hsettled : receiver.receiveQueue.queue[receiver.receiveQueue.expectedID]? = none)
    (hbuffer : receiver.compressionBuffer = (frameCalls z [] (g.take n')).2)
    (hmessages : messages z (g.take n') = messages z (g.take n) ++ handed calls) :
    Follows z g c' n' := by
  have hfirst : ∀ d : Connection, d = { c with probe := probe, receiver := receiver } →
      d.received = c.received ∧ d.receiveHandler = c.receiveHandler := by
    rintro d rfl
    exact ⟨rfl, rfl⟩
  obtain ⟨hsame, hhandler⟩ := hfirst _ rfl
  obtain ⟨ms, hprefix, hreceived, hall⟩ := hhands.received
  have hwhole : c'.receiveHandler = true → c'.received = messages z (g.take n') := by
    intro hlast
    have hbefore := hhands.receiveHandler hlast
    rw [hhandler] at hbefore
    rw [hreceived, hsame, h.whole hbefore, hall hlast, hmessages]
  refine ⟨?_, ?_, hhands.compressionBuffer.trans hbuffer, ?_, hwhole⟩
  · rw [hhands.receiveQueue]
    exact htracks
  · rw [hhands.receiveQueue]
    exact hsettled
  · cases hbefore : c.receiveHandler with
    | true =>
        rw [hreceived, hsame, h.whole hbefore, hmessages]
        exact (List.prefix_append_right_inj _).mpr hprefix
    | false =>
        rw [hhands.silent (hhandler.trans hbefore), hsame, hmessages]
        exact h.received.trans (List.prefix_append _ _)

/-- Unreliable data reaches the receiver. -/
theorem Follows.receiverOnReceive_unreliable (h : Follows z g c n) (now : Timepoint)
    (hscripts : ∀ script ∈ scripts, UserCall.RegistersAll False script)
    (htype : packet.header.type = TypeID.dataUnreliable)
    (hplain : ∀ v ∈ packet.unreliableVisits, v.1.type ≠ FrameTypeID.dataCompressed)
    (probe : Probe) :
    Follows z g (receiverOnReceive z now scripts { c with probe := probe } packet) n ∧
      heard (c.receiver.onReceive z packet).1 = [] := by
  by_cases hopen : c.receiver.status = .open
  swap
  · refine ⟨h.calm (calm_of_not_open scripts hopen), ?_⟩
    rw [Receiver.onReceive, if_pos hopen]
    rfl
  obtain ⟨hcalls, hbuffer⟩ := processFrames_unreliable z c.receiver.compressionBuffer hplain
  have hreceive : c.receiver.onReceive z packet =
      (Receiver.processFrames z .unreliable c.receiver.compressionBuffer
          packet.unreliableVisits |>.1,
        { c.receiver with
          compressionBuffer := (Receiver.processFrames z .unreliable
            c.receiver.compressionBuffer packet.unreliableVisits).2 }) := by
    rw [Receiver.onReceive, if_neg (not_not.mpr hopen), htype,
      if_neg (by decide : ¬ TypeID.dataUnreliable = TypeID.dataReliable), if_pos rfl]
    rfl
  rw [receiverOnReceive]
  dsimp only
  rw [hreceive]
  refine ⟨h.hands (hands_carryOutAll hscripts _ _) h.tracks h.settled (hbuffer.trans h.buffer) ?_,
    hcalls⟩
  rw [handed_eq, hcalls, List.reduceOption_nil, List.append_nil]

/-- A data packet in range advances the receive queue.  It may be empty, and then says nothing
about the range. -/
theorem Follows.advances (h : Follows z g c n) (hnum : Numbered g)
    (hcarries : packet.Carries g packet.frames.length)
    (hrange : ∀ j < packet.frames.length,
      packet.base + j < n + 2 ^ 15 ∧ n < packet.base + j + 2 ^ 15) :
    ∃ n', ReceiveQueue.Advances g (n + 2 ^ 15) c.receiver.receiveQueue n
      (c.receiver.receiveQueue.onReceive packet).1
      (c.receiver.receiveQueue.onReceive packet).2 n' := by
  rcases Nat.eq_zero_or_pos packet.frames.length with hzero | hpos
  · have hvisits : packet.visits = [] := by simpa [Packet.frames] using hzero
    have hnone : c.receiver.receiveQueue.onReceive packet = ([], c.receiver.receiveQueue) := by
      simp [ReceiveQueue.onReceive, hvisits, ReceiveQueue.onFrames]
    rw [hnone]
    exact ⟨n, le_rfl, h.tracks, h.settled, by simp, fun j hj => hj⟩
  · have hfirst := hrange 0 hpos
    have hlast := hrange (packet.frames.length - 1) (by omega)
    obtain ⟨n', hadvances, _⟩ := h.tracks.onReceive h.settled hnum hcarries (by omega) (by omega)
    exact ⟨n', hadvances⟩

/-- Reliable data reaches the receiver, less than half a turn away from the frame expected. -/
theorem Follows.receiverOnReceive (h : Follows z g c n) (hnum : Numbered g) (now : Timepoint)
    (hscripts : ∀ script ∈ scripts, UserCall.RegistersAll False script)
    (htype : packet.header.type = TypeID.dataReliable)
    (hcarries : packet.Carries g packet.frames.length)
    (hrange : ∀ j < packet.frames.length,
      packet.base + j < n + 2 ^ 15 ∧ n < packet.base + j + 2 ^ 15)
    (probe : Probe) :
    ∃ n', n ≤ n' ∧ n' ≤ n + 2 ^ 15 ∧
      Follows z g (receiverOnReceive z now scripts { c with probe := probe } packet) n' ∧
      heard (frameCalls z [] (g.take n')).1 =
        heard (frameCalls z [] (g.take n)).1 ++ heard (c.receiver.onReceive z packet).1 := by
  by_cases hopen : c.receiver.status = .open
  swap
  · refine ⟨n, le_rfl, by omega, h.calm (calm_of_not_open scripts hopen), ?_⟩
    rw [Receiver.onReceive, if_pos hopen]
    exact (List.append_nil _).symm
  obtain ⟨n', hadvances⟩ := h.advances hnum hcarries hrange
  obtain ⟨hcalls, hbuffer⟩ := processFrames_eq_frameCalls z c.receiver.compressionBuffer
    (c.receiver.receiveQueue.onReceive packet).1
  have hreceive : c.receiver.onReceive z packet =
      ((if requiresAck packet.header.type then [.ack packet.header.id] else []) ++
          (Receiver.processFrames z .reliable c.receiver.compressionBuffer
            (c.receiver.receiveQueue.onReceive packet).1).1,
        { c.receiver with
          receiveQueue := (c.receiver.receiveQueue.onReceive packet).2
          compressionBuffer := (Receiver.processFrames z .reliable
            c.receiver.compressionBuffer (c.receiver.receiveQueue.onReceive packet).1).2 }) := by
    rw [Receiver.onReceive, if_neg (not_not.mpr hopen), if_pos htype]
  have hheard : heard (c.receiver.onReceive z packet).1 =
      heard (frameCalls z c.receiver.compressionBuffer
        ((c.receiver.receiveQueue.onReceive packet).1.map Prod.fst)).1 := by
    have hacks : heard (if requiresAck packet.header.type then [.ack packet.header.id]
        else []) = [] := by
      split <;> rfl
    rw [hreceive]
    dsimp only
    rw [heard_append, hacks, List.nil_append, hcalls]
  refine ⟨n', hadvances.le, hadvances.tracks.le_hi, ?_, ?_⟩
  · rw [Connection.receiverOnReceive]
    dsimp only
    rw [hreceive]
    refine h.hands (hands_carryOutAll hscripts _ _) hadvances.tracks.raise hadvances.settled ?_ ?_
    · dsimp only
      rw [hbuffer, hadvances.took, frameCalls_append, h.buffer]
    · have hcalls' := congrArg Prod.fst hreceive
      dsimp only at hcalls'
      rw [← hcalls', handed_eq, hheard, hadvances.took, messages_append, h.buffer, handed_eq]
  · rw [hheard, hadvances.took, frameCalls_append, heard_append, h.buffer]

end Connection

/-! ## The two connections -/

/-- A connection, and how many frames its receive queue has passed on: its expected identifier
without the wrapping. -/
structure Side where
  connection : Connection
  processed : ℕ := 0

/-- One thing happens to a connection. -/
def Side.step (z : Zlib) (s : Side) (input : Timepoint × Input) : Side :=
  let c := s.connection.step z input
  ⟨c, s.processed + (c.receiver.receiveQueue.expectedID -
    s.connection.receiver.receiveQueue.expectedID).toNat⟩

/-- Reliable data that is received was transmitted by the peer, and is less than half a turn away
from the frame expected.  No unreliable frame is compressed, and the user registers its handlers
only once. -/
def Side.Fair (peer s : Side) (input : Input) : Prop :=
  input.Registers False ∧ ∀ packet path reactions, input = .receive packet path reactions →
    (packet.header.type = TypeID.dataReliable →
      (∃ o ∈ peer.connection.transmitted, Arrives o packet) ∧
        ∀ j < packet.frames.length, packet.base + j < s.processed + 2 ^ 15 ∧
          s.processed < packet.base + j + 2 ^ 15) ∧
    (packet.header.type = TypeID.dataUnreliable →
      ∀ v ∈ packet.unreliableVisits, v.1.type ≠ FrameTypeID.dataCompressed)

/-- Two connections. -/
structure Conversation where
  left : Side
  right : Side

namespace Conversation

/-- What happens to one of the two. -/
inductive Action
  | left (now : Timepoint) (input : Input)
  | right (now : Timepoint) (input : Input)

/-- One thing happens. -/
def step (z : Zlib) (x : Conversation) : Action → Conversation
  | .left now input => { x with left := x.left.step z (now, input) }
  | .right now input => { x with right := x.right.step z (now, input) }

/-- Each side gets its reliable data from the other. -/
def Fair (x : Conversation) : Action → Prop
  | .left _ input => Side.Fair x.right x.left input
  | .right _ input => Side.Fair x.left x.right input

end Conversation

/-- A side follows its peer, and what it transmits carries its own frames. -/
structure Side.Follows (z : Zlib) (peer s : Side) : Prop where
  stretches : s.connection.Stretches
  follows : s.connection.Follows z peer.connection.sender.dataQueue.generated s.processed

/-- The expected identifier moves by as many frames as are processed. -/
theorem Side.processed_step {z : Zlib} {s : Side} {input : Timepoint × Input} {g g' : List Frame}
    {hi hi' n' : ℕ}
    (h : ReceiveQueue.Tracks g hi s.connection.receiver.receiveQueue s.processed)
    (h' : ReceiveQueue.Tracks g' hi' (s.connection.step z input).receiver.receiveQueue n')
    (hle : s.processed ≤ n') (hle' : n' ≤ s.processed + 2 ^ 15) :
    (s.step z input).processed = n' := by
  rw [Side.step]
  dsimp only
  rw [h'.expected, h.expected]
  obtain ⟨m, rfl⟩ := Nat.exists_eq_add_of_le hle
  have hm : (serial 16 (s.processed + m) - serial 16 s.processed).toNat = m := by
    simp only [serial, BitVec.toNat_sub, BitVec.toNat_ofNat]
    omega
  rw [hm]

/-- Fair data reaches the receiver. -/
theorem Side.Follows.data {z : Zlib} {peer s : Side} (h : Side.Follows z peer s)
    (hpeer : peer.connection.Stretches) {packet : Packet} {path : Address} {reactions : Reactions}
    (hfair : Side.Fair peer s (.receive packet path reactions))
    (hdata : Connection.IsData packet.header.type) (now : Timepoint) (probe : Probe) :
    ∃ n', s.processed ≤ n' ∧ n' ≤ s.processed + 2 ^ 15 ∧
      Connection.Follows z peer.connection.sender.dataQueue.generated
        (Connection.receiverOnReceive z now reactions.received
          { s.connection with probe := probe } packet) n' ∧
      heard (frameCalls z [] (peer.connection.sender.dataQueue.generated.take n')).1 =
        heard (frameCalls z [] (peer.connection.sender.dataQueue.generated.take s.processed)).1 ++
          heard (s.connection.receiver.onReceive z packet).1 := by
  obtain ⟨hregisters, hreceive⟩ := hfair
  obtain ⟨hreliable, hunreliable⟩ := hreceive packet path reactions rfl
  rcases hdata with htype | htype
  · obtain ⟨⟨o, ho, harrives⟩, hrange⟩ := hreliable htype
    obtain ⟨-, hcarries⟩ := hpeer.transmitted o ho packet harrives htype
    exact h.follows.receiverOnReceive hpeer.sender.numbered now hregisters.2.2 htype hcarries hrange
      probe
  · obtain ⟨hfollows, hheard⟩ := h.follows.receiverOnReceive_unreliable now hregisters.2.2 htype
      (hunreliable htype) probe
    rw [hheard]
    exact ⟨s.processed, le_rfl, by omega, hfollows, (List.append_nil _).symm⟩

/-- **One step of a side** that has fair inputs. -/
theorem Side.Follows.step {z : Zlib} {peer s : Side} (h : Side.Follows z peer s)
    (hpeer : peer.connection.Stretches) {now : Timepoint} {input : Input}
    (hfair : Side.Fair peer s input) : Side.Follows z peer (s.step z (now, input)) := by
  have hregisters := hfair.1
  have hprocessed : ∀ n', s.processed ≤ n' → n' ≤ s.processed + 2 ^ 15 →
      (s.connection.step z (now, input)).Follows z peer.connection.sender.dataQueue.generated n' →
      Side.Follows z peer (s.step z (now, input)) := by
    intro n' hle hle' hfollows
    have hn := Side.processed_step h.follows.tracks hfollows.tracks hle hle'
    refine ⟨?_, by rw [hn]; exact hfollows⟩
    exact (Connection.keepsFront_stretches z).step (Connection.Input.within_true _)
      (Connection.Input.hears_true _) h.stretches
  have hcalm : Calm s.connection (s.connection.step z (now, input)) →
      Side.Follows z peer (s.step z (now, input)) :=
    fun hcalm => hprocessed s.processed le_rfl (by omega) (h.follows.calm hcalm)
  by_cases hreceives : ∃ packet path reactions, input = .receive packet path reactions
  swap
  · refine hcalm (Connection.moves_step hregisters (fun packet path reactions hinput => ?_) _).calm
    exact hreceives ⟨packet, path, reactions, hinput⟩
  · obtain ⟨packet, path, reactions, rfl⟩ := hreceives
    by_cases hdata : Connection.IsData packet.header.type
    swap
    · exact hcalm (Connection.calm_receive hregisters path hdata h.follows.settled)
    rcases @Connection.receive_data now packet reactions z s.connection path hdata with
      ⟨call, hrun⟩ | ⟨probe, hrun⟩
    · refine hcalm ?_
      rw [Connection.step, hrun]
      exact (@Connection.Move.call z now False False s.connection call).calm
    · obtain ⟨n', hle, hle', hfollows, -⟩ := h.data hpeer hfair hdata now probe
      exact hprocessed n' hle hle' (by rwa [Connection.step, hrun])

/-- A side goes on following a peer that takes a step. -/
theorem Side.Follows.peer {z : Zlib} {peer s : Side} (h : Side.Follows z peer s)
    (hpeer : peer.connection.Stretches) (input : Timepoint × Input) :
    Side.Follows z (peer.step z input) s :=
  ⟨h.stretches, h.follows.mono (Connection.generated_step hpeer input)⟩

namespace Conversation

/-- The two sides follow each other. -/
structure Inv (z : Zlib) (x : Conversation) : Prop where
  left : Side.Follows z x.right x.left
  right : Side.Follows z x.left x.right

theorem Inv.step {z : Zlib} {x : Conversation} (h : x.Inv z) {action : Action}
    (hfair : x.Fair action) : (x.step z action).Inv z := by
  cases action with
  | left now input =>
      exact ⟨h.left.step h.right.stretches hfair, h.right.peer h.left.stretches (now, input)⟩
  | right now input =>
      exact ⟨h.left.peer h.right.stretches (now, input), h.right.step h.left.stretches hfair⟩

/-- The packet with the message. -/
def hello : Packet :=
  { header := { connection := 7, type := TypeID.dataReliable, id := 2 }
    data := [0, 0, 84, 1, 0, 9] }

/-- The handshake, and a message that arrives twice. -/
def greeting : List Action :=
  [.right 0 (.receive { header := { type := TypeID.h0 } } 1 {}),
    .left 1 (.receive { header := { type := TypeID.h1 } } 1 {}),
    .right 1 (.receive { header := { type := TypeID.h2, id := 1 }, data := leBytes 2 3 } 1 {}),
    .left 2 (.receive { header := { type := TypeID.h3, id := 1 }
                        data := leBytes 2 7 ++ HandshakeOptions.bytes Connection.immediate } 1 {}),
    .left 3 (.user (.send [9] .reliable)),
    .right 4 (.receive hello 1 {}),
    .right 5 (.receive hello 1 {})]

end Conversation
end MrUDP
