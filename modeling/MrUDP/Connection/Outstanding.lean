import MrUDP.Connection.Invariants

/-!
# Acknowledgements that arrive

An acknowledgement travels in a packet of the other direction, so its fate depends on the
receiver: once the receiver is closed, which a close by the user does, the packet is not
even looked at.

A packet identifier may be given out again by the processing that an acknowledgement
triggers.  What an acknowledgement removes is the entry as it was numbered, and that entry
is `Gone` for good.

## Main definitions

* `Connection.Gone`: a numbered entry has left the window.
* `Connection.gone_receive_iff`: an acknowledgement is heard exactly by an open receiver.
-/

namespace MrUDP
open Wire

/-! ## A packet with an acknowledgement in it -/

/-- An acknowledgement in the packet is visited, with its data complete. -/
theorem Packet.HasAck.visited {p : Packet} {k : PacketID} (h : p.HasAck k) :
    ∃ v ∈ p.unreliableVisits, v.1.type = FrameTypeID.ackFrame ∧
      ∃ ms, Ack.read (v.1.data ++ v.2) = ⟨k, ms⟩ := by
  obtain ⟨f, ms, ⟨front, tail, hdata, hfront⟩, htype, hack⟩ := h
  have hf : f.Fits := by simp [Frame.Fits, hack, sizeofAck]
  have hlength := length_le_length_flatMap_bytes front
  obtain ⟨fuel, hfuel⟩ : ∃ fuel, (front.flatMap Frame.bytes ++ (f.bytes ++ tail)).length =
      front.length + (fuel + 1) := by
    refine ⟨(front.flatMap Frame.bytes ++ (f.bytes ++ tail)).length - front.length - 1, ?_⟩
    rw [List.length_append, List.length_append, Frame.length_bytes, maxFrameHeaderSize]
    omega
  have hpast := @unreliableFramesLoop_past p.rest front hfront (f.bytes ++ tail) (fuel + 1)
  rw [← hfuel, List.append_assoc f.bytes, unreliableFramesLoop_append hf] at hpast
  refine ⟨(f, tail ++ p.rest), ?_, htype, ms, by rw [hack, Ack.read_bytes]⟩
  rw [Packet.unreliableVisits, hdata, hpast]
  exact List.mem_append_right _ List.mem_cons_self

/-- A visited acknowledgement becomes a call. -/
theorem Receiver.onAck_mem_processFrames (z : Zlib) (reliability : Reliability)
    {vs : List Visited} {v : Visited} (hv : v ∈ vs) (htype : v.1.type = FrameTypeID.ackFrame)
    (buffer : Bytes) :
    .onAck (Ack.read (v.1.data ++ v.2)) ∈ (processFrames z reliability buffer vs).1 := by
  induction vs generalizing buffer with
  | nil => cases hv
  | cons w vs ih =>
      rw [processFrames]
      apply List.mem_append.mpr
      rcases List.mem_cons.mp hv with rfl | hv
      · left
        rw [processReceived_ack z reliability buffer htype]
        exact List.mem_singleton_self _
      · exact .inr (ih hv _)

/-- An open receiver passes the acknowledgement on. -/
theorem Receiver.onAck_mem_onReceive {z : Zlib} {r : Receiver} (hopen : r.status = .open)
    {p : Packet} (htype : p.header.type = TypeID.dataUnreliable) {k : PacketID}
    (hack : p.HasAck k) : ∃ ms, .onAck ⟨k, ms⟩ ∈ (r.onReceive z p).1 := by
  obtain ⟨v, hv, hvtype, ms, hread⟩ := hack.visited
  refine ⟨ms, ?_⟩
  have hmem := onAck_mem_processFrames z .unreliable hv hvtype r.compressionBuffer
  rw [hread] at hmem
  rw [Receiver.onReceive, if_neg (not_not.mpr hopen), htype, if_neg (by decide), if_pos rfl]
  exact List.mem_append_right _ hmem

namespace Connection

/-! ## Entries that have left the window -/

/-- Number `n` has been given out, and its packet does not wait under `k`. -/
def Gone (k : PacketID) (n : ℕ) (s : Sender) : Prop :=
  n < s.packetIDGenerator.issued ∧ ∀ paths, s.retrier.outstanding k ≠ some (paths, n)

variable {z : Zlib} {k : PacketID} {n : ℕ} {c : Connection}

theorem gone_change {e : Env} {ok : Packet → Prop} {s s' : Sender}
    (h : Sender.Change e ok s s') (hs : Gone k n s) : Gone k n s' := by
  have hext := h.extends
  refine ⟨hs.1.trans_le hext.issued, fun paths hk => ?_⟩
  rcases hext.outstanding k paths n hk with hk | ⟨hle, _⟩
  · exact hs.2 paths hk
  · exact absurd hs.1 (not_lt.mpr hle)

/-- What has left the window stays out of it. -/
theorem keeps_gone (z : Zlib) (k : PacketID) (n : ℕ) :
    KeepsAll z fun c => Gone k n c.sender :=
  keepsFront_of_sender (fun _ _ _ h hs => gone_change h hs) fun _ hs => hs

theorem keeps_issued (z : Zlib) (n : ℕ) :
    KeepsAll z fun c => n < c.sender.packetIDGenerator.issued :=
  keepsFront_of_sender (Q := fun s => n < s.packetIDGenerator.issued)
    (fun _ _ _ h hs => hs.trans_le h.extends.issued) fun _ hs => hs

/-- In every reachable state the packets that wait carry numbers given out. -/
theorem lt_issued_of_outstanding (hc : Reachable z c) {paths : MultiPacketPath}
    (hk : c.sender.retrier.outstanding k = some (paths, n)) :
    n < c.sender.packetIDGenerator.issued := by
  have hkeeps : KeepsAll z fun c => ∀ k paths n,
      c.sender.retrier.outstanding k = some (paths, n) →
        n < c.sender.packetIDGenerator.issued := by
    refine keepsFront_of_sender (Q := fun s => ∀ k paths n,
      s.retrier.outstanding k = some (paths, n) → n < s.packetIDGenerator.issued) ?_
      fun _ hs => hs
    intro e s s' h hs k paths n hk
    rcases h.extends.outstanding k paths n hk with hk | ⟨_, hlt⟩
    · exact (hs k paths n hk).trans_le h.extends.issued
    · exact hlt
  refine hkeeps.reachable ?_ hc k paths n hk
  intro id localID remoteAddress options k paths n hk
  simp [fresh, Retrier.outstanding] at hk

/-- The call of an acknowledgement removes the entry. -/
theorem gone_onAck (now : Timepoint) {react : Connection → Connection}
    (hreact : ∀ c : Connection, Gone k n c.sender → Gone k n (react c).sender)
    (ms : BitVec 16) (hn : n < c.sender.packetIDGenerator.issued) :
    Gone k n (possiblyClose now react (c.call z now (.onAck ⟨k, ms⟩))).sender := by
  have hack : Gone k n (c.sender.acknowledge now ⟨k, ms⟩) := by
    refine ⟨by rwa [(Sender.acknowledge_frame now _).2.2.1], fun paths hk => ?_⟩
    rw [Sender.outstanding_acknowledge, if_pos rfl] at hk
    cases hk
  have hcall : Gone k n (c.call z now (.onAck ⟨k, ms⟩)).sender := by
    obtain ⟨probe, h⟩ := call_eq z now c (.onAck ⟨k, ms⟩)
    rw [h]
    have hquiet : Relation.ReflTransGen (Sender.Quiet (c.env z now) fun _ => True)
        (c.sender.acknowledge now ⟨k, ms⟩) (c.sender.call (c.env z now) (.onAck ⟨k, ms⟩)) :=
      Sender.scheduleDataQueueProcessing_quiet _ _ _
    generalize c.sender.call (c.env z now) (.onAck ⟨k, ms⟩) = s at hquiet
    show Gone k n s
    induction hquiet with
    | refl => exact hack
    | tail _ hstep ih => exact gone_change (.quiet hstep) ih
  rw [possiblyClose]
  split
  · exact hcall
  · split
    · exact (keeps_gone z k n).closeWith now _ hreact hcall
    · exact hcall

/-- Among the calls of the receiver there is an acknowledgement: afterwards the entry is
gone, whatever the other calls and the handlers do. -/
theorem gone_carryOutAll (now : Timepoint) {ms : BitVec 16} {calls : List ReceiverCall}
    (hmem : .onAck ⟨k, ms⟩ ∈ calls) (scripts : List (List UserCall))
    (hn : n < c.sender.packetIDGenerator.issued) :
    Gone k n (carryOutAll z now scripts calls c).sender := by
  have hany : ∀ script : List UserCall, UserCall.WithinAll True script :=
    UserCall.withinAll_true
  -- Before the acknowledgement the number stays given out, after it the entry stays gone.
  have hcons : ∀ (react : Connection → Connection) (scripts : List (List UserCall))
      (call : ReceiverCall) (calls : List ReceiverCall),
      (∀ c, n < c.sender.packetIDGenerator.issued →
        n < (react c).sender.packetIDGenerator.issued) →
      (∀ c, Gone k n c.sender → Gone k n (react c).sender) →
      (∀ c, n < c.sender.packetIDGenerator.issued → .onAck ⟨k, ms⟩ ∈ calls →
        Gone k n (carryOutAll z now scripts calls c).sender) →
      .onAck ⟨k, ms⟩ ∈ call :: calls → ∀ c, n < c.sender.packetIDGenerator.issued →
      Gone k n (carryOutAll z now scripts calls (carryOut z now react c call)).sender := by
    intro react scripts call calls hissued hgone ih hmem c hn
    rcases List.mem_cons.mp hmem with rfl | hmem
    · apply (keeps_gone z k n).carryOutAll now fun script _ => hany script
      exact gone_onAck now hgone ms hn
    · apply ih _ _ hmem
      exact (keeps_issued z n).carryOut now hissued hn call
  induction calls generalizing scripts c with
  | nil => cases hmem
  | cons call calls ih =>
      cases scripts with
      | nil =>
          rw [carryOutAll]
          exact hcons _ [] call calls (fun _ h => h) (fun _ h => h)
            (fun c hn hmem => ih hmem [] hn) hmem c hn
      | cons script scripts =>
          rw [carryOutAll]
          exact hcons _ scripts call calls
            ((keeps_issued z n).userCalls now script (hany script))
            ((keeps_gone z k n).userCalls now script (hany script))
            (fun c hn hmem => ih hmem scripts hn) hmem c hn

/-! ## Receiving data -/

/-- A packet of the established path passes the network path. -/
theorem receive_eq_accept {p : Packet} (hh3 : p.header.type ≠ TypeID.h3)
    (hchallenge : p.header.type ≠ TypeID.authenticateChallenge) (now : Timepoint)
    (reactions : Reactions) :
    c.receive z now reactions p c.remoteAddress = c.accept z now reactions p := by
  rw [receive, HandshakeOptions.onReceive, if_neg hh3]
  dsimp only
  rw [networkPathOnReceive, if_neg hchallenge, if_neg (not_not.mpr rfl)]

/-- A packet that is neither part of the handshake nor an acknowledgement nor a close only
concerns the receiver. -/
theorem accept_eq {p : Packet} (hhandshake : isHandshake p.header.type = false)
    (hack : isAck p.header.type = false) (hclose : p.header.type ≠ TypeID.closeRead)
    (now : Timepoint) (reactions : Reactions) :
    c.accept z now reactions p =
      receiverOnReceive z now reactions.received
        { c with probe := c.probe.on c.options now } p := by
  simp only [accept, handshakeOnReceive, hhandshake, senderOnReceive, hack, if_neg hclose,
    Bool.false_eq_true, if_false]

/-- **An acknowledgement is heard exactly by an open receiver.**  In every reachable state,
an acknowledgement of a packet in the window, in an unreliable packet of the established
path, removes the packet's entry if and only if the receiver is open. -/
theorem gone_receive_iff (hc : Reachable z c) {paths : MultiPacketPath}
    (hk : c.sender.retrier.outstanding k = some (paths, n)) {p : Packet}
    (htype : p.header.type = TypeID.dataUnreliable) (hack : p.HasAck k) (now : Timepoint)
    (reactions : Reactions) :
    (∀ paths', (c.receive z now reactions p c.remoteAddress).sender.retrier.outstanding k ≠
        some (paths', n)) ↔
      c.receiver.status = .open := by
  have hn := lt_issued_of_outstanding hc hk
  rw [receive_eq_accept (by rw [htype]; decide) (by rw [htype]; decide),
    accept_eq (by rw [htype]; decide) (by rw [htype]; decide) (by rw [htype]; decide),
    receiverOnReceive]
  constructor
  · intro hgone
    by_contra hclosed
    have hcalls : c.receiver.onReceive z p = ([], c.receiver) := by
      rw [Receiver.onReceive, if_pos hclosed]
    rw [hcalls] at hgone
    exact hgone paths hk
  · intro hopen
    obtain ⟨ms, hmem⟩ := Receiver.onAck_mem_onReceive (z := z) hopen htype hack
    exact (gone_carryOutAll (c := { c with
      probe := c.probe.on c.options now
      receiver := (c.receiver.onReceive z p).2 }) now hmem reactions.received hn).2

/-! ## A connection that is closed while a packet is outstanding -/

/-- A zlib that refuses to compress. -/
def storing : Zlib := ⟨fun _ _ _ => none, fun _ _ => []⟩

/-- Every message is sent at once. -/
def immediate : ConnectionOptions :=
  { getDefaultConnectionOptions with
    coalesceReliable := ⟨.none, 0, 0⟩
    coalesceUnreliable := ⟨.none, 0, 0⟩ }

/-- A connection to the peer at address 1, before the handshake. -/
def connecting (options : ConnectionOptions) : Connection :=
  connect storing 0 none true true (fresh 5 3 1 options)

/-- The answers of a peer whose short identifier is 7. -/
def handshaken (options : ConnectionOptions) : List (Timepoint × Input) :=
  [(1, .receive { header := { type := TypeID.h1, id := 0 } } 1 {}),
    (2, .receive { header := { type := TypeID.h3, id := 1 }
                   data := leBytes 2 7 ++ HandshakeOptions.bytes options } 1 {})]

/-- A message is sent after the handshake, as packet 2. -/
def sendingOne : List (Timepoint × Input) :=
  handshaken immediate ++ [(3, .user (.send [9] .reliable))]

/-- And then the user closes the connection. -/
def closingEarly : List (Timepoint × Input) := sendingOne ++ [(4, .user (.close [] []))]

/-- The peer acknowledges packet 2. -/
def ackOfTwo : Packet :=
  { header := { type := TypeID.dataUnreliable, connection := 3 }
    data := Frame.bytes ⟨0, FrameTypeID.ackFrame, Ack.bytes ⟨2, 0⟩⟩ }

theorem ackOfTwo_hasAck : ackOfTwo.HasAck 2 :=
  ⟨⟨0, FrameTypeID.ackFrame, Ack.bytes ⟨2, 0⟩⟩, 0, ⟨[], [], by decide, by simp⟩, rfl, rfl⟩

theorem reachable_run (options : ConnectionOptions) (inputs : List (Timepoint × Input)) :
    Reachable storing (Machine.run (step storing) (connecting options) inputs) :=
  ⟨_, inputs, .connected 5 3 1 options 0 none true true, rfl⟩

/-- The state in which packet 2 waits for its acknowledgement. -/
def oneOutstanding : Connection := Machine.run (step storing) (connecting immediate) sendingOne

/-- Before the close the acknowledgement is heard. -/
theorem gone_receive_iff_oneOutstanding :
    ∃ paths n, oneOutstanding.sender.retrier.outstanding 2 = some (paths, n) ∧
      ∀ paths', (oneOutstanding.receive storing 5 {} ackOfTwo
        oneOutstanding.remoteAddress).sender.retrier.outstanding 2 ≠ some (paths', n) := by
  have hsome : (oneOutstanding.sender.retrier.outstanding 2).isSome = true := by
    decide +kernel
  obtain ⟨⟨paths, n⟩, hk⟩ := Option.isSome_iff_exists.mp hsome
  refine ⟨paths, n, hk, ?_⟩
  exact (gone_receive_iff (reachable_run immediate sendingOne) hk rfl ackOfTwo_hasAck 5 {}).mpr
    (by decide +kernel)

/-- **After the close the acknowledgement is not heard**: packet 2 is still in the window,
though it has reached the peer. -/
theorem ack_unheard_after_close :
    let c := Machine.run (step storing) (connecting immediate) closingEarly
    Reachable storing c ∧ ackOfTwo.header.type = TypeID.dataUnreliable ∧ ackOfTwo.HasAck 2 ∧
      (c.sender.retrier.outstanding 2).isSome = true ∧
      (c.receive storing 5 {} ackOfTwo c.remoteAddress).sender.retrier.outstanding 2 =
        c.sender.retrier.outstanding 2 := by
  refine ⟨reachable_run immediate closingEarly, rfl, ackOfTwo_hasAck, ?_, ?_⟩
  · decide +kernel
  · decide +kernel

end Connection
end MrUDP
