import MrUDP.Connection.Outstanding
import MrUDP.Connection.Transmitted

/-!
# Acknowledgements that leave

An acknowledgement leaves through the unreliable queue.  That queue belongs to the sending
direction: `Sender::fail`, which the peer's close of its reading direction calls, closes
it.  From then on nothing that is received is acknowledged, though the receiver is open.

## Main definitions

* `Connection.Acked`: an acknowledgement has been transmitted.
* `Connection.Owed`: it has been, or it is going to be.
* `Connection.acked_iff`: a packet is acknowledged exactly while the queue is open.
-/

namespace MrUDP
namespace Connection

variable {z : Zlib} {n : ℕ} {k : PacketID} {c : Connection}

/-! ## A connection that can send -/

theorem env_canSend (z : Zlib) (now : Timepoint) (c : Connection) :
    (c.env z now).canSend = c.canSend := rfl

/-- A connection that can send has completed its handshake and opened its sender. -/
def Prepared (c : Connection) : Prop :=
  c.canSend = true →
    c.handshake.waitingFor = TypeID.handshakeComplete ∧ c.sender.status ≠ .uninitialized

/-- Nothing behind the handshake touches the handshake or the identifiers. -/
theorem keeps_handshake (z : Zlib) (free : Prop) (handshake : Handshake) :
    Keeps z free fun c => c.handshake = handshake :=
  keeps_of_frame fun hc _ _ _ _ hhandshake => hhandshake.trans hc

theorem status_open (e : Env) (s : Sender) : (s.open e).status ≠ .uninitialized := by
  have hquiet : Relation.ReflTransGen (Sender.Quiet e fun _ => True)
      (if s.status = .uninitialized then { s with status := .open } else s) (s.open e) :=
    .trans (Sender.scheduleDataQueueProcessing_quiet _ .reliable false)
      (Sender.scheduleDataQueueProcessing_quiet _ .unreliable false)
  generalize s.open e = s' at hquiet
  induction hquiet with
  | refl =>
      split
      · simp
      next h => exact h
  | tail _ hstep ih => exact (Sender.Change.quiet hstep).initialized ih

theorem keepsFront_prepared (z : Zlib) : KeepsAll z Prepared := by
  have hsender : ∀ {ok : Packet → Prop} {now : Timepoint} (c : Connection) (s : Sender),
      Sender.Change (c.env z now) ok c.sender s → Prepared c → Prepared { c with sender := s } := by
    intro ok now c s h hc hcan
    obtain ⟨hwaiting, hstatus⟩ := hc hcan
    exact ⟨hwaiting, h.initialized hstatus⟩
  have hflush : ∀ (c : Connection) (now : Timepoint), Prepared c → Prepared (c.flush now) := by
    intro c now hc
    obtain ⟨probe, hflush⟩ := flush_eq now c
    rw [hflush]
    exact hc
  have hkeeps : Keeps z True Prepared := by
    refine keeps_of_change ?_ fun _ _ hc => hc
    intro c c' h hc
    cases h with
    | sender now h => exact hsender c _ h hc
    | flush now => exact hflush c now hc
    | probe | receiver | user => exact hc
  refine { hkeeps with
    negotiate := fun _ _ hc => hc
    send := ?_
    sendReliably := fun {c} now paths priority hpaths hc => hflush _ now (sender_of_changes hsender
      (@Sender.call_changes (c.env z now) _ c.sender (.sendReliably paths priority) hpaths) hc)
    waitingFor := ?_
    complete := ?_
    remoteAddress := fun _ hc => hc }
  · intro c now packet _ hc
    rw [send_eq]
    exact hc
  · intro c type _ _ hwaiting hc hcan
    exact absurd (hc hcan).1 hwaiting
  · intro c now scripts remoteID first _ hscripts _ _ _
    rw [complete, onHandshakeComplete]
    dsimp only
    refine ⟨?_, ?_⟩
    · rw [handshake_call]
      rw [(keeps_handshake z True ⟨TypeID.handshakeComplete, first⟩).carryOutAll now hscripts _
        rfl]
    · obtain ⟨probe, h⟩ := call_eq z now _ .open
      rw [h]
      apply status_open

theorem prepared_of_reachable (hc : Reachable z c) : Prepared c :=
  (keepsFront_prepared z).reachable (fun _ _ _ _ hcan => absurd hcan (by simp [canSend, fresh]))
    hc

theorem wf_of_reachable (hc : Reachable z c) : ∃ b, c.sender.unreliableDataQueue.WF b :=
  (keepsFront_of_sender (Q := fun s => ∃ b, s.unreliableDataQueue.WF b)
    (fun _ _ _ h hs => h.wf hs) fun _ hs => hs).reachable
    (fun _ _ _ _ => ⟨0, SendQueue.WF.init⟩) hc

/-! ## Acknowledgements owed -/

/-- After the first `n` packets an acknowledgement of `k` has been transmitted. -/
def Acked (n : ℕ) (k : PacketID) (c : Connection) : Prop :=
  ∃ o ∈ c.transmitted.drop n, o.packet.Acks k

/-- The connection can send, and owes an acknowledgement of `k`. -/
structure Owed (n : ℕ) (k : PacketID) (c : Connection) : Prop where
  canSend : c.canSend = true
  waitingFor : c.handshake.waitingFor = TypeID.handshakeComplete
  length : n ≤ c.transmitted.length
  initialized : c.sender.status ≠ .uninitialized
  wf : ∃ b, c.sender.unreliableDataQueue.WF b
  owing : c.sender.Owing k (Acked n k c)

/-- Unreliable data is transmitted as it is, once the peer's identifier is known. -/
theorem acks_outgoing (hcan : c.canSend = true) {t : Transmission} (ht : t.packet.Acks k) :
    (c.outgoing t).packet.Acks k := by
  refine ⟨by rw [type_outgoing, ht.1], ?_⟩
  have honSend : (HandshakeOptions.onSend c.options t.packet).2 = t.packet := by
    rw [HandshakeOptions.onSend, if_neg (by rw [ht.1]; decide)]
  have hremote : c.remoteID ≠ 0 := by
    intro h
    simp [Connection.canSend, h] at hcan
  have hdata : (c.outgoing t).packet.data = t.packet.data := by
    rw [outgoing, honSend, ite_self, wire]
    dsimp only
    rw [if_neg hremote]
  obtain ⟨f, ms, ⟨front, tail, hlayout, hfits⟩, hack⟩ := ht.2
  exact ⟨f, ms, ⟨front, tail, hdata.trans hlayout, hfits⟩, hack⟩

theorem Acked.append (hn : n ≤ c.transmitted.length) {os : List Outgoing} {c' : Connection}
    (hc' : c'.transmitted = c.transmitted ++ os)
    (h : Acked n k c ∨ ∃ o ∈ os, o.packet.Acks k) : Acked n k c' := by
  rw [Acked, hc', List.drop_append_of_le_length hn]
  rcases h with ⟨o, ho, hacks⟩ | ⟨o, ho, hacks⟩
  · exact ⟨o, List.mem_append_left _ ho, hacks⟩
  · exact ⟨o, List.mem_append_right _ ho, hacks⟩

theorem Owed.sender {now : Timepoint} {ok : Packet → Prop} {s : Sender}
    (h : Sender.Change (c.env z now) ok c.sender s) (hc : Owed n k c) :
    Owed n k { c with sender := s } where
  __ := hc
  initialized := h.initialized hc.initialized
  wf := h.wf hc.wf
  owing := h.owing hc.canSend hc.initialized hc.wf hc.owing

theorem Owed.flush (now : Timepoint) (hc : Owed n k c) : Owed n k (c.flush now) := by
  obtain ⟨probe, h⟩ := flush_eq now c
  have htransmitted : (c.flush now).transmitted =
      c.transmitted ++ c.sender.outbox.map c.outgoing := by rw [h]
  refine ⟨?_, ?_, ?_, ?_, ?_, ?_⟩
  · rw [h]; exact hc.canSend
  · rw [h]; exact hc.waitingFor
  · rw [htransmitted, List.length_append]
    have := hc.length
    omega
  · rw [h]; exact hc.initialized
  · rw [h]; exact hc.wf
  · intro hopen
    have hsender : (c.flush now).sender = { c.sender with outbox := [] } := by rw [h]
    rw [hsender] at hopen ⊢
    rcases hc.owing hopen with hdelayed | ⟨t, ht, hacks⟩ | hdone
    · exact .inl hdelayed
    · refine .inr (.inr (.append hc.length htransmitted (.inr ⟨c.outgoing t, ?_, ?_⟩)))
      · exact List.mem_map_of_mem ht
      · exact acks_outgoing hc.canSend hacks
    · exact .inr (.inr (.append hc.length htransmitted (.inl hdone)))

theorem keeps_owed (z : Zlib) (free : Prop) (n : ℕ) (k : PacketID) :
    Keeps z free (Owed n k) := by
  refine keeps_of_change ?_ fun _ _ hc =>
    { hc with }
  intro c c' h hc
  cases h with
  | sender now h => exact hc.sender h
  | flush now => exact hc.flush now
  | probe | receiver | user =>
      exact { hc with }

/-- **What is owed stays owed** until it is transmitted, or until the queue is closed. -/
theorem keepsFront_owed (z : Zlib) (n : ℕ) (k : PacketID) :
    KeepsAll z (Owed n k) := by
  refine { keeps_owed z True n k with
    negotiate := fun _ _ hc =>
      { hc with }
    send := ?_
    sendReliably := ?_
    waitingFor := fun _ _ _ hwaiting hc => absurd hc.waitingFor hwaiting
    complete := fun _ _ _ _ _ _ hwaiting hc => absurd hc.waitingFor hwaiting
    remoteAddress := fun _ hc =>
      { hc with } }
  · intro c now packet _ hc
    rw [send_eq]
    refine { hc with length := ?_, owing := ?_ }
    · have := hc.length
      rw [List.length_append]
      omega
    · intro hopen
      rcases hc.owing hopen with hdelayed | houtbox | hdone
      · exact .inl hdelayed
      · exact .inr (.inl houtbox)
      · exact .inr (.inr (.append hc.length rfl (.inl hdone)))
  · intro c now paths priority _ hc
    have hchange : Sender.Change (c.env z now) (fun _ => True) c.sender
        (c.sender.sendReliablyMultipath now paths priority) :=
      .quiet (.sendReliably _ priority fun _ _ => trivial)
    exact (hc.sender hchange).flush now

/-- `Sender::ack` starts owing. -/
theorem owed_ack (now : Timepoint) (hcan : c.canSend = true)
    (hwaiting : c.handshake.waitingFor = TypeID.handshakeComplete)
    (hn : n ≤ c.transmitted.length) (hstatus : c.sender.status ≠ .uninitialized)
    (hwf : ∃ b, c.sender.unreliableDataQueue.WF b) : Owed n k (c.call z now (.ack k)) := by
  let s : Sender := { c.sender with delayedAcks := c.sender.delayedAcks ++ [⟨k, now⟩] }
  have hdelayed : Owed n k { c with sender := s } :=
    ⟨hcan, hwaiting, hn, hstatus, hwf, fun _ => .inl ⟨⟨k, now⟩, by simp [s], rfl⟩⟩
  have hquiet : Relation.ReflTransGen (Sender.Quiet (c.env z now) fun _ => True) s
      (c.sender.ack (c.env z now) k) :=
    Sender.scheduleDataQueueProcessing_quiet _ .unreliable false
  apply Owed.flush
  exact sender_of_changes (c := { c with sender := s }) (fun c s' h hc => hc.sender h)
    (Sender.changes_of_quiet hquiet) hdelayed

/-! ## Processing the queue -/

/-- `Sender::processUnreliableDataQueue`, up to the packets it sends. -/
def processUnreliable (z : Zlib) (now : Timepoint) (c : Connection) : Connection :=
  flush now { c with sender := c.sender.processUnreliableDataQueue (c.env z now) }

/-- Processing the open queue pays what is owed. -/
theorem acked_processUnreliable (now : Timepoint) (hc : Owed n k c)
    (hopen : c.sender.unreliableDataQueue.status = .open) :
    Acked n k (c.processUnreliable z now) := by
  have hready : c.sender.isReadyToSend (c.env z now) = true := by
    simp [Sender.isReadyToSend, env_canSend, hc.canSend, hc.initialized]
  obtain ⟨probe, h⟩ := flush_eq now
    { c with sender := c.sender.processUnreliableDataQueue (c.env z now) }
  have htransmitted : (c.processUnreliable z now).transmitted = c.transmitted ++
      (c.sender.processUnreliableDataQueue (c.env z now)).outbox.map c.outgoing := by
    rw [processUnreliable, h]
    rfl
  apply Acked.append hc.length htransmitted
  rcases Sender.acks_of_owing hready hc.wf hc.owing hopen with ⟨t, ht, hacks⟩ | hdone
  · right
    exact ⟨_, List.mem_map_of_mem ht, acks_outgoing hc.canSend hacks⟩
  · exact .inl hdone

/-- All but unreliable data. -/
def NotUnreliable (type : TypeID) : Prop := type ≠ TypeID.dataUnreliable

instance : DecidablePred NotUnreliable :=
  fun type => inferInstanceAs (Decidable (type ≠ TypeID.dataUnreliable))

theorem goodTypes_notUnreliable : GoodTypes NotUnreliable where
  data := by decide
  probe := by decide
  closeRead := by decide
  h0 := by decide
  h2 := by decide
  challenge := by decide

theorem notUnreliable_of_isAnswer (p : Packet) (hp : IsAnswer (fun _ => True) p) :
    NotUnreliable p.header.type := by
  rcases hp with ⟨hp, _⟩ | ⟨hp, _⟩ | hp <;> rw [hp] <;> decide

variable {front : List Outgoing}

theorem not_acked_of_withholds (hc : Withholds NotUnreliable front c) :
    ¬ Acked front.length k c := by
  rintro ⟨o, ho, hacks⟩
  obtain ⟨os, hos, hgood⟩ := hc.transmitted
  rw [hos, List.drop_left] at ho
  exact hgood o ho hacks.1

theorem withholds_processUnreliable (now : Timepoint) (hc : Withholds NotUnreliable front c) :
    Withholds NotUnreliable front (c.processUnreliable z now) := by
  apply Withholds.flush
  exact hc.sender goodTypes_notUnreliable (.quiet (.processUnreliableDataQueue _))

/-! ## Receiving a packet that requires an acknowledgement -/

/-- The receiver acknowledges before it does anything else. -/
theorem onReceive_ack {r : Receiver} (hopen : r.status = .open) {p : Packet}
    (hp : requiresAck p.header.type = true) :
    ∃ calls, (r.onReceive z p).1 = .ack p.header.id :: calls := by
  rw [Receiver.onReceive, if_neg (not_not.mpr hopen)]
  simp only [hp, if_true]
  split
  · exact ⟨_, rfl⟩
  · split
    · exact ⟨_, rfl⟩
    · exact ⟨[], rfl⟩

/-- What the receiver is given is owed an acknowledgement. -/
theorem owed_receiverOnReceive (hcan : c.canSend = true)
    (hwaiting : c.handshake.waitingFor = TypeID.handshakeComplete)
    (hn : n ≤ c.transmitted.length) (hstatus : c.sender.status ≠ .uninitialized)
    (hwf : ∃ b, c.sender.unreliableDataQueue.WF b) (hopen : c.receiver.status = .open)
    {p : Packet} (hp : requiresAck p.header.type = true) (now : Timepoint)
    (scripts : List (List UserCall)) :
    Owed n p.header.id (receiverOnReceive z now scripts c p) := by
  obtain ⟨calls, hcalls⟩ := onReceive_ack (z := z) hopen hp
  have hack : Owed n p.header.id
      (carryOut z now (fun c => c) { c with receiver := (c.receiver.onReceive z p).2 }
        (.ack p.header.id)) :=
    owed_ack (c := { c with receiver := _ }) now hcan hwaiting hn hstatus hwf
  show Owed n p.header.id (carryOutAll z now scripts (c.receiver.onReceive z p).1
    { c with receiver := (c.receiver.onReceive z p).2 })
  rw [hcalls]
  cases scripts with
  | nil =>
      rw [carryOutAll]
      exact (keeps_owed z True n _).carryOutAll now (by simp) calls hack
  | cons script scripts =>
      rw [carryOutAll]
      exact (keeps_owed z True n _).carryOutAll now
        (fun script _ => UserCall.withinAll_true script) calls hack

theorem requiresAck_iff (type : TypeID) :
    requiresAck type = true ↔
      type = TypeID.dataReliable ∨ type = TypeID.probe ∨ type = TypeID.closeRead := by
  rw [requiresAck, decide_eq_true_eq]

/-- A packet that requires an acknowledgement has no business in front of the sender. -/
theorem receive_eq_of_requiresAck {p : Packet} (hp : requiresAck p.header.type = true)
    (now : Timepoint) (reactions : Reactions) :
    c.receive z now reactions p c.remoteAddress =
      receiverOnReceive z now reactions.received
        (senderOnReceive z now (userCalls z now reactions.acked)
          { c with probe := c.probe.on c.options now } p) p := by
  have hp' := (requiresAck_iff _).mp hp
  have hhandshake : isHandshake p.header.type = false := by
    rcases hp' with h | h | h <;> rw [h] <;> decide
  rw [receive_eq_accept (by rcases hp' with h | h | h <;> rw [h] <;> decide)
    (by rcases hp' with h | h | h <;> rw [h] <;> decide)]
  simp only [accept, handshakeOnReceive, hhandshake, Bool.false_eq_true, if_false]

theorem senderOnReceive_eq {p : Packet} (hp : requiresAck p.header.type = true)
    (htype : p.header.type ≠ TypeID.closeRead) (now : Timepoint)
    (react : Connection → Connection) : senderOnReceive z now react c p = c := by
  have hack : isAck p.header.type = false := by
    rcases (requiresAck_iff _).mp hp with h | h | h <;> rw [h] <;> decide
  simp only [senderOnReceive, hack, Bool.false_eq_true, if_false, if_neg htype]

/-- Neither the user nor the receiver closes the unreliable queue. -/
theorem keepsCalls_unreliable :
    KeepsCalls z True fun c => c.sender.unreliableDataQueue.status = .open := by
  apply keepsCalls_of_call (Q := fun s => s.unreliableDataQueue.status = .open)
  intro c now call hcall hc
  obtain ⟨probe, h⟩ := call_eq z now c call
  rw [h]
  exact (Sender.status_unreliable_call c.sender hcall).trans hc

theorem keepsFront_notUnreliable :
    KeepsAll z (Withholds NotUnreliable front) :=
  keepsFront_withholds goodTypes_notUnreliable z notUnreliable_of_isAnswer front

/-- The peer's close of its reading direction closes the queue before anything else. -/
theorem withholds_receive_closeRead (hc : Reachable z c) {p : Packet}
    (htype : p.header.type = TypeID.closeRead) (now : Timepoint) (reactions : Reactions) :
    Withholds NotUnreliable c.transmitted
      (c.receive z now reactions p c.remoteAddress) := by
  have hkeeps := keeps_withholds goodTypes_notUnreliable z True c.transmitted
  rw [receive_eq_of_requiresAck (by rw [htype]; decide)]
  apply hkeeps.receiverOnReceive now fun script _ => UserCall.withinAll_true script
  rw [senderOnReceive, if_neg (by rw [htype]; decide), if_pos htype]
  refine possiblyClose_of_user (P := Withholds NotUnreliable c.transmitted)
    (fun c _ _ _ _ _ _ _ _ hc => hc.of_eq rfl rfl) now
    (hkeeps.userCalls now _ (UserCall.withinAll_true _)) ?_
  apply Withholds.flush
  refine ⟨?_, ?_, .inl (SendQueue.status_close _), [], by simp, by simp⟩
  · have hfail : Sender.Change (c.env z now) IsReliable c.sender c.sender.fail := .fail _
    exact hfail.waits goodTypes_notUnreliable.indifferent
      (fun p hp => goodTypes_notUnreliable.reliable hp)
      (waits_of_reachable goodTypes_notUnreliable hc)
  · intro t ht
    change t ∈ c.sender.outbox at ht
    rw [outbox_of_reachable hc] at ht
    cases ht

/-- **A packet is acknowledged exactly while the queue is open.**  In every reachable state
in which the receiver is open and the connection can send, a packet that requires an
acknowledgement gets it, by the next time the unreliable queue is processed, if and only if
that queue is open and the packet does not close it.  And however long the processing is put
off, the acknowledgement is not lost as long as the queue is open when it happens. -/
theorem acked_iff (hc : Reachable z c) (hopen : c.receiver.status = .open)
    (hcan : c.canSend = true) {p : Packet} (hp : requiresAck p.header.type = true)
    (now : Timepoint) (reactions : Reactions) :
    (∀ later, Acked c.transmitted.length p.header.id
        ((c.receive z now reactions p c.remoteAddress).processUnreliable z later) ↔
      c.sender.unreliableDataQueue.status = .open ∧ p.header.type ≠ TypeID.closeRead) ∧
    ∀ inputs later,
      let c' := Machine.run (step z) (c.receive z now reactions p c.remoteAddress) inputs
      c'.sender.unreliableDataQueue.status = .open →
        Acked c.transmitted.length p.header.id (c'.processUnreliable z later) := by
  obtain ⟨hwaiting, hstatus⟩ := prepared_of_reachable hc hcan
  have hwf := wf_of_reachable hc
  have howed : p.header.type ≠ TypeID.closeRead → Owed c.transmitted.length p.header.id
      (c.receive z now reactions p c.remoteAddress) := by
    intro htype
    rw [receive_eq_of_requiresAck hp, senderOnReceive_eq hp htype]
    exact owed_receiverOnReceive (c := { c with probe := c.probe.on c.options now }) hcan
      hwaiting le_rfl hstatus hwf hopen hp now reactions.received
  constructor
  · intro later
    constructor
    · intro hacked
      by_contra hnot
      refine not_acked_of_withholds (withholds_processUnreliable later ?_) hacked
      by_cases htype : p.header.type = TypeID.closeRead
      · exact withholds_receive_closeRead hc htype now reactions
      · have hclosed : c.sender.unreliableDataQueue.status = .closed := by
          cases hqueue : c.sender.unreliableDataQueue.status with
          | closed => rfl
          | «open» => exact absurd ⟨hqueue, htype⟩ hnot
        exact keepsFront_notUnreliable.receive now reactions.within_true trivial _
          (.of_reachable goodTypes_notUnreliable hc (.inl hclosed))
    · rintro ⟨hqueue, htype⟩
      apply acked_processUnreliable later (howed htype)
      rw [receive_eq_of_requiresAck hp, senderOnReceive_eq hp htype]
      exact keepsCalls_unreliable.receiverOnReceive now
        (fun script _ => UserCall.withinAll_true script) p hqueue
  · intro inputs later c' hqueue
    by_cases htype : p.header.type = TypeID.closeRead
    · -- The queue has been closed, and stays so.
      have hwithholds := (keepsFront_notUnreliable (z := z)).run inputs
        (withholds_receive_closeRead hc htype now reactions)
      rcases hwithholds.unreliable with hclosed | hgood
      · rw [hqueue] at hclosed
        cases hclosed
      · exact absurd rfl hgood
    · exact acked_processUnreliable later
        ((keepsFront_owed z _ _).run inputs (howed htype)) hqueue

/-! ## A connection whose peer has stopped reading -/

/-- After the handshake, the peer closes its reading direction. -/
def closedByPeer : List (Timepoint × Input) :=
  handshaken immediate ++
    [(3, .receive { header := { connection := 3, type := TypeID.closeRead, id := 0 } } 1 {})]

/-- A message of the peer, in packet 1. -/
def messageOfPeer : Packet :=
  { header := { connection := 3, type := TypeID.dataReliable, id := 1 }
    data := Frame.bytes ⟨0, FrameTypeID.data, [9]⟩ }

/-- Right after the handshake the message is acknowledged. -/
theorem acked_iff_handshaken :
    let c := Machine.run (step storing) (connecting immediate) (handshaken immediate)
    c.receiver.status = .open ∧ c.canSend = true ∧ requiresAck messageOfPeer.header.type = true ∧
      Acked c.transmitted.length 1
        ((c.receive storing 4 {} messageOfPeer c.remoteAddress).processUnreliable storing 5) := by
  intro c
  have hopen : c.receiver.status = .open := by decide +kernel
  have hcan : c.canSend = true := by decide +kernel
  have hp : requiresAck messageOfPeer.header.type = true := by decide
  refine ⟨hopen, hcan, hp, ?_⟩
  refine ((acked_iff (reachable_run immediate _) hopen hcan hp 4 {}).1 5).mpr ⟨?_, by decide⟩
  decide +kernel

/-- **Once the peer has stopped reading, nothing is acknowledged**, though the receiver is
open and delivers the message. -/
theorem unacked_after_closeRead :
    let c := Machine.run (step storing) (connecting immediate) closedByPeer
    let c' := c.receive storing 4 {} messageOfPeer c.remoteAddress
    Reachable storing c ∧ c.receiver.status = .open ∧ c.canSend = true ∧
      requiresAck messageOfPeer.header.type = true ∧
      c'.delivered = [([9], .reliable)] ∧
      ¬ Acked c.transmitted.length messageOfPeer.header.id (c'.processUnreliable storing 5) := by
  intro c c'
  refine ⟨reachable_run immediate _, by decide +kernel, by decide +kernel, by decide,
    by decide +kernel, ?_⟩
  have hsilent : (c'.processUnreliable storing 5).transmitted = c.transmitted := by
    decide +kernel
  rintro ⟨o, ho, _⟩
  rw [hsilent, List.drop_length] at ho
  cases ho

end Connection
end MrUDP
