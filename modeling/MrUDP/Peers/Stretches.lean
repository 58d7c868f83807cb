import MrUDP.Sender.Emission
import MrUDP.Socket.Speech

/-!
# What the data packets of a connection carry

A connection takes its data packets out of the reliable queue, keeps them in the window, sends them
again and pushes its long identifier on them as long as the peer's short one is not known.  Whatever
the user, the peer and the timers do, a data packet that reaches the peer carries a stretch of the
frames that the queue has generated.

## Main definitions

* `Packet.Stretch`: a data packet carries a stretch of a sequence of frames.
* `Sender.Stretches`: so do all packets that wait or are about to be sent.
* `Connection.Stretches`: so do all packets that were transmitted, as they arrive.
* `Connection.stretches_of_reachable`: in every reachable state.
-/

namespace MrUDP

/-- A data packet carries a stretch of the frames, and leaves room for a long identifier. -/
def Packet.Stretch (g : List Frame) (p : Packet) : Prop :=
  p.header.type = TypeID.dataReliable →
    p.data.length ≤ maxPacketPostFrameSize ∧ p.Carries g p.frames.length

theorem Packet.Stretch.of_type {g : List Frame} {p : Packet}
    (h : p.header.type ≠ TypeID.dataReliable) : p.Stretch g :=
  fun htype => absurd htype h

/-- The identifier of the packet and that of the connection do not matter. -/
theorem Packet.Stretch.of_eq {g : List Frame} {p p' : Packet} (h : p.Stretch g)
    (hnum : Numbered g) (htype : p'.header.type = p.header.type) (hbase : p'.base = p.base)
    (hdata : p'.header.type = TypeID.dataReliable → p'.data = p.data) : p'.Stretch g := by
  intro htype'
  obtain ⟨hsize, hcarries⟩ := h (htype.symm.trans htype')
  have hcarries' : p'.Carries g p.frames.length :=
    ⟨by rw [hbase]; exact hcarries.le_length, by rw [hdata htype', hbase]; exact hcarries.data⟩
  refine ⟨by rw [hdata htype']; exact hsize, ?_⟩
  rw [hcarries'.length_frames hnum]
  exact hcarries'

theorem Packet.Stretch.mono {g g' : List Frame} {p : Packet} (h : p.Stretch g) (hg : g <+: g') :
    p.Stretch g' := by
  obtain ⟨tail, rfl⟩ := hg
  intro htype
  exact ⟨(h htype).1, (h htype).2.mono tail⟩

/-! ## The sender -/

namespace Sender

/-- The packets that wait in the window or are about to be sent carry stretches of the generated
frames. -/
structure Stretches (s : Sender) : Prop where
  queues : s.Queues
  waits : s.Waits (Packet.Stretch s.dataQueue.generated)
  posts : s.Posts (Packet.Stretch s.dataQueue.generated)

theorem Stretches.init : Stretches {} where
  queues := .init
  waits k paths n hk := by simp [Retrier.outstanding] at hk
  posts t ht := by cases ht

variable {e : Env} {ok : Packet → Prop} {s s' : Sender}

theorem Stretches.numbered (h : s.Stretches) : Numbered s.dataQueue.generated := by
  obtain ⟨b, hwf⟩ := h.queues.reliable
  exact hwf.numbered

/-- What waits and what is posted are there already, and frames may have been generated. -/
theorem Stretches.of_sub (h : s.Stretches) (hqueues : s'.Queues)
    (hgenerated : s.dataQueue.generated <+: s'.dataQueue.generated)
    (hwaits : ∀ k paths n, s'.retrier.outstanding k = some (paths, n) →
      s.retrier.outstanding k = some (paths, n))
    (hposts : ∀ t ∈ s'.outbox, t ∈ s.outbox ∨ t.packet.header.type ≠ TypeID.dataReliable) :
    s'.Stretches where
  queues := hqueues
  waits k paths n hk path hpath :=
    (h.waits k paths n (hwaits k paths n hk) path hpath).mono hgenerated
  posts t ht := by
    rcases hposts t ht with ht | htype
    · exact (h.posts t ht).mono hgenerated
    · exact .of_type htype

/-- Nothing but the packets that carry stretches is sent. -/
theorem Stretches.sendReliablyMultipath (h : s.Stretches) (e : Env) {paths : MultiPacketPath}
    (hpaths : ∀ path ∈ paths.toList, path.packet.Stretch s.dataQueue.generated)
    (priority : Bool) : (s.sendReliablyMultipath e.now paths priority).Stretches := by
  -- The queues are not asked, so it does not matter what they would give.
  have hpostable : Postable { e with canSend := false } (Packet.Stretch s.dataQueue.generated) :=
    ⟨fun p id hp => hp.of_eq h.numbered rfl rfl fun _ => rfl, fun hcan => by cases hcan⟩
  obtain ⟨hqueues, posts, hemits⟩ :=
    emission_sendReliablyMultipath hpostable s e.now hpaths priority h.queues
  refine ⟨hqueues, fun k paths n hk path hpath => ?_, fun t ht => ?_⟩
  · rcases hemits.outstanding k paths n hk with hk | ⟨_, hnew⟩
    · exact h.waits k paths n hk path hpath
    · exact (hemits.first _ (hnew path hpath).2).2
  · rw [hemits.outbox] at ht
    rcases List.mem_append.mp ht with ht | ht
    · exact h.posts t ht
    · exact (hemits.first t ht).2

theorem Stretches.transmit (h : s.Stretches) {p : Packet} {q : SendQueue} (hq : s.Dequeues e p q) :
    (s.transmit e p q).Stretches ∧
      s.dataQueue.generated <+: (s.transmit e p q).dataQueue.generated := by
  obtain ⟨b, hwf⟩ := h.queues.reliable
  obtain ⟨-, hfits, -, m, fs, hcarries, hwf', hgenerated, -⟩ := hwf.of_dequeue hq
  have hgrows : s.dataQueue.generated <+: q.generated := ⟨fs, hgenerated.symm⟩
  have hqueue : Stretches { s with dataQueue := q } :=
    h.of_sub ⟨⟨_, hwf'⟩, h.queues.unreliable⟩ hgrows (fun _ _ _ hk => hk) fun _ ht => .inl ht
  have hpacket : Packet.Carries
      { p with header := { p.header with type := TypeID.dataReliable } } q.generated m :=
    ⟨hcarries.le_length, hcarries.data⟩
  refine ⟨hqueue.sendReliablyMultipath e (MultiPacketPath.forall_front fun _ => ⟨hfits, ?_⟩) false,
    hgrows⟩
  rwa [hpacket.length_frames hwf'.numbered]

/-- The unreliable traffic posts only unreliable packets. -/
theorem type_processUnreliableDataQueue (s : Sender) :
    ∀ t ∈ (s.processUnreliableDataQueue e).outbox,
      t ∈ s.outbox ∨ t.packet.header.type ≠ TypeID.dataReliable := by
  obtain ⟨ts, houtbox, htype, -⟩ := processUnreliableDataQueue_outbox (e := e) s
  intro t ht
  rw [houtbox] at ht
  refine (List.mem_append.mp ht).imp_right fun ht => ?_
  rw [htype t ht]
  decide

/-- The queues stay well formed whatever is processed. -/
theorem queues_processUnreliableDataQueue (h : s.Queues) :
    (s.processUnreliableDataQueue e).Queues := by
  have hpostable : Postable e fun _ => True := ⟨fun _ _ _ => trivial, fun _ _ _ _ => trivial⟩
  exact (emission_processUnreliableDataQueue hpostable s h).1

theorem Stretches.push (h : s.Stretches) {type : FrameTypeID} {data : Bytes}
    {mode : CoalesceMode} (reliability : Reliability) (hadm : SendQueue.Admissible data mode) :
    (s.push type data mode reliability).Stretches ∧
      s.dataQueue.generated <+: (s.push type data mode reliability).dataQueue.generated := by
  cases reliability with
  | unreliable =>
      refine ⟨h.of_sub ⟨h.queues.reliable, SendQueue.wf_enqueue h.queues.unreliable hadm⟩
        (List.prefix_refl _) (fun _ _ _ hk => hk) fun _ ht => .inl ht, List.prefix_refl _⟩
  | reliable =>
      have hgrows : s.dataQueue.generated <+:
          (s.dataQueue.enqueue type data mode).generated := by
        cases hstatus : s.dataQueue.status with
        | closed => rw [SendQueue.enqueue_of_closed hstatus]
        | «open» =>
            obtain ⟨b, hwf⟩ := h.queues.reliable
            obtain ⟨_, fs, henqueues⟩ : _ ∧ ∃ fs, SendQueue.Enqueues _ type data mode fs :=
              hwf.enqueue hstatus hadm
            exact ⟨fs, henqueues.generated.symm⟩
      exact ⟨h.of_sub ⟨SendQueue.wf_enqueue h.queues.reliable hadm, h.queues.unreliable⟩ hgrows
        (fun _ _ _ hk => hk) fun _ ht => .inl ht, hgrows⟩

/-- At most what waits has become less. -/
theorem Stretches.idle (h : s.Stretches) (hqueue : s'.dataQueue = s.dataQueue)
    (hunreliable : s'.unreliableDataQueue = s.unreliableDataQueue) (houtbox : s'.outbox = s.outbox)
    (hwaits : ∀ k paths n, s'.retrier.outstanding k = some (paths, n) →
      s.retrier.outstanding k = some (paths, n)) :
    s'.Stretches ∧ s.dataQueue.generated <+: s'.dataQueue.generated := by
  have hsame : s.dataQueue.generated <+: s'.dataQueue.generated := by rw [hqueue]
  refine ⟨h.of_sub ⟨?_, ?_⟩ hsame hwaits fun t ht => .inl (houtbox ▸ ht), hsame⟩
  · rw [hqueue]
    exact h.queues.reliable
  · rw [hunreliable]
    exact h.queues.unreliable

/-- **A change keeps the stretches**, and only generates more frames. -/
theorem Change.stretches (hok : ∀ p, ok p → p.header.type ≠ TypeID.dataReliable)
    (h : Change e ok s s') (hs : s.Stretches) :
    s'.Stretches ∧ s.dataQueue.generated <+: s'.dataQueue.generated := by
  cases h with
  | quiet h =>
      cases h with
      | setSchedule schedule reliability =>
          cases reliability <;> exact hs.idle rfl rfl rfl fun _ _ _ hk => hk
      | transmit hq => exact hs.transmit hq
      | processUnreliableDataQueue =>
          obtain ⟨hretrier, _, hqueue, _⟩ := processUnreliableDataQueue_frame (e := e) s
          have hsame : s.dataQueue.generated <+:
              (s.processUnreliableDataQueue e).dataQueue.generated := by
            rw [hqueue]
          exact ⟨hs.of_sub (queues_processUnreliableDataQueue hs.queues) hsame
            (fun k paths n hk => by rwa [hretrier] at hk) (type_processUnreliableDataQueue s),
            hsame⟩
      | push reliability _ hadm => exact hs.push reliability hadm
      | sendReliably priority hpaths =>
          exact ⟨hs.sendReliablyMultipath e
            (fun path hpath => .of_type (hok _ (hpaths path hpath))) priority, List.prefix_refl _⟩
      | @resend id retry hid =>
          refine ⟨⟨⟨hs.queues.1, hs.queues.2⟩, fun k paths n hk => ?_, fun t ht => ?_⟩,
            List.prefix_refl _⟩
          · rw [outstanding_resend hid] at hk
            exact hs.waits k paths n hk
          · rcases List.mem_append.mp ht with ht | ht
            · exact hs.posts t ht
            · obtain ⟨path, hpath, rfl⟩ := List.mem_map.mp ht
              exact hs.waits id retry.paths retry.serial
                ((Retrier.outstanding_eq_some _).mpr ⟨retry, hid, rfl, rfl⟩) path hpath
      | recalculate =>
          refine hs.idle rfl rfl rfl fun k paths n hk => ?_
          rwa [Retrier.outstanding_recalculateRetryTimeout] at hk
      | «open» | delayAck => exact hs.idle rfl rfl rfl fun _ _ _ hk => hk
  | acknowledge ack =>
      obtain ⟨hqueue, houtbox, _⟩ := acknowledge_frame (s := s) e.now ack
      exact hs.idle hqueue (acknowledge_unreliable e.now ack).1 houtbox
        fun _ _ _ => outstanding_of_acknowledge
  | close => exact hs.idle rfl rfl rfl fun _ _ _ hk => hk
  | fail =>
      have hemission : Emission (fun _ => True) s s.fail := emission_fail s
      have hsame : s.dataQueue.generated <+: s.fail.dataQueue.generated := by
        change _ <+: s.dataQueue.close.generated
        rw [SendQueue.close]
        split <;> exact List.prefix_refl _
      exact ⟨hs.of_sub (hemission hs.queues).1 hsame
        (fun _ _ _ => Retrier.outstanding_of_close _) fun _ ht => .inl ht, hsame⟩

end Sender

/-! ## The connection -/

namespace Connection

theorem type_of_isReliable {p : Packet} (h : IsReliable p) :
    p.header.type ≠ TypeID.dataReliable := by
  rcases h with (h | h) | (⟨h | h, _⟩ | h) <;> rw [h] <;> decide

theorem base_wire (c : Connection) (p : Packet) (address : Option Address) :
    (c.wire p address).packet.base = p.base := by
  rw [wire]
  dsimp only
  split
  · rw [pushValue, pushData]
    split <;> rfl
  · rfl

theorem base_getLookUp (p : Packet) : (getLookUp p).2.base = p.base := by
  rw [getLookUp]
  split
  · split
    · rfl
    next h =>
      rw [popData] at h
      split at h
      · cases h
      · cases h
        rfl
  · rfl

variable {c : Connection}

/-- A packet that carries a stretch arrives with it. -/
theorem stretch_of_arrives {g : List Frame} (hnum : Numbered g) {p packet : Packet}
    (hp : p.Stretch g) {address : Option Address} (h : Arrives (c.wire p address) packet) :
    packet.Stretch g := by
  obtain ⟨hheader, hdata⟩ := arrives_wire h
  obtain ⟨rest, rfl⟩ := h
  have htype := congrArg Header.type hheader
  refine hp.of_eq hnum htype ?_ fun htype' => hdata ?_
  · rw [base_getLookUp]
    exact base_wire c p address
  · have hsize := (hp (htype.symm.trans htype')).1
    simp only [maxPacketPostFrameSize, maxPacketPostCryptoSize, maxRouteSize, maxCryptoSize,
      maxPacketSize] at hsize ⊢
    omega

/-- All data packets of a connection carry stretches of its generated frames. -/
structure Stretches (c : Connection) : Prop where
  sender : c.sender.Stretches
  transmitted : ∀ o ∈ c.transmitted, ∀ packet, Arrives o packet →
    packet.Stretch c.sender.dataQueue.generated

theorem Stretches.of_eq {c' : Connection} (h : c.Stretches) (hsender : c'.sender = c.sender)
    (htransmitted : c'.transmitted = c.transmitted) : c'.Stretches where
  sender := hsender ▸ h.sender
  transmitted := by
    rw [htransmitted, hsender]
    exact h.transmitted

theorem Stretches.change {z : Zlib} {now : Timepoint} {ok : Packet → Prop}
    (hok : ∀ p, ok p → p.header.type ≠ TypeID.dataReliable) (h : c.Stretches) {s : Sender}
    (hchange : Sender.Change (c.env z now) ok c.sender s) : Stretches { c with sender := s } := by
  obtain ⟨hsender, hgrows⟩ := hchange.stretches hok h.sender
  exact ⟨hsender, fun o ho packet hp => (h.transmitted o ho packet hp).mono hgrows⟩

theorem Stretches.flush (h : c.Stretches) (now : Timepoint) : (c.flush now).Stretches := by
  obtain ⟨probe, hflush⟩ := flush_eq now c
  rw [hflush]
  refine ⟨⟨⟨h.sender.queues.1, h.sender.queues.2⟩, h.sender.waits, fun t ht => by cases ht⟩,
    fun o ho packet hp => ?_⟩
  rcases List.mem_append.mp ho with ho | ho
  · exact h.transmitted o ho packet hp
  · obtain ⟨t, ht, rfl⟩ := List.mem_map.mp ho
    have hpost := h.sender.posts t ht
    by_cases htype : t.packet.header.type = TypeID.dataReliable
    · have hsame : c.outgoing t = c.wire t.packet t.address := by
        rw [outgoing, onSend_of_ne_h3 _ (by rw [htype]; decide)]
        split <;> rfl
      rw [hsame] at hp
      exact stretch_of_arrives h.sender.numbered hpost hp
    · refine .of_type ?_
      obtain ⟨rest, rfl⟩ := hp
      rw [header_getLookUp]
      show (c.outgoing t).packet.header.type ≠ _
      rwa [type_outgoing]

/-- A call on the sender keeps the stretches. -/
theorem Stretches.call (h : c.Stretches) (z : Zlib) (now : Timepoint) {call : SenderCall}
    (hcall : call.Sends IsReliable) : (c.call z now call).Stretches := by
  refine Stretches.flush ?_ now
  exact sender_of_changes (P := Stretches)
    (fun _ _ hchange hc => hc.change (fun _ => type_of_isReliable) hchange)
    (Sender.call_changes hcall) h

theorem keepsFront_stretches (z : Zlib) : KeepsAll z Stretches := by
  have hkeeps : Keeps z True Stretches := by
    refine keeps_of_change ?_ fun _ _ hc => hc.of_eq rfl rfl
    intro c c' hchange hc
    cases hchange with
    | sender now hs => exact hc.change (fun _ hp => type_of_isReliable (.inl hp)) hs
    | flush now => exact hc.flush now
    | probe | receiver | user => exact hc.of_eq rfl rfl
  refine hkeeps.front (fun now _ hcall hc => hc.call z now hcall) ?_
    fun _ _ _ _ _ hc => hc.of_eq rfl rfl
  intro c now packet hpacket hc
  rw [send_eq]
  refine ⟨hc.sender, fun o ho p hp => ?_⟩
  rcases List.mem_append.mp ho with ho | ho
  · exact hc.transmitted o ho p hp
  · rw [List.mem_singleton.mp ho] at hp
    refine .of_type ?_
    rw [(arrives_wire hp).1]
    show (HandshakeOptions.onSend c.options packet).2.header.type ≠ _
    rw [header_onSend]
    rcases hpacket with ⟨h, _⟩ | ⟨h, _⟩ | h <;> rw [h] <;> decide

/-- A step only generates more frames. -/
theorem generated_step {z : Zlib} (hc : c.Stretches) (input : Timepoint × Input) :
    c.sender.dataQueue.generated <+: (c.step z input).sender.dataQueue.generated := by
  have hkeeps : KeepsAll z fun c' : Connection => c'.sender.Stretches ∧
      c.sender.dataQueue.generated <+: c'.sender.dataQueue.generated := by
    refine keepsFront_of_sender (Q := fun s => s.Stretches ∧
      c.sender.dataQueue.generated <+: s.dataQueue.generated) ?_ ?_
    · intro e s s' hchange hs
      obtain ⟨hstretches, hgrows⟩ := hchange.stretches (fun _ => type_of_isReliable) hs.1
      exact ⟨hstretches, hs.2.trans hgrows⟩
    · intro s hs
      exact ⟨⟨⟨hs.1.queues.1, hs.1.queues.2⟩, hs.1.waits, fun t ht => by cases ht⟩, hs.2⟩
  exact (hkeeps.step (Input.within_true _) (Input.hears_true _)
    ⟨hc.sender, List.prefix_refl _⟩).2

end Connection
end MrUDP
