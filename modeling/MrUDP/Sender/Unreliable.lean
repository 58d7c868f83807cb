import MrUDP.Sender.Calls

/-!
# The unreliable queue

Acknowledgements leave through the unreliable queue: `Sender::ack` remembers them,
`Sender::queueDelayedAcks` turns them into frames, and
`Sender::processUnreliableDataQueue` drains the queue.  As long as the queue is open and
the sender is ready, none is lost on the way.

## Main definitions

* `Packet.Acks`: an unreliable packet with a given acknowledgement in it.
* `Sender.acks_processUnreliableDataQueue`: processing sends all delayed acknowledgements.
* `Sender.Owing`: an acknowledgement is delayed, or sent, as long as the queue is open.
-/

namespace MrUDP

/-- The packet is unreliable data with an acknowledgement of `k` in it. -/
def Packet.Acks (p : Packet) (k : PacketID) : Prop :=
  p.header.type = TypeID.dataUnreliable ∧ p.HasAck k

namespace SendQueue

variable {q : SendQueue} {b : ℕ}

/-- An emptied queue goes on behind everything generated. -/
theorem WF.emptied (h : q.WF b) (status : OpenStatus) (buffer : Bytes) :
    WF { q with status := status, queue := [], compressionBuffer := buffer }
      q.generated.length where
  __ := h
  chain := rfl
  fits := by simp

theorem WF.close (h : q.WF b) : ∃ b', q.close.WF b' := by
  rw [SendQueue.close]
  split
  · exact ⟨_, h.emptied .closed q.compressionBuffer⟩
  · exact ⟨b, h⟩

/-- A closed queue takes no message. -/
theorem enqueue_of_closed (hclosed : q.status = .closed) (type : FrameTypeID) (data : Bytes)
    (mode : CoalesceMode) : q.enqueue type data mode = q := by
  rw [SendQueue.enqueue, if_pos hclosed]

/-- A message keeps a queue well formed. -/
theorem wf_enqueue (hwf : ∃ b, q.WF b) {type : FrameTypeID} {data : Bytes} {mode : CoalesceMode}
    (hadm : Admissible data mode) : ∃ b, (q.enqueue type data mode).WF b := by
  obtain ⟨b, hwf⟩ := hwf
  refine ⟨b, ?_⟩
  cases hstatus : q.status with
  | «open» => exact (hwf.enqueue hstatus hadm).1
  | closed => rwa [enqueue_of_closed hstatus]

end SendQueue

namespace Sender

variable {e : Env} {ok : Packet → Prop} {s : Sender} {b : ℕ} {k : PacketID}

/-! ## Draining the queue -/

/-- **The loop drains the queue**: every frame waiting is sent. -/
theorem hasFrame_processUnreliableLoop (fuel : ℕ) (s : Sender) (b : ℕ)
    (hwf : s.unreliableDataQueue.WF b) (hopen : s.unreliableDataQueue.status = .open)
    (hfuel : s.unreliableDataQueue.depth e.zlib e.options.coalesceUnreliable.compressionLevel <
      fuel) {i : ℕ} {f : Frame} (hf : s.unreliableDataQueue.generated[i]? = some f)
    (hle : b ≤ i) :
    ∃ t ∈ (processUnreliableLoop e fuel s).outbox,
      t.packet.header.type = TypeID.dataUnreliable ∧ t.packet.HasFrame f := by
  induction fuel generalizing s b with
  | zero => omega
  | succ fuel ih =>
      rw [processUnreliableLoop]
      split
      next q h =>
        -- Nothing waits, so there is no such frame.
        have hnil := (SendQueue.dequeue_eq_none h).2.resolve_left (by simp [hopen])
        have hchain := hwf.chain
        rw [hnil.1] at hchain
        have hlength : b = s.unreliableDataQueue.generated.length := hchain
        have hlt := (List.getElem?_eq_some_iff.mp hf).1
        omega
      next p q h =>
        have hdepth := SendQueue.depth_dequeue h
        obtain ⟨hbase, -, hopen', n, fs, hcarries, hrest, hgenerated, -⟩ := hwf.of_dequeue h
        have hf' : q.generated[i]? = some f := by
          rw [hgenerated, List.getElem?_append_left (List.getElem?_eq_some_iff.mp hf).1]
          exact hf
        by_cases hlt : i < b + n
        · -- The frame is in the packet just taken.
          obtain ⟨ts, houtbox, _⟩ := processUnreliableLoop_outbox (e := e) fuel
            { s with
              unreliableDataQueue := q
              outbox := s.outbox ++
                [⟨{ p with header := { p.header with type := TypeID.dataUnreliable } },
                  none, false⟩] }
          refine ⟨⟨{ p with header := { p.header with type := TypeID.dataUnreliable } },
            none, false⟩, ?_, rfl, ?_⟩
          · rw [houtbox]
            simp
          · exact hcarries.hasFrame hrest.numbered hf' (by omega) (by omega)
        · exact ih _ (b + n) hrest hopen' (by dsimp only; omega) hf' (by omega)

/-- The loop leaves the queue well formed. -/
theorem wf_processUnreliableLoop (fuel : ℕ) (s : Sender)
    (h : ∃ b, s.unreliableDataQueue.WF b) :
    ∃ b, (processUnreliableLoop e fuel s).unreliableDataQueue.WF b := by
  induction fuel generalizing s with
  | zero => exact h
  | succ fuel ih =>
      obtain ⟨b, hwf⟩ := h
      rw [processUnreliableLoop]
      split
      next q hq =>
        rw [(SendQueue.dequeue_eq_none hq).1]
        exact ⟨b, hwf⟩
      next p q hq =>
        obtain ⟨-, -, -, n, _, -, hrest, -⟩ := hwf.of_dequeue hq
        exact ih _ ⟨b + n, hrest⟩

/-! ## The delayed acknowledgements -/

/-- The frame that acknowledges `k`, whatever its delay. -/
def IsAck (f : Frame) (k : PacketID) : Prop :=
  f.type = FrameTypeID.ackFrame ∧ ∃ ms, f.data = Ack.bytes ⟨k, ms⟩

/-- A delayed acknowledgement enters the queue. -/
def enqueueAck (e : Env) (q : SendQueue) (a : DelayedAck) : SendQueue :=
  q.enqueue FrameTypeID.ackFrame
    (Ack.bytes ⟨a.packetID, BitVec.ofInt 16 ((e.now - a.when).tdiv 1000000)⟩) .packet

theorem queueDelayedAcks_eq (s : Sender) :
    s.queueDelayedAcks e =
      { s with
        unreliableDataQueue := s.delayedAcks.foldl (enqueueAck e) s.unreliableDataQueue
        delayedAcks := [] } := rfl

/-- An acknowledgement that enters the queue is generated as one frame. -/
theorem enqueueAck_spec {q : SendQueue} (hwf : q.WF b) (hopen : q.status = .open)
    (a : DelayedAck) :
    (enqueueAck e q a).WF b ∧ (enqueueAck e q a).status = .open ∧
      ∃ f, (enqueueAck e q a).generated = q.generated ++ [f] ∧ IsAck f a.packetID := by
  have hsmall : SendQueue.Admissible
      (Ack.bytes ⟨a.packetID, BitVec.ofInt 16 ((e.now - a.when).tdiv 1000000)⟩) .packet := by
    left
    rw [Ack.length_bytes]
    decide
  obtain ⟨hwf', fs, hfs⟩ : (enqueueAck e q a).WF b ∧ ∃ fs, SendQueue.Enqueues q
      FrameTypeID.ackFrame _ .packet fs := hwf.enqueue hopen hsmall
  obtain ⟨id, rfl⟩ := hfs.single (.inr rfl)
  exact ⟨hwf', hfs.status.trans hopen, _, hfs.generated, rfl, _, rfl⟩

/-- What has been generated stays, and every acknowledgement adds its frame. -/
theorem foldl_enqueueAck_spec (acks : List DelayedAck) {q : SendQueue} (hwf : q.WF b)
    (hopen : q.status = .open) :
    (acks.foldl (enqueueAck e) q).WF b ∧ (acks.foldl (enqueueAck e) q).status = .open ∧
      ∃ fs, (acks.foldl (enqueueAck e) q).generated = q.generated ++ fs ∧
        ∀ a ∈ acks, ∃ f ∈ fs, IsAck f a.packetID := by
  induction acks generalizing q with
  | nil => exact ⟨hwf, hopen, [], by simp, by simp⟩
  | cons a acks ih =>
      obtain ⟨hwf', hopen', f, hgenerated, hf⟩ := enqueueAck_spec (e := e) hwf hopen a
      obtain ⟨hend, hstatus, fs, hfs, hacks⟩ := ih hwf' hopen'
      refine ⟨hend, hstatus, f :: fs, ?_, ?_⟩
      · rw [List.foldl_cons, hfs, hgenerated, List.append_assoc]
        rfl
      · rw [List.forall_mem_cons]
        refine ⟨⟨f, List.mem_cons_self, hf⟩, fun a' ha' => ?_⟩
        obtain ⟨f', hmem, hf'⟩ := hacks a' ha'
        exact ⟨f', List.mem_cons_of_mem _ hmem, hf'⟩

theorem wf_queueDelayedAcks (h : ∃ b, s.unreliableDataQueue.WF b) :
    ∃ b, (s.queueDelayedAcks e).unreliableDataQueue.WF b := by
  obtain ⟨b, hwf⟩ := h
  refine ⟨b, ?_⟩
  rw [queueDelayedAcks_eq]
  cases hstatus : s.unreliableDataQueue.status with
  | «open» => exact (foldl_enqueueAck_spec s.delayedAcks hwf hstatus).1
  | closed =>
      have hfold : ∀ acks : List DelayedAck,
          acks.foldl (enqueueAck e) s.unreliableDataQueue = s.unreliableDataQueue := by
        intro acks
        induction acks with
        | nil => rfl
        | cons a acks ih =>
            rw [List.foldl_cons, enqueueAck, SendQueue.enqueue_of_closed hstatus, ih]
      dsimp only
      rwa [hfold]

theorem wf_processUnreliableDataQueue (h : ∃ b, s.unreliableDataQueue.WF b) :
    ∃ b, (s.processUnreliableDataQueue e).unreliableDataQueue.WF b := by
  rw [processUnreliableDataQueue]
  split
  · exact wf_processUnreliableLoop _ _ (wf_queueDelayedAcks h)
  · obtain ⟨b, hwf⟩ := h
    exact ⟨_, hwf.emptied s.unreliableDataQueue.status []⟩

/-- **Processing the open queue sends every delayed acknowledgement.** -/
theorem acks_processUnreliableDataQueue (hready : s.isReadyToSend e = true)
    (hwf : ∃ b, s.unreliableDataQueue.WF b) (hopen : s.unreliableDataQueue.status = .open)
    {a : DelayedAck} (ha : a ∈ s.delayedAcks) :
    ∃ t ∈ (s.processUnreliableDataQueue e).outbox, t.packet.Acks a.packetID := by
  obtain ⟨b, hwf⟩ := hwf
  obtain ⟨hwf', hopen', fs, hgenerated, hacks⟩ :=
    foldl_enqueueAck_spec (e := e) s.delayedAcks hwf hopen
  obtain ⟨f, hf, htype, ms, hdata⟩ := hacks a ha
  obtain ⟨i, hi⟩ := List.mem_iff_getElem?.mp hf
  have hget : (s.queueDelayedAcks e).unreliableDataQueue.generated[
      s.unreliableDataQueue.generated.length + i]? = some f := by
    rw [queueDelayedAcks_eq, hgenerated, List.getElem?_append_right (by omega),
      Nat.add_sub_cancel_left, hi]
  have hle := hwf.chain.le_length
  rw [processUnreliableDataQueue, if_pos hready]
  obtain ⟨t, ht, hunreliable, hframe⟩ := hasFrame_processUnreliableLoop (e := e) _
    (s.queueDelayedAcks e) b hwf' hopen' (Nat.lt_succ_self _) hget (by omega)
  exact ⟨t, ht, hunreliable, f, ms, hframe, htype, hdata⟩

variable {s' : Sender}

/-- **The unreliable queue stays well formed.** -/
theorem Change.wf (h : Change e ok s s') (hs : ∃ b, s.unreliableDataQueue.WF b) :
    ∃ b, s'.unreliableDataQueue.WF b := by
  cases h with
  | quiet h =>
      cases h with
      | setSchedule schedule reliability => cases reliability <;> exact hs
      | processUnreliableDataQueue => exact wf_processUnreliableDataQueue hs
      | push reliability htype hadm =>
          cases reliability with
          | reliable => exact hs
          | unreliable => exact SendQueue.wf_enqueue hs hadm
      | transmit | «open» | sendReliably | delayAck | resend | recalculate => exact hs
  | acknowledge ack => rwa [(acknowledge_unreliable e.now ack).1]
  | close => exact hs
  | fail =>
      obtain ⟨b, hwf⟩ := hs
      exact hwf.close

theorem Quiet.status_unreliable (h : Quiet e ok s s') :
    s'.unreliableDataQueue.status = s.unreliableDataQueue.status := by
  cases h with
  | setSchedule schedule reliability => cases reliability <;> rfl
  | processUnreliableDataQueue =>
      obtain ⟨_, _, _, _, hstatus⟩ := processUnreliableDataQueue_outbox (e := e) s
      exact hstatus
  | push reliability =>
      cases reliability with
      | reliable => rfl
      | unreliable => apply SendQueue.status_enqueue
  | transmit | «open» | sendReliably | delayAck | resend | recalculate => rfl

/-- No change opens the unreliable queue. -/
theorem Change.status_unreliable (h : Change e ok s s') :
    s'.unreliableDataQueue.status = s.unreliableDataQueue.status ∨
      s'.unreliableDataQueue.status = .closed := by
  cases h with
  | quiet h => exact .inl h.status_unreliable
  | acknowledge ack => exact .inl (by rw [(acknowledge_unreliable e.now ack).1])
  | close => exact .inl rfl
  | fail => exact .inr (SendQueue.status_close _)

theorem status_unreliable_of_quiet (h : Relation.ReflTransGen (Quiet e ok) s s') :
    s'.unreliableDataQueue.status = s.unreliableDataQueue.status := by
  induction h with
  | refl => rfl
  | tail _ hstep ih => exact hstep.status_unreliable.trans ih

/-- **Only `fail` closes the unreliable queue.** -/
theorem status_unreliable_call (s : Sender) {call : SenderCall} (hcall : call ≠ .fail) :
    (s.call e call).unreliableDataQueue.status = s.unreliableDataQueue.status := by
  have hquiet : ∀ call : SenderCall, call.Quiet (fun _ => True) →
      (s.call e call).unreliableDataQueue.status = s.unreliableDataQueue.status :=
    fun call h => status_unreliable_of_quiet (call_quiet h)
  cases call with
  | fail => exact absurd rfl hcall
  | close =>
      rw [Sender.call, Sender.close]
      split
      · have hquiet : Relation.ReflTransGen (Quiet e fun _ => True) s
            (s.enqueue e FrameTypeID.closeWrite [] .reliable .packet) :=
          enqueue_quiet .reliable (.inr rfl) (.inl (by simp))
        have hstatus := status_unreliable_of_quiet hquiet
        exact hstatus
      · rfl
  | onAck ack =>
      have hquiet : Relation.ReflTransGen (Quiet e fun _ => True) (s.acknowledge e.now ack)
          (s.onAck e ack) := scheduleDataQueueProcessing_quiet _ .reliable true
      rw [Sender.call, status_unreliable_of_quiet hquiet, (acknowledge_unreliable e.now ack).1]
  | sendReliably paths priority => exact hquiet _ fun _ _ => trivial
  | «open» | send | ack | processSchedule | retryTimeout => exact hquiet _ trivial

/-! ## An acknowledgement that is owed -/

/-- A sender that is ready stays so. -/
theorem Change.initialized (h : Change e ok s s') (hs : s.status ≠ .uninitialized) :
    s'.status ≠ .uninitialized := by
  cases h with
  | quiet h =>
      cases h with
      | setSchedule schedule reliability => cases reliability <;> exact hs
      | processUnreliableDataQueue => rwa [(processUnreliableDataQueue_frame s).2.2.2]
      | push reliability => cases reliability <;> exact hs
      | «open» => simp
      | transmit | sendReliably | delayAck | resend | recalculate => exact hs
  | acknowledge ack => rwa [(acknowledge_unreliable e.now ack).2.1]
  | close => simp
  | fail => simp [Sender.fail]

/-- The peer is owed an acknowledgement of `k`: as long as the queue is open, it is
delayed, or about to be sent, or it has been. -/
def Owing (k : PacketID) (done : Prop) (s : Sender) : Prop :=
  s.unreliableDataQueue.status = .open →
    (∃ a ∈ s.delayedAcks, a.packetID = k) ∨ (∃ t ∈ s.outbox, t.packet.Acks k) ∨ done

variable {done : Prop}

/-- Nothing is lost by a change that keeps the delayed acknowledgements and the outbox. -/
theorem Owing.mono (h : Owing k done s)
    (hstatus : s'.unreliableDataQueue.status = s.unreliableDataQueue.status)
    (hdelayed : ∀ a ∈ s.delayedAcks, a ∈ s'.delayedAcks) (houtbox : ∀ t ∈ s.outbox, t ∈ s'.outbox) :
    Owing k done s' := by
  intro hopen
  rw [hstatus] at hopen
  rcases h hopen with ⟨a, ha, hk⟩ | ⟨t, ht, hacks⟩ | hdone
  · exact .inl ⟨a, hdelayed a ha, hk⟩
  · exact .inr (.inl ⟨t, houtbox t ht, hacks⟩)
  · exact .inr (.inr hdone)

/-- Processing the queue sends what is owed. -/
theorem acks_of_owing (hready : s.isReadyToSend e = true)
    (hwf : ∃ b, s.unreliableDataQueue.WF b) (h : Owing k done s)
    (hopen : s.unreliableDataQueue.status = .open) :
    (∃ t ∈ (s.processUnreliableDataQueue e).outbox, t.packet.Acks k) ∨ done := by
  rcases h hopen with ⟨a, ha, rfl⟩ | ⟨t, ht, hacks⟩ | hdone
  · exact .inl (acks_processUnreliableDataQueue hready hwf hopen ha)
  · obtain ⟨ts, houtbox, _⟩ := processUnreliableDataQueue_outbox (e := e) s
    refine .inl ⟨t, ?_, hacks⟩
    rw [houtbox]
    exact List.mem_append_left _ ht
  · exact .inr hdone

/-- **What is owed stays owed** until it is sent, or until the queue is closed. -/
theorem Change.owing (hcan : e.canSend = true) (h : Change e ok s s')
    (hready : s.status ≠ .uninitialized) (hwf : ∃ b, s.unreliableDataQueue.WF b)
    (hs : Owing k done s) : Owing k done s' := by
  cases h with
  | quiet h =>
      cases h with
      | setSchedule schedule reliability => cases reliability <;> exact hs
      | processUnreliableDataQueue =>
          intro hopen
          obtain ⟨_, _, _, _, hstatus⟩ := processUnreliableDataQueue_outbox (e := e) s
          right
          refine acks_of_owing ?_ hwf hs (hstatus.symm.trans hopen)
          simp [isReadyToSend, hcan, hready]
      | push reliability =>
          cases reliability with
          | reliable => exact hs
          | unreliable =>
              refine hs.mono ?_ (fun _ h => h) fun _ h => h
              apply SendQueue.status_enqueue
      | «open» => exact hs
      | delayAck => exact hs.mono rfl (fun a ha => List.mem_append_left _ ha) fun _ h => h
      | transmit | sendReliably | resend =>
          exact hs.mono rfl (fun _ h => h) fun t ht => List.mem_append_left _ ht
      | recalculate => exact hs
  | acknowledge ack =>
      obtain ⟨hqueue, _, hdelayed⟩ := acknowledge_unreliable (s := s) e.now ack
      refine hs.mono (by rw [hqueue]) ?_ ?_
      · intro a ha
        rwa [hdelayed]
      · intro t ht
        rwa [(acknowledge_frame e.now ack).2.1]
  | close => exact hs
  | fail =>
      intro hopen
      have hclosed := s.unreliableDataQueue.status_close
      rw [show s.unreliableDataQueue.close.status = .open from hopen] at hclosed
      cases hclosed

end Sender
end MrUDP
