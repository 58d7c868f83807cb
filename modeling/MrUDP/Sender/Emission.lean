import MrUDP.Sender.Unreliable

/-!
# What a call posts

A call on the sender posts packets in the outbox.  A packet that is posted for the first time is
sent past the queues, or was taken out of one of them, which happens only if the connection can
send; if it is sent reliably, it waits in the window as it was posted.  A packet that is posted
again has waited in the window before the call.

## Main definitions

* `Sender.Postable`: what may be posted for the first time.
* `Sender.Emits`: packets are posted for the first time.
* `Sender.emission_call`, `Sender.resends_retryTimeout`: the calls.
-/

namespace MrUDP

namespace SendQueue

/-- The packet that a well-formed queue gives out is not too long. -/
theorem fits_dequeue {q q' : SendQueue} {z : Zlib} {level : ℤ} {p : Packet}
    (hwf : ∃ b, q.WF b) (h : q.dequeue z level = (some p, q')) :
    p.data.length ≤ maxPacketPostFrameSize ∧ ∃ b, q'.WF b := by
  obtain ⟨b, hwf⟩ := hwf
  obtain ⟨-, hfits, -, n, _, -, hrest, -⟩ := hwf.of_dequeue h
  exact ⟨hfits, b + n, hrest⟩

end SendQueue

namespace Sender

/-- Both queues are well formed. -/
structure Queues (s : Sender) : Prop where
  reliable : ∃ b, s.dataQueue.WF b
  unreliable : ∃ b, s.unreliableDataQueue.WF b

theorem Queues.init : Queues {} := ⟨⟨0, .init⟩, ⟨0, .init⟩⟩

/-- A property of packets that does not look at the identifier, and that the data of the queues
has, if the connection can send. -/
structure Postable (e : Env) (new : Packet → Prop) : Prop where
  id : ∀ (p : Packet) id, new p → new { p with header := { p.header with id := id } }
  data : e.canSend = true → ∀ p : Packet,
    p.header.type = TypeID.dataReliable ∨ p.header.type = TypeID.dataUnreliable →
    p.data.length ≤ maxPacketPostFrameSize → new p

/-- The packets are posted for the first time.  What waits afterwards has waited before, or was
posted as it waits. -/
structure Emits (new : Packet → Prop) (s s' : Sender) (posts : List Transmission) : Prop where
  outbox : s'.outbox = s.outbox ++ posts
  first : ∀ t ∈ posts, t.again = false ∧ new t.packet
  issued : s.packetIDGenerator.issued ≤ s'.packetIDGenerator.issued
  outstanding : ∀ k paths n, s'.retrier.outstanding k = some (paths, n) →
    s.retrier.outstanding k = some (paths, n) ∨
      s.packetIDGenerator.issued ≤ n ∧ ∀ p ∈ paths.toList,
        p.packet.header.id = k ∧ ⟨p.packet, p.address, false⟩ ∈ posts

/-- The queues stay well formed, and packets are posted. -/
def Emission (new : Packet → Prop) (s s' : Sender) : Prop :=
  s.Queues → s'.Queues ∧ ∃ posts, Emits new s s' posts

variable {e : Env} {new : Packet → Prop} {s : Sender}

theorem Emits.trans {s₁ s₂ s₃ : Sender} {posts posts' : List Transmission}
    (h : Emits new s₁ s₂ posts) (h' : Emits new s₂ s₃ posts') :
    Emits new s₁ s₃ (posts ++ posts') where
  outbox := by rw [h'.outbox, h.outbox, List.append_assoc]
  first t ht := by
    rcases List.mem_append.mp ht with ht | ht
    · exact h.first t ht
    · exact h'.first t ht
  issued := h.issued.trans h'.issued
  outstanding k paths n hk := by
    rcases h'.outstanding k paths n hk with hk | ⟨hle, hpaths⟩
    · rcases h.outstanding k paths n hk with hk | ⟨hle, hpaths⟩
      · exact .inl hk
      · refine .inr ⟨hle, fun p hp => ?_⟩
        obtain ⟨hid, hpost⟩ := hpaths p hp
        exact ⟨hid, List.mem_append_left _ hpost⟩
    · refine .inr ⟨h.issued.trans hle, fun p hp => ?_⟩
      obtain ⟨hid, hpost⟩ := hpaths p hp
      exact ⟨hid, List.mem_append_right _ hpost⟩

/-- Nothing is posted. -/
theorem Emission.of_silent {s s' : Sender} (hqueues : s.Queues → s'.Queues)
    (houtbox : s'.outbox = s.outbox) (hissued : s'.packetIDGenerator = s.packetIDGenerator)
    (houtstanding : ∀ k paths n, s'.retrier.outstanding k = some (paths, n) →
      s.retrier.outstanding k = some (paths, n)) : Emission new s s' := fun h =>
  ⟨hqueues h, [], by rw [houtbox, List.append_nil], by simp, by rw [hissued],
    fun k paths n hk => .inl (houtstanding k paths n hk)⟩

theorem Emission.refl (s : Sender) : Emission new s s :=
  .of_silent (fun h => h) rfl rfl fun _ _ _ h => h

theorem Emission.trans {s₁ s₂ s₃ : Sender} (h : Emission new s₁ s₂) (h' : Emission new s₂ s₃) :
    Emission new s₁ s₃ := by
  intro hqueues
  obtain ⟨hqueues₂, posts, hemits⟩ := h hqueues
  obtain ⟨hqueues₃, posts', hemits'⟩ := h' hqueues₂
  exact ⟨hqueues₃, posts ++ posts', hemits.trans hemits'⟩

theorem emission_sendReliablyMultipath (h : Postable e new) (s : Sender) (now : Timepoint)
    {paths : MultiPacketPath} (hpaths : ∀ path ∈ paths.toList, new path.packet)
    (priority : Bool) : Emission new s (s.sendReliablyMultipath now paths priority) := by
  refine fun hqueues => ⟨⟨hqueues.reliable, hqueues.unreliable⟩,
    (paths.setID s.packetIDGenerator.id).toList.map fun p => ⟨p.packet, p.address, false⟩,
    rfl, fun t ht => ?_, Nat.le_succ _, fun k m n hk => ?_⟩
  · obtain ⟨p, hp, rfl⟩ := List.mem_map.mp ht
    rw [MultiPacketPath.toList_setID] at hp
    obtain ⟨q, hq, rfl⟩ := List.mem_map.mp hp
    exact ⟨rfl, h.id _ _ (hpaths q hq)⟩
  · rcases Retrier.outstanding_of_insert _ _ _ hk with hk | ⟨hid, hk⟩
    · exact .inl hk
    · cases hk
      refine .inr ⟨le_rfl, fun p hp => ⟨?_, List.mem_map.mpr ⟨p, hp, rfl⟩⟩⟩
      rw [MultiPacketPath.toList_setID] at hp
      obtain ⟨q, _, rfl⟩ := List.mem_map.mp hp
      exact hid.symm

theorem canSend_of_ready (h : s.isReadyToSend e = true) : e.canSend = true := by
  rw [isReadyToSend, decide_eq_true_eq] at h
  exact h.2

theorem emission_transmit (h : Postable e new) (s : Sender) {p : Packet} {q : SendQueue}
    (hready : s.isReadyToSend e = true) (hq : s.Dequeues e p q) :
    Emission new s (s.transmit e p q) := by
  intro hqueues
  obtain ⟨hfits, hwf⟩ := SendQueue.fits_dequeue hqueues.reliable hq
  have hdata := h.data (canSend_of_ready hready)
    { p with header := { p.header with type := TypeID.dataReliable } } (.inl rfl) hfits
  have hqueue : Emission new s { s with dataQueue := q } :=
    .of_silent (fun _ => ⟨hwf, hqueues.unreliable⟩) rfl rfl fun _ _ _ hk => hk
  exact hqueue.trans
    (emission_sendReliablyMultipath h _ e.now (MultiPacketPath.forall_front hdata) false) hqueues

theorem emission_processUnreliableLoop (h : Postable e new) (hcan : e.canSend = true) (fuel : ℕ)
    (s : Sender) : Emission new s (processUnreliableLoop e fuel s) := by
  induction fuel generalizing s with
  | zero => exact .refl s
  | succ fuel ih =>
      intro hqueues
      rw [processUnreliableLoop]
      split
      next q hq =>
        rw [(SendQueue.dequeue_eq_none hq).1]
        exact Emission.refl s hqueues
      next p q hq =>
        obtain ⟨hfits, hwf⟩ := SendQueue.fits_dequeue hqueues.unreliable hq
        have hdata := h.data hcan
          { p with header := { p.header with type := TypeID.dataUnreliable } } (.inr rfl) hfits
        refine Emission.trans ?_ (ih _) hqueues
        refine fun _ => ⟨⟨hqueues.reliable, hwf⟩, _, rfl, fun t ht => ?_, le_rfl,
          fun k paths n hk => .inl hk⟩
        rw [List.mem_singleton.mp ht]
        exact ⟨rfl, hdata⟩

theorem emission_processUnreliableDataQueue (h : Postable e new) (s : Sender) :
    Emission new s (s.processUnreliableDataQueue e) := by
  rw [processUnreliableDataQueue]
  split
  next hready =>
    have hqueue : Emission new s (s.queueDelayedAcks e) :=
      .of_silent (fun hqueues => ⟨hqueues.reliable, wf_queueDelayedAcks hqueues.unreliable⟩) rfl rfl
        fun _ _ _ hk => hk
    exact hqueue.trans (emission_processUnreliableLoop h (canSend_of_ready hready) _ _)
  · refine .of_silent (fun hqueues => ⟨hqueues.reliable, ?_⟩) rfl rfl fun _ _ _ hk => hk
    obtain ⟨b, hwf⟩ := hqueues.unreliable
    exact ⟨_, hwf.emptied s.unreliableDataQueue.status []⟩

theorem walk_emission (h : Postable e new) : Walk e (Emission new) where
  refl := .refl
  trans := .trans
  setSchedule s schedule reliability := by
    cases reliability <;> exact .of_silent (fun h => ⟨h.1, h.2⟩) rfl rfl fun _ _ _ hk => hk
  transmit := emission_transmit h
  processUnreliableDataQueue := emission_processUnreliableDataQueue h
  push s _ _ _ reliability _ hadm := by
    cases reliability with
    | reliable =>
        exact .of_silent (fun h => ⟨SendQueue.wf_enqueue h.reliable hadm, h.unreliable⟩) rfl rfl
          fun _ _ _ hk => hk
    | unreliable =>
        exact .of_silent (fun h => ⟨h.reliable, SendQueue.wf_enqueue h.unreliable hadm⟩) rfl rfl
          fun _ _ _ hk => hk

theorem emission_acknowledge (s : Sender) (now : Timepoint) (ack : Ack) :
    Emission new s (s.acknowledge now ack) := by
  obtain ⟨hqueue, houtbox, hissued, _⟩ := acknowledge_frame (s := s) now ack
  refine .of_silent (fun h => ⟨?_, ?_⟩) houtbox hissued
    fun k paths n hk => outstanding_of_acknowledge hk
  · rw [hqueue]
    exact h.reliable
  · rw [(acknowledge_unreliable now ack).1]
    exact h.unreliable

theorem emission_fail (s : Sender) : Emission new s s.fail := by
  refine .of_silent (fun h => ⟨?_, ?_⟩) rfl rfl
    fun k paths n hk => Retrier.outstanding_of_close _ hk
  · obtain ⟨b, hwf⟩ := h.reliable
    exact hwf.close
  · obtain ⟨b, hwf⟩ := h.unreliable
    exact hwf.close

/-- **A call posts packets for the first time**, unless it is the retry timeout. -/
theorem emission_call (h : Postable e new) {call : SenderCall} (hsends : call.Sends new)
    (hretry : call ≠ .retryTimeout) (s : Sender) : Emission new s (s.call e call) := by
  have hwalk := walk_emission h
  cases call with
  | «open» =>
      rw [Sender.call, Sender.open]
      refine Emission.trans ?_ (hwalk.scheduleDataQueueProcessing _ .unreliable false)
      refine Emission.trans ?_ (hwalk.scheduleDataQueueProcessing _ .reliable false)
      split
      · exact .of_silent (fun h => ⟨h.1, h.2⟩) rfl rfl fun _ _ _ hk => hk
      · exact .refl s
  | send data reliability => exact hwalk.send data reliability
  | close =>
      rw [Sender.call, Sender.close]
      split
      · have hadm : SendQueue.Admissible [] .packet := .inl (by simp)
        refine Emission.trans (hwalk.enqueue .reliable (.inr rfl) hadm) ?_
        exact .of_silent (fun h => ⟨h.1, h.2⟩) rfl rfl fun _ _ _ hk => hk
      · exact .refl s
  | fail => exact emission_fail s
  | sendReliably paths priority => exact emission_sendReliablyMultipath h s e.now hsends priority
  | ack packetID =>
      rw [Sender.call, Sender.ack]
      refine Emission.trans ?_ (hwalk.scheduleDataQueueProcessing _ .unreliable false)
      exact .of_silent (fun h => ⟨h.1, h.2⟩) rfl rfl fun _ _ _ hk => hk
  | onAck ack =>
      exact (emission_acknowledge s e.now ack).trans
        (hwalk.scheduleDataQueueProcessing _ .reliable true)
  | processSchedule reliability => exact hwalk.processSchedule s reliability
  | retryTimeout => exact absurd rfl hretry

/-- **The retry timeout posts packets that have waited.** -/
theorem resends_retryTimeout (s : Sender) :
    (s.Queues → (s.call e .retryTimeout).Queues) ∧
      (∀ k, (s.call e .retryTimeout).retrier.outstanding k = s.retrier.outstanding k) ∧
      ∃ posts, (s.call e .retryTimeout).outbox = s.outbox ++ posts ∧
        ∀ t ∈ posts, t.again = true ∧ ∃ k paths n,
          s.retrier.outstanding k = some (paths, n) ∧ ∃ p ∈ paths.toList, t.packet = p.packet := by
  rw [Sender.call, onRetryTimeout]
  split
  · exact ⟨fun h => h, fun _ => rfl, [], by simp, by simp⟩
  next id retry hresend =>
    have hwindow := s.retrier.window_of_onRetryTimeout _ hresend
    refine ⟨fun h => ⟨h.1, h.2⟩, fun k => outstanding_resend hwindow e.now k, _, rfl,
      fun t ht => ?_⟩
    obtain ⟨p, hp, rfl⟩ := List.mem_map.mp ht
    refine ⟨rfl, id, retry.paths, retry.serial, ?_, p, hp, rfl⟩
    rw [Retrier.outstanding, hwindow]
    rfl
  · exact ⟨fun h => ⟨h.1, h.2⟩, fun k => by simp, [], by simp, by simp⟩

end Sender
end MrUDP
