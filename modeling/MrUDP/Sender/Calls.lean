import MrUDP.Sender.Sender

/-!
# The sender as a machine

A connection drives its sender by a handful of calls.  Each of them is a sequence of
elementary changes, and what the development needs to know about the sender is proved
for the elementary changes.

`Sender.Quiet` collects the changes that neither acknowledge a packet nor close
anything; `Sender.Change` adds those that do.  `ok` bounds the packets that are sent
reliably without going through a queue.

## Main definitions

* `SenderCall`, `Sender.call`: the calls of a connection.
* `Sender.Quiet`, `Sender.Change`: the elementary changes.
* `Sender.Pass`, `Sender.Walk`: what holds whenever the queues are processed.
* `Sender.call_changes`: a call is a sequence of elementary changes.
* `Sender.Extends`: no packet outstanding is replaced, and new ones are numbered on.
* `Sender.Static`: what holds of the window and the queues at any time.
-/

namespace MrUDP
open Relation (ReflTransGen)

/-- A call of the connection on its sender. -/
inductive SenderCall
  | open
  | send (data : Bytes) (reliability : Reliability)
  | close
  | fail
  | sendReliably (paths : MultiPacketPath) (priority : Bool)
  | ack (packetID : PacketID)
  | onAck (ack : Ack)
  | processSchedule (reliability : Reliability)
  | retryTimeout

namespace SenderCall

/-- A call that neither acknowledges nor closes, and sends only packets that are `ok`. -/
def Quiet (ok : Packet → Prop) : SenderCall → Prop
  | .close | .fail | .onAck _ => False
  | .sendReliably paths _ => ∀ path ∈ paths.toList, ok path.packet
  | _ => True

/-- A call that sends only packets that are `ok`. -/
def Sends (ok : Packet → Prop) : SenderCall → Prop
  | .sendReliably paths _ => ∀ path ∈ paths.toList, ok path.packet
  | _ => True

end SenderCall

namespace Sender

/-- `Retrier::onRetryTimeout`, and whether the connection is to fail. -/
def onRetryTimeout (e : Env) (s : Sender) : Bool × Sender :=
  match s.retrier.onRetryTimeout e.now e.options.maximumRetryAttempts with
  | .fail => (true, s)
  | .resend id retry => (false, s.resend e.now id retry)
  | .wait => (false, { s with retrier := s.retrier.recalculateRetryTimeout s.rtt })

/-- The sender after a call. -/
def call (e : Env) (s : Sender) : SenderCall → Sender
  | .open => s.open e
  | .send data reliability => (s.send e data reliability).2
  | .close => s.close e
  | .fail => s.fail
  | .sendReliably paths priority => s.sendReliablyMultipath e.now paths priority
  | .ack packetID => s.ack e packetID
  | .onAck ack => s.onAck e ack
  | .processSchedule reliability => s.processSchedule e reliability
  | .retryTimeout => (s.onRetryTimeout e).2

/-- A message enters one of the queues. -/
def push (s : Sender) (type : FrameTypeID) (data : Bytes) (mode : CoalesceMode) :
    Reliability → Sender
  | .reliable => { s with dataQueue := s.dataQueue.enqueue type data mode }
  | .unreliable => { s with unreliableDataQueue := s.unreliableDataQueue.enqueue type data mode }

/-- `enqueue` is a push, and then the queue may be processed. -/
theorem enqueue_eq (e : Env) (s : Sender) (type : FrameTypeID) (data : Bytes)
    (reliability : Reliability) (mode : CoalesceMode) :
    s.enqueue e type data reliability mode =
      if (s.push type data mode reliability).isReadyToSend e then
        (s.push type data mode reliability).scheduleDataQueueProcessing e reliability
      else s.push type data mode reliability := by
  cases reliability <;> rfl

/-! ## Elementary changes -/

/-- The elementary changes that neither acknowledge a packet nor close anything. -/
inductive Quiet (e : Env) (ok : Packet → Prop) : Sender → Sender → Prop
  | setSchedule (s : Sender) (schedule : Schedule) (reliability : Reliability) :
      Quiet e ok s (s.setSchedule schedule reliability)
  | transmit (s : Sender) {p : Packet} {q : SendQueue} (h : s.Dequeues e p q) :
      Quiet e ok s (s.transmit e p q)
  | processUnreliableDataQueue (s : Sender) : Quiet e ok s (s.processUnreliableDataQueue e)
  | push (s : Sender) {type : FrameTypeID} {data : Bytes} {mode : CoalesceMode}
      (reliability : Reliability)
      (htype : type = FrameTypeID.data ∧ s.status ≠ .closed ∨ type = FrameTypeID.closeWrite)
      (hadm : SendQueue.Admissible data mode) : Quiet e ok s (s.push type data mode reliability)
  | open (s : Sender) (h : s.status = .uninitialized) : Quiet e ok s { s with status := .open }
  | sendReliably (s : Sender) {paths : MultiPacketPath} (priority : Bool)
      (h : ∀ path ∈ paths.toList, ok path.packet) :
      Quiet e ok s (s.sendReliablyMultipath e.now paths priority)
  | delayAck (s : Sender) (packetID : PacketID) :
      Quiet e ok s { s with delayedAcks := s.delayedAcks ++ [⟨packetID, e.now⟩] }
  | resend (s : Sender) {id : PacketID} {retry : Retry} (h : s.retrier.window[id]? = some retry) :
      Quiet e ok s (s.resend e.now id retry)
  | recalculate (s : Sender) :
      Quiet e ok s { s with retrier := s.retrier.recalculateRetryTimeout s.rtt }

/-- The elementary changes. -/
inductive Change (e : Env) (ok : Packet → Prop) : Sender → Sender → Prop
  | quiet {s s' : Sender} (h : Quiet e ok s s') : Change e ok s s'
  | acknowledge (s : Sender) (ack : Ack) : Change e ok s (s.acknowledge e.now ack)
  | close (s : Sender) : Change e ok s { s with status := .closed }
  | fail (s : Sender) : Change e ok s s.fail

variable {e : Env} {ok : Packet → Prop} {s : Sender}

/-! ## Processing the queues -/

/-- What is to be shown of a relation for it to hold whenever the queues are processed. -/
structure Pass (e : Env) (R : Sender → Sender → Prop) : Prop where
  refl : ∀ s, R s s
  trans : ∀ {s₁ s₂ s₃}, R s₁ s₂ → R s₂ s₃ → R s₁ s₃
  setSchedule : ∀ s schedule reliability, R s (s.setSchedule schedule reliability)
  transmit : ∀ s {p q}, s.isReadyToSend e = true → s.Dequeues e p q → R s (s.transmit e p q)
  processUnreliableDataQueue : ∀ s, R s (s.processUnreliableDataQueue e)

/-- The same with messages that enter the queues before. -/
structure Walk (e : Env) (R : Sender → Sender → Prop) : Prop extends Pass e R where
  push : ∀ (s : Sender) {type : FrameTypeID} {data : Bytes} {mode : CoalesceMode} reliability,
    type = FrameTypeID.data ∧ s.status ≠ .closed ∨ type = FrameTypeID.closeWrite →
    SendQueue.Admissible data mode → R s (s.push type data mode reliability)

namespace Pass

variable {R : Sender → Sender → Prop}

theorem processReliableLoop (h : Pass e R) (fuel : ℕ) (s : Sender)
    (hready : s.isReadyToSend e = true) : R s (processReliableLoop e fuel s) := by
  induction fuel generalizing s with
  | zero => exact h.refl s
  | succ fuel ih =>
      rw [Sender.processReliableLoop]
      rcases transmitNext_eq e s with hsent | ⟨p, q, hq, hsent⟩
      · rw [hsent]
        exact h.refl s
      · rw [hsent]
        exact h.trans (h.transmit s hready hq) (ih _ hready)

theorem processDataQueue (h : Pass e R) (s : Sender) (reliability : Reliability) :
    R s (s.processDataQueue e reliability) := by
  cases reliability with
  | reliable =>
      rw [Sender.processDataQueue, processReliableDataQueue]
      split
      next hready => exact h.processReliableLoop _ s hready
      · exact h.refl s
  | unreliable => exact h.processUnreliableDataQueue s

theorem scheduleDataQueueProcessing (h : Pass e R) (s : Sender) (reliability : Reliability)
    (immediate : Bool) : R s (s.scheduleDataQueueProcessing e reliability immediate) := by
  rw [Sender.scheduleDataQueueProcessing]
  split
  · exact h.processDataQueue s reliability
  · extract_lets schedule soon
    split
    · exact h.setSchedule s _ _
    · exact h.refl s

theorem processSchedule (h : Pass e R) (s : Sender) (reliability : Reliability) :
    R s (s.processSchedule e reliability) := by
  rw [Sender.processSchedule]
  dsimp only
  split
  · exact h.refl s
  · exact h.trans (h.setSchedule s _ _)
      (h.trans (h.processDataQueue _ reliability) (h.setSchedule _ _ _))

end Pass

namespace Walk

variable {R : Sender → Sender → Prop}

theorem enqueue (h : Walk e R) {type : FrameTypeID} {data : Bytes} {mode : CoalesceMode}
    (reliability : Reliability)
    (htype : type = FrameTypeID.data ∧ s.status ≠ .closed ∨ type = FrameTypeID.closeWrite)
    (hadm : SendQueue.Admissible data mode) : R s (s.enqueue e type data reliability mode) := by
  rw [enqueue_eq]
  refine h.trans (h.push s reliability htype hadm) ?_
  split
  · exact h.scheduleDataQueueProcessing _ reliability false
  · exact h.refl _

theorem send (h : Walk e R) (data : Bytes) (reliability : Reliability) :
    R s (s.send e data reliability).2 := by
  rw [Sender.send]
  split
  next hopen =>
    dsimp only
    split
    · exact h.refl s
    next hsize =>
      exact h.enqueue reliability (.inl ⟨rfl, hopen⟩) (SendQueue.admissible_of_not hsize)
  · exact h.refl s

end Walk

/-! ## Calls as sequences of changes -/

theorem walk_quiet : Walk e (ReflTransGen (Quiet e ok)) where
  refl _ := .refl
  trans := .trans
  setSchedule s schedule reliability := .single (.setSchedule s schedule reliability)
  transmit s _ _ _ hq := .single (.transmit s hq)
  processUnreliableDataQueue s := .single (.processUnreliableDataQueue s)
  push s _ _ _ reliability htype hadm := .single (.push s reliability htype hadm)

theorem scheduleDataQueueProcessing_quiet (s : Sender) (reliability : Reliability)
    (immediate : Bool) :
    ReflTransGen (Quiet e ok) s (s.scheduleDataQueueProcessing e reliability immediate) :=
  walk_quiet.scheduleDataQueueProcessing s reliability immediate

theorem enqueue_quiet {type : FrameTypeID} {data : Bytes} {mode : CoalesceMode}
    (reliability : Reliability)
    (htype : type = FrameTypeID.data ∧ s.status ≠ .closed ∨ type = FrameTypeID.closeWrite)
    (hadm : SendQueue.Admissible data mode) :
    ReflTransGen (Quiet e ok) s (s.enqueue e type data reliability mode) :=
  walk_quiet.enqueue reliability htype hadm

theorem onRetryTimeout_quiet : ReflTransGen (Quiet e ok) s (s.onRetryTimeout e).2 := by
  rw [onRetryTimeout]
  split
  · exact .refl
  next id retry h =>
    exact .single (.resend s (s.retrier.window_of_onRetryTimeout _ h))
  · exact .single (.recalculate s)

/-- A quiet call is a sequence of quiet changes. -/
theorem call_quiet {call : SenderCall} (h : call.Quiet ok) :
    ReflTransGen (Quiet e ok) s (s.call e call) := by
  cases call with
  | «open» =>
      rw [Sender.call, Sender.open]
      apply ReflTransGen.trans _ (scheduleDataQueueProcessing_quiet _ .unreliable false)
      apply ReflTransGen.trans _ (scheduleDataQueueProcessing_quiet _ .reliable false)
      split
      next hst => exact .single (.open s hst)
      · exact .refl
  | send data reliability => exact walk_quiet.send data reliability
  | sendReliably paths priority => exact .single (.sendReliably s priority h)
  | ack packetID =>
      rw [Sender.call, Sender.ack]
      exact (scheduleDataQueueProcessing_quiet _ .unreliable false).head (.delayAck s packetID)
  | processSchedule reliability => exact walk_quiet.processSchedule s reliability
  | retryTimeout => exact onRetryTimeout_quiet
  | close | fail | onAck ack => exact h.elim

variable {s' : Sender}

/-- The bound on what is sent past the queues can be widened. -/
theorem Change.mono {ok' : Packet → Prop} (hok : ∀ p, ok p → ok' p) (h : Change e ok s s') :
    Change e ok' s s' := by
  cases h with
  | quiet h =>
      apply Change.quiet
      cases h with
      | setSchedule => exact .setSchedule ..
      | transmit hq => exact .transmit _ hq
      | processUnreliableDataQueue => exact .processUnreliableDataQueue _
      | push reliability htype hadm => exact .push _ reliability htype hadm
      | «open» hst => exact .open _ hst
      | sendReliably priority hpaths =>
          exact .sendReliably _ priority fun path hp => hok _ (hpaths path hp)
      | delayAck packetID => exact .delayAck _ packetID
      | resend hid => exact .resend _ hid
      | recalculate => exact .recalculate _
  | acknowledge ack => exact .acknowledge _ ack
  | close => exact .close _
  | fail => exact .fail _

theorem changes_of_quiet (h : ReflTransGen (Quiet e ok) s s') : ReflTransGen (Change e ok) s s' :=
  ReflTransGen.mono (fun _ _ => Change.quiet) _ _ h

/-- **A call is a sequence of elementary changes.** -/
theorem call_changes {call : SenderCall} (h : call.Sends ok) :
    ReflTransGen (Change e ok) s (s.call e call) := by
  cases call with
  | close =>
      rw [Sender.call, Sender.close]
      split
      · apply ReflTransGen.tail _ (.close _)
        apply changes_of_quiet
        apply enqueue_quiet .reliable (.inr rfl)
        exact .inl (by simp)
      · exact .refl
  | fail => exact .single (.fail s)
  | onAck ack =>
      apply ReflTransGen.head (.acknowledge s ack)
      exact changes_of_quiet (scheduleDataQueueProcessing_quiet _ .reliable true)
  | «open» | send | sendReliably | ack | processSchedule | retryTimeout =>
      exact changes_of_quiet (call_quiet h)

/-! ## The window along a change -/

/-- The retries are numbered on: what is outstanding afterwards was outstanding before,
or was sent since. -/
structure Extends (s s' : Sender) : Prop where
  issued : s.packetIDGenerator.issued ≤ s'.packetIDGenerator.issued
  outstanding : ∀ k paths n, s'.retrier.outstanding k = some (paths, n) →
    s.retrier.outstanding k = some (paths, n) ∨
      s.packetIDGenerator.issued ≤ n ∧ n < s'.packetIDGenerator.issued

theorem Extends.refl (s : Sender) : Extends s s :=
  ⟨le_rfl, fun _ _ _ h => .inl h⟩

theorem Extends.trans {s₁ s₂ s₃ : Sender} (h : Extends s₁ s₂) (h' : Extends s₂ s₃) :
    Extends s₁ s₃ where
  issued := h.issued.trans h'.issued
  outstanding k paths n hk := by
    rcases h'.outstanding k paths n hk with hk | ⟨hle, hlt⟩
    · rcases h.outstanding k paths n hk with hk | ⟨hle, hlt⟩
      · exact .inl hk
      · exact .inr ⟨hle, hlt.trans_le h'.issued⟩
    · exact .inr ⟨h.issued.trans hle, hlt⟩

/-- Neither the generator nor the window moves. -/
theorem Extends.of_eq (hissued : s'.packetIDGenerator = s.packetIDGenerator)
    (houtstanding : ∀ k, s'.retrier.outstanding k = s.retrier.outstanding k) : Extends s s' where
  issued := by rw [hissued]
  outstanding k paths n hk := .inl (by rw [← houtstanding, hk])

theorem extends_sendReliablyMultipath (s : Sender) (now : Timepoint) (paths : MultiPacketPath)
    (priority : Bool) : Extends s (s.sendReliablyMultipath now paths priority) where
  issued := Nat.le_succ _
  outstanding k m n hk := by
    rcases Retrier.outstanding_of_insert _ _ _ hk with hk | ⟨_, hk⟩
    · exact .inl hk
    · cases hk
      exact .inr ⟨le_rfl, Nat.lt_succ_self _⟩

/-- The unreliable traffic is none of the window's business. -/
theorem processUnreliableLoop_frame (fuel : ℕ) (s : Sender) :
    (processUnreliableLoop e fuel s).retrier = s.retrier ∧
      (processUnreliableLoop e fuel s).packetIDGenerator = s.packetIDGenerator ∧
      (processUnreliableLoop e fuel s).dataQueue = s.dataQueue ∧
      (processUnreliableLoop e fuel s).status = s.status := by
  induction fuel generalizing s with
  | zero => exact ⟨rfl, rfl, rfl, rfl⟩
  | succ fuel ih =>
      rw [processUnreliableLoop]
      split
      · exact ⟨rfl, rfl, rfl, rfl⟩
      · exact ih _

theorem processUnreliableDataQueue_frame (s : Sender) :
    (s.processUnreliableDataQueue e).retrier = s.retrier ∧
      (s.processUnreliableDataQueue e).packetIDGenerator = s.packetIDGenerator ∧
      (s.processUnreliableDataQueue e).dataQueue = s.dataQueue ∧
      (s.processUnreliableDataQueue e).status = s.status := by
  rw [processUnreliableDataQueue]
  split
  · exact processUnreliableLoop_frame _ _
  · exact ⟨rfl, rfl, rfl, rfl⟩

/-- Nor is it the acknowledgements'. -/
theorem acknowledge_unreliable (now : Timepoint) (ack : Ack) :
    (s.acknowledge now ack).unreliableDataQueue = s.unreliableDataQueue ∧
      (s.acknowledge now ack).status = s.status ∧
      (s.acknowledge now ack).delayedAcks = s.delayedAcks := by
  rw [acknowledge]
  dsimp only
  split <;> exact ⟨rfl, rfl, rfl⟩

theorem Quiet.extends (h : Quiet e ok s s') : Extends s s' := by
  cases h with
  | setSchedule schedule reliability =>
      cases reliability <;> exact .of_eq rfl fun _ => rfl
  | @transmit p q =>
      have hqueue : Extends s { s with dataQueue := q } := .of_eq rfl fun _ => rfl
      exact hqueue.trans (extends_sendReliablyMultipath _ e.now _ false)
  | processUnreliableDataQueue =>
      obtain ⟨hretrier, hissued, _, _⟩ := processUnreliableDataQueue_frame (e := e) s
      exact .of_eq hissued fun k => by rw [hretrier]
  | push reliability => cases reliability <;> exact .of_eq rfl fun _ => rfl
  | «open» => exact .of_eq rfl fun _ => rfl
  | sendReliably priority => apply extends_sendReliablyMultipath
  | delayAck => exact .of_eq rfl fun _ => rfl
  | resend h => exact .of_eq rfl fun k => outstanding_resend h e.now k
  | recalculate => exact .of_eq rfl fun k => by simp

/-- **No change replaces a packet outstanding.** -/
theorem Change.extends (h : Change e ok s s') : Extends s s' := by
  cases h with
  | quiet h => exact h.extends
  | acknowledge ack =>
      exact ⟨by rw [(acknowledge_frame e.now ack).2.2.1],
        fun k paths n hk => .inl (outstanding_of_acknowledge hk)⟩
  | close => exact .of_eq rfl fun _ => rfl
  | fail => exact ⟨le_rfl, fun k paths n hk => .inl (Retrier.outstanding_of_close _ hk)⟩

/-! ## Closing, and emptiness -/

/-- The retrier and the reliable queue are closed together, and emptied then. -/
structure Static (s : Sender) : Prop where
  together : s.retrier.status = .closed ↔ s.dataQueue.status = .closed
  window : s.retrier.status = .closed → s.retrier.empty = true
  queue : s.dataQueue.status = .closed → s.dataQueue.queue = []

theorem Static.init : Static {} where
  together := by decide
  window := by decide
  queue := by decide

/-- A static state is still static after a change that leaves the statuses alone and
touches neither a closed window nor a closed queue. -/
theorem Static.mono (h : Static s) (hretrier : s'.retrier.status = s.retrier.status)
    (hqueue : s'.dataQueue.status = s.dataQueue.status)
    (hwindow : s.retrier.status = .closed → s'.retrier.empty = s.retrier.empty)
    (hclosed : s.dataQueue.status = .closed → s'.dataQueue.queue = s.dataQueue.queue) :
    Static s' where
  together := by rw [hretrier, hqueue, h.together]
  window hc := by
    rw [hretrier] at hc
    rw [hwindow hc, h.window hc]
  queue hc := by
    rw [hqueue] at hc
    rw [hclosed hc, h.queue hc]

/-- A packet sent reliably is in the window afterwards, if the window is open. -/
theorem not_empty_sendReliablyMultipath (hopen : s.retrier.status = .open) (now : Timepoint)
    (paths : MultiPacketPath) (priority : Bool) :
    (s.sendReliablyMultipath now paths priority).retrier.empty = false := by
  rw [← Bool.not_eq_true, Retrier.empty_iff]
  intro h
  have hk := s.retrier.outstanding_insert s.rtt now hopen
    (paths.setID s.packetIDGenerator.id) priority s.packetIDGenerator.issued
    s.packetIDGenerator.id
  have hid : (paths.setID s.packetIDGenerator.id).front.packet.header.id =
      s.packetIDGenerator.id := rfl
  rw [if_pos hid.symm] at hk
  have hnone := (h s.packetIDGenerator.id).symm.trans hk
  cases hold : s.retrier.outstanding s.packetIDGenerator.id <;> simp [hold] at hnone

theorem retrier_sendReliablyMultipath_of_closed (hclosed : s.retrier.status = .closed)
    (now : Timepoint) (paths : MultiPacketPath) (priority : Bool) :
    (s.sendReliablyMultipath now paths priority).retrier = s.retrier := by
  change s.retrier.insert .. = _
  rw [Retrier.insert, if_pos hclosed]

theorem static_sendReliablyMultipath (h : Static s) (now : Timepoint) (paths : MultiPacketPath)
    (priority : Bool) : Static (s.sendReliablyMultipath now paths priority) := by
  apply h.mono
  · exact s.retrier.status_insert s.rtt now _ _ _
  · rfl
  · intro hclosed
    rw [retrier_sendReliablyMultipath_of_closed hclosed]
  · exact fun _ => rfl

theorem Quiet.static (h : Quiet e ok s s') (hs : Static s) : Static s' := by
  cases h with
  | setSchedule schedule reliability =>
      cases reliability <;> exact hs.mono rfl rfl (fun _ => rfl) fun _ => rfl
  | transmit hq =>
      apply static_sendReliablyMultipath
      have hstatus := s.dataQueue.status_dequeue e.zlib e.options.coalesceReliable.compressionLevel
      rw [hq] at hstatus
      refine hs.mono rfl hstatus (fun _ => rfl) ?_
      intro hclosed
      rw [SendQueue.open_of_dequeue hq] at hclosed
      cases hclosed
  | processUnreliableDataQueue =>
      obtain ⟨hretrier, _, hqueue, _⟩ := processUnreliableDataQueue_frame (e := e) s
      exact hs.mono (by rw [hretrier]) (by rw [hqueue]) (fun _ => by rw [hretrier])
        fun _ => by rw [hqueue]
  | push reliability =>
      cases reliability with
      | unreliable => exact hs.mono rfl rfl (fun _ => rfl) fun _ => rfl
      | reliable =>
          refine hs.mono rfl ?_ (fun _ => rfl) ?_
          · apply SendQueue.status_enqueue
          · intro hclosed
            change (s.dataQueue.enqueue _ _ _).queue = _
            rw [SendQueue.enqueue, if_pos hclosed]
  | «open» => exact hs.mono rfl rfl (fun _ => rfl) fun _ => rfl
  | sendReliably priority => exact static_sendReliablyMultipath hs e.now _ priority
  | delayAck => exact hs.mono rfl rfl (fun _ => rfl) fun _ => rfl
  | resend hid =>
      refine hs.mono ?_ rfl ?_ fun _ => rfl
      · exact Retrier.status_recalculateRetryTimeout _ _
      · intro _
        rw [Bool.eq_iff_iff, Retrier.empty_iff, Retrier.empty_iff]
        simp only [outstanding_resend hid]
  | recalculate =>
      refine hs.mono ?_ rfl ?_ fun _ => rfl
      · exact Retrier.status_recalculateRetryTimeout _ _
      · intro _
        rw [Bool.eq_iff_iff, Retrier.empty_iff, Retrier.empty_iff]
        simp only [Retrier.outstanding_recalculateRetryTimeout]

/-- Closing the sender and its parts. -/
theorem static_fail (h : Static s) : Static s.fail where
  together := by simp [fail, SendQueue.status_close, Retrier.status_close]
  window _ := by
    change s.retrier.close.empty = true
    rw [Retrier.empty_iff]
    intro k
    rw [Retrier.outstanding_close]
    split
    next hclosed => exact s.retrier.empty_iff.mp (h.window hclosed) k
    · rfl
  queue _ := by
    change s.dataQueue.close.queue = []
    rw [SendQueue.close]
    split
    · rfl
    next hclosed => exact h.queue (not_not.mp hclosed)

theorem Change.static (h : Change e ok s s') (hs : Static s) : Static s' := by
  cases h with
  | quiet h => exact h.static hs
  | acknowledge ack =>
      obtain ⟨hqueue, _, _, hstatus⟩ := acknowledge_frame (s := s) e.now ack
      refine hs.mono hstatus (by rw [hqueue]) ?_ fun _ => by rw [hqueue]
      intro hclosed
      rw [hs.window hclosed, Retrier.empty_iff]
      intro k
      rw [outstanding_acknowledge]
      split
      · rfl
      · exact s.retrier.empty_iff.mp (hs.window hclosed) k
  | close => exact hs.mono rfl rfl (fun _ => rfl) fun _ => rfl
  | fail => exact static_fail hs

/-- **A quiet change never empties the sender.** -/
theorem Quiet.empty (h : Quiet e ok s s') (hs : Static s) (hempty : s'.empty = true) :
    s.empty = true := by
  have hsplit : ∀ t : Sender,
      t.empty = true ↔ t.retrier.empty = true ∧ t.dataQueue.empty = true := by
    intro t
    rw [Sender.empty, Bool.and_eq_true]
  cases h with
  | setSchedule schedule reliability => cases reliability <;> exact hempty
  | @transmit p q hq =>
      -- The packet that left the queue is in the window.
      have hopen : s.retrier.status = .open := by
        cases hstatus : s.retrier.status with
        | «open» => rfl
        | closed =>
            have := hs.together.mp hstatus
            rw [SendQueue.open_of_dequeue hq] at this
            cases this
      have hfull : (s.transmit e p q).retrier.empty = false :=
        not_empty_sendReliablyMultipath (s := { s with dataQueue := q }) hopen _ _ _
      rw [hsplit, hfull] at hempty
      exact absurd hempty.1 (by decide)
  | processUnreliableDataQueue =>
      obtain ⟨hretrier, _, hqueue, _⟩ := processUnreliableDataQueue_frame (e := e) s
      rwa [hsplit, hretrier, hqueue, ← hsplit] at hempty
  | push reliability =>
      cases reliability with
      | unreliable => exact hempty
      | reliable =>
          rw [hsplit] at hempty ⊢
          exact ⟨hempty.1, (SendQueue.empty_enqueue _ _ _ hempty.2).2⟩
  | «open» => exact hempty
  | sendReliably priority =>
      cases hstatus : s.retrier.status with
      | «open» =>
          rw [hsplit, not_empty_sendReliablyMultipath hstatus] at hempty
          exact absurd hempty.1 (by decide)
      | closed =>
          rw [hsplit, retrier_sendReliablyMultipath_of_closed hstatus] at hempty
          rw [hsplit]
          exact hempty
  | delayAck => exact hempty
  | resend hid =>
      rw [hsplit, Retrier.empty_iff] at hempty ⊢
      refine ⟨fun k => ?_, hempty.2⟩
      rw [← outstanding_resend hid e.now k]
      exact hempty.1 k
  | recalculate =>
      rw [hsplit, Retrier.empty_iff] at hempty ⊢
      refine ⟨fun k => ?_, hempty.2⟩
      rw [← Retrier.outstanding_recalculateRetryTimeout s.retrier s.rtt k]
      exact hempty.1 k

/-- No quiet change closes the sender. -/
theorem Quiet.status_closed (h : Quiet e ok s s') (hclosed : s'.status = .closed) :
    s.status = .closed := by
  cases h with
  | setSchedule schedule reliability => cases reliability <;> exact hclosed
  | processUnreliableDataQueue => rwa [(processUnreliableDataQueue_frame s).2.2.2] at hclosed
  | push reliability => cases reliability <;> exact hclosed
  | «open» => cases hclosed
  | transmit | sendReliably | delayAck | resend | recalculate => exact hclosed

/-! ## What waits and what is sent -/

/-- A property of packets that the identifier does not matter for, and that reliable data
has. -/
structure Indifferent (good : Packet → Prop) : Prop where
  id : ∀ (p : Packet) (id : PacketID), good p →
    good { p with header := { p.header with id := id } }
  data : ∀ p : Packet, p.header.type = TypeID.dataReliable → good p

/-- All packets in the window are `good`. -/
def Waits (good : Packet → Prop) (s : Sender) : Prop :=
  ∀ k paths n, s.retrier.outstanding k = some (paths, n) →
    ∀ path ∈ paths.toList, good path.packet

/-- All packets about to be sent are `good`. -/
def Posts (good : Packet → Prop) (s : Sender) : Prop := ∀ t ∈ s.outbox, good t.packet

section
variable {good : Packet → Prop}

theorem Waits.mono {s' : Sender} (h : Waits good s)
    (hsub : ∀ k paths n, s'.retrier.outstanding k = some (paths, n) →
      s.retrier.outstanding k = some (paths, n)) :
    Waits good s' :=
  fun k paths n hk => h k paths n (hsub k paths n hk)

variable {paths : MultiPacketPath}

theorem good_setID (hgood : Indifferent good) (hpaths : ∀ path ∈ paths.toList, good path.packet)
    (id : PacketID) : ∀ path ∈ (paths.setID id).toList, good path.packet := by
  intro path hpath
  rw [MultiPacketPath.toList_setID] at hpath
  obtain ⟨p, hp, rfl⟩ := List.mem_map.mp hpath
  exact hgood.id _ id (hpaths p hp)

theorem waits_sendReliablyMultipath (hgood : Indifferent good) (h : Waits good s)
    (hpaths : ∀ path ∈ paths.toList, good path.packet) (now : Timepoint) (priority : Bool) :
    Waits good (s.sendReliablyMultipath now paths priority) := by
  intro k m n hk
  rcases Retrier.outstanding_of_insert _ _ _ hk with hk | ⟨_, hk⟩
  · exact h k m n hk
  · cases hk
    exact good_setID hgood hpaths _

theorem posts_sendReliablyMultipath (hgood : Indifferent good) (h : Posts good s)
    (hpaths : ∀ path ∈ paths.toList, good path.packet) (now : Timepoint) (priority : Bool) :
    Posts good (s.sendReliablyMultipath now paths priority) := by
  intro t ht
  rcases List.mem_append.mp ht with ht | ht
  · exact h t ht
  · obtain ⟨path, hpath, rfl⟩ := List.mem_map.mp ht
    exact good_setID hgood hpaths _ path hpath

theorem Quiet.waits (hgood : Indifferent good) (hok : ∀ p, ok p → good p) {s' : Sender}
    (h : Quiet e ok s s') (hs : Waits good s) : Waits good s' := by
  cases h with
  | setSchedule schedule reliability => cases reliability <;> exact hs
  | @transmit p q =>
      exact waits_sendReliablyMultipath (s := { s with dataQueue := q }) hgood hs
        (MultiPacketPath.forall_front (hgood.data _ rfl)) e.now false
  | processUnreliableDataQueue =>
      obtain ⟨hretrier, _⟩ := processUnreliableDataQueue_frame (e := e) s
      exact hs.mono fun k paths n hk => by rwa [hretrier] at hk
  | push reliability => cases reliability <;> exact hs
  | «open» => exact hs
  | sendReliably priority hpaths =>
      exact waits_sendReliablyMultipath hgood hs (fun path hp => hok _ (hpaths path hp)) e.now
        priority
  | delayAck => exact hs
  | resend hid => exact hs.mono fun k paths n hk => by rwa [outstanding_resend hid] at hk
  | recalculate =>
      exact hs.mono fun k paths n hk => by
        rwa [Retrier.outstanding_recalculateRetryTimeout] at hk

/-- **Only good packets come to wait**, if only good packets are sent past the queues. -/
theorem Change.waits (hgood : Indifferent good) (hok : ∀ p, ok p → good p) {s' : Sender}
    (h : Change e ok s s') (hs : Waits good s) : Waits good s' := by
  cases h with
  | quiet h => exact h.waits hgood hok hs
  | acknowledge ack => exact hs.mono fun k paths n hk => outstanding_of_acknowledge hk
  | close => exact hs
  | fail => exact hs.mono fun k paths n hk => Retrier.outstanding_of_close _ hk

/-- The loop over the unreliable queue only sends unreliable data, and a closed queue has
none. -/
theorem processUnreliableLoop_outbox (fuel : ℕ) (s : Sender) :
    ∃ ts, (processUnreliableLoop e fuel s).outbox = s.outbox ++ ts ∧
      (∀ t ∈ ts, t.packet.header.type = TypeID.dataUnreliable) ∧
      (s.unreliableDataQueue.status = .closed → ts = []) ∧
      (processUnreliableLoop e fuel s).unreliableDataQueue.status =
        s.unreliableDataQueue.status := by
  induction fuel generalizing s with
  | zero => exact ⟨[], by simp [processUnreliableLoop], by simp, by simp, rfl⟩
  | succ fuel ih =>
      have hstatus := s.unreliableDataQueue.status_dequeue e.zlib
        e.options.coalesceUnreliable.compressionLevel
      rw [processUnreliableLoop]
      split
      next q h =>
        rw [h] at hstatus
        exact ⟨[], by simp, by simp, by simp, hstatus⟩
      next p q h =>
        rw [h] at hstatus
        obtain ⟨ts, houtbox, htype, _, hend⟩ := ih
          { s with
            unreliableDataQueue := q
            outbox := s.outbox ++
              [⟨{ p with header := { p.header with type := TypeID.dataUnreliable } },
                none, false⟩] }
        refine ⟨⟨{ p with header := { p.header with type := TypeID.dataUnreliable } },
          none, false⟩ :: ts, ?_, ?_, ?_, ?_⟩
        · rw [houtbox]
          simp
        · intro t ht
          rcases List.mem_cons.mp ht with rfl | ht
          · rfl
          · exact htype t ht
        · intro hclosed
          rw [SendQueue.open_of_dequeue h] at hclosed
          cases hclosed
        · rw [hend]
          exact hstatus

theorem status_queueDelayedAcks (s : Sender) :
    (s.queueDelayedAcks e).unreliableDataQueue.status = s.unreliableDataQueue.status := by
  rw [queueDelayedAcks]
  generalize s.delayedAcks = acks
  generalize s.unreliableDataQueue = q
  dsimp only
  induction acks generalizing q with
  | nil => rfl
  | cons a acks ih =>
      rw [List.foldl_cons, ih]
      apply SendQueue.status_enqueue

theorem processUnreliableDataQueue_outbox (s : Sender) :
    ∃ ts, (s.processUnreliableDataQueue e).outbox = s.outbox ++ ts ∧
      (∀ t ∈ ts, t.packet.header.type = TypeID.dataUnreliable) ∧
      (s.unreliableDataQueue.status = .closed → ts = []) ∧
      (s.processUnreliableDataQueue e).unreliableDataQueue.status =
        s.unreliableDataQueue.status := by
  rw [processUnreliableDataQueue]
  split
  · obtain ⟨ts, houtbox, htype, hclosed, hstatus⟩ := processUnreliableLoop_outbox (e := e)
      ((s.queueDelayedAcks e).unreliableDataQueue.depth e.zlib
        e.options.coalesceUnreliable.compressionLevel + 1) (s.queueDelayedAcks e)
    rw [status_queueDelayedAcks] at hclosed hstatus
    exact ⟨ts, houtbox, htype, hclosed, hstatus⟩
  · exact ⟨[], by simp, by simp, by simp, rfl⟩

/-- **Only good packets are sent**, if only good packets wait or are sent past the queues.
Unreliable data is good, or there is none. -/
theorem Change.posts (hgood : Indifferent good) (hok : ∀ p, ok p → good p) {s' : Sender}
    (h : Change e ok s s') (hwaits : Waits good s)
    (hunreliable : s.unreliableDataQueue.status = .closed ∨
      ∀ p : Packet, p.header.type = TypeID.dataUnreliable → good p)
    (hs : Posts good s) : Posts good s' := by
  cases h with
  | quiet h =>
      cases h with
      | setSchedule schedule reliability => cases reliability <;> exact hs
      | @transmit p q =>
          exact posts_sendReliablyMultipath (s := { s with dataQueue := q }) hgood hs
            (MultiPacketPath.forall_front (hgood.data _ rfl)) e.now false
      | processUnreliableDataQueue =>
          obtain ⟨ts, houtbox, htype, hclosed, _⟩ :=
            processUnreliableDataQueue_outbox (e := e) s
          intro t ht
          rw [houtbox] at ht
          rcases List.mem_append.mp ht with ht | ht
          · exact hs t ht
          · rcases hunreliable with hstatus | hunreliable
            · rw [hclosed hstatus] at ht
              cases ht
            · exact hunreliable _ (htype t ht)
      | push reliability => cases reliability <;> exact hs
      | «open» => exact hs
      | sendReliably priority hpaths =>
          exact posts_sendReliablyMultipath hgood hs (fun path hp => hok _ (hpaths path hp))
            e.now priority
      | delayAck => exact hs
      | @resend id retry hid =>
          intro t ht
          rcases List.mem_append.mp ht with ht | ht
          · exact hs t ht
          · obtain ⟨path, hpath, rfl⟩ := List.mem_map.mp ht
            refine hwaits id retry.paths retry.serial ?_ path hpath
            rw [Retrier.outstanding, hid]
            rfl
      | recalculate => exact hs
  | acknowledge ack =>
      intro t ht
      rw [(acknowledge_frame e.now ack).2.1] at ht
      exact hs t ht
  | close => exact hs
  | fail => exact hs

end

end Sender
end MrUDP
