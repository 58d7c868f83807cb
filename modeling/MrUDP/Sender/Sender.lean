import MrUDP.Sender.Retrier
import MrUDP.Sender.SendQueue

/-!
# The sender

`mrudp/sender/Sender.cpp`.  The sender owns the two send queues and the retrier,
and decides when the queues are processed.

A call of `Connection::send` or `Connection::resend` is an entry of `outbox`, in
order; neither calls back into the sender.  The calls of
`Connection::possiblyClose` that end `onReceive` and `onAck` are made by the
connection.  The locks and `running` only matter between threads; here a schedule
is never found running by another call.

## Main definitions

* `Env`: what the sender reads of its connection.
* `Sender.transmitNext`: one round of the loop that sends reliable packets.
* `Sender.processDataQueue`, `Sender.scheduleDataQueueProcessing`: the queues.
* `Sender.onAck`, `Sender.ack`, `Sender.onRetryTimeout`: acknowledgements and retries.
-/

namespace MrUDP

/-- What the sender reads of its connection and of the clock. -/
structure Env where
  zlib : Zlib
  canSend : Bool
  options : ConnectionOptions
  now : Timepoint

/-- A call of `Connection::send`, or of `Connection::resend` if `again`. -/
structure Transmission where
  packet : Packet
  address : Option Address := none
  again : Bool := false
  deriving DecidableEq, Repr

/-- `Sender::Schedule`. -/
structure Schedule where
  when : Option Timepoint := none
  running : Bool := false
  timeout : Option Timepoint := none
  deriving DecidableEq, Repr

/-- `Sender::DelayedAck`. -/
structure DelayedAck where
  packetID : PacketID
  when : Timepoint
  deriving DecidableEq, Repr

/-- `Sender`.  `delayedAcks` is `delayedAcks[0]`; the second vector is empty
outside `queueDelayedAcks`. -/
structure Sender where
  status : Status := .uninitialized
  packetIDGenerator : IDGenerator := {}
  rtt : RTT := {}
  windowSize : WindowSize := {}
  retrier : Retrier := {}
  dataQueue : SendQueue := {}
  unreliableDataQueue : SendQueue := {}
  reliableSchedule : Schedule := {}
  unreliableSchedule : Schedule := {}
  delayedAcks : List DelayedAck := []
  outbox : List Transmission := []

/-! ## How often a queue can be dequeued -/

namespace SendQueue

/-- A bound on the packets `dequeue` can still return. -/
def depth (z : Zlib) (level : ℤ) (q : SendQueue) : ℕ :=
  q.queue.length +
    if q.compressionBuffer = [] then 0
    else (({ q with queue := [] } : SendQueue).compress z level).queue.length

/-- Every packet dequeued lowers the bound, so a loop over `dequeue` with more
fuel than `depth` ends because the queue is empty. -/
theorem depth_dequeue {z : Zlib} {level : ℤ} {q q' : SendQueue} {p : Packet}
    (h : q.dequeue z level = (some p, q')) : q'.depth z level < q.depth z level := by
  unfold dequeue at h
  split at h
  · cases h
  dsimp only at h
  by_cases hc : q.queue = [] ∧ q.compressionBuffer ≠ []
  · -- The side buffer becomes the packet list, and is empty afterwards.
    obtain ⟨hq, hb⟩ := hc
    have hself : ({ q with queue := [] } : SendQueue) = q := by rw [← hq]
    rw [if_pos ⟨hq, hb⟩] at h
    cases hps : (q.compress z level).queue with
    | nil => rw [hps] at h; cases h
    | cons a ps =>
        rw [hps] at h
        cases h
        have hbuf : (q.compress z level).compressionBuffer = [] := rfl
        simp [depth, hbuf, hq, hb, hself, hps]
  · rw [if_neg hc] at h
    cases hps : q.queue with
    | nil => rw [hps] at h; cases h
    | cons a ps =>
        rw [hps] at h
        cases h
        simp only [depth, hps, List.length_cons]
        omega

end SendQueue

namespace Sender

variable (e : Env) (s : Sender)

/-- `Sender::isReadyToSend`. -/
def isReadyToSend : Bool := s.status ≠ .uninitialized ∧ e.canSend = true

/-- `Sender::empty`. -/
def empty : Bool := s.retrier.empty && s.dataQueue.empty

/-! ## Sending reliably -/

/-- `Sender::sendReliablyMultipath`. -/
def sendReliablyMultipath (now : Timepoint) (multipath : MultiPacketPath) (priority : Bool) :
    Sender :=
  let paths := multipath.setID s.packetIDGenerator.id
  { s with
    packetIDGenerator := s.packetIDGenerator.next
    retrier := s.retrier.insert s.rtt paths now priority s.packetIDGenerator.issued
    outbox := s.outbox ++ paths.toList.map fun p => ⟨p.packet, p.address, false⟩ }

/-- `Sender::sendReliably`. -/
def sendReliably (now : Timepoint) (packet : Packet) (address : Option Address := none) :
    Sender :=
  s.sendReliablyMultipath now ⟨⟨packet, address⟩, none⟩ false

/-! ## Processing the queues -/

/-- One round of the loop of `Sender::processReliableDataQueue`, and whether it
sent a packet. -/
def transmitNext : Bool × Sender :=
  if s.retrier.numUnacked < s.windowSize.size then
    match s.dataQueue.dequeue e.zlib e.options.coalesceReliable.compressionLevel with
    | (none, q) => (false, { s with dataQueue := q })
    | (some packet, q) =>
        let packet := { packet with header := { packet.header with type := .dataReliable } }
        let s : Sender := { s with dataQueue := q }
        (true, s.sendReliably e.now packet)
  else (false, s)

/-- The loop of `Sender::processReliableDataQueue`. -/
def processReliableLoop : ℕ → Sender → Sender
  | 0, s => s
  | fuel + 1, s =>
      match s.transmitNext e with
      | (true, s) => processReliableLoop fuel s
      | (false, s) => s

/-- `Sender::processReliableDataQueue`. -/
def processReliableDataQueue : Sender :=
  if s.isReadyToSend e then
    processReliableLoop e
      (s.dataQueue.depth e.zlib e.options.coalesceReliable.compressionLevel + 1) s
  else s

/-- `Sender::queueDelayedAcks`.  `delayedMS` is cut to 16 bits. -/
def queueDelayedAcks : Sender :=
  let enqueueAck (q : SendQueue) (a : DelayedAck) : SendQueue :=
    let ack : Ack := ⟨a.packetID, BitVec.ofInt 16 ((e.now - a.when).tdiv 1000000)⟩
    q.enqueue FrameTypeID.ackFrame ack.bytes .packet
  { s with
    unreliableDataQueue := s.delayedAcks.foldl enqueueAck s.unreliableDataQueue
    delayedAcks := [] }

/-- The loop of `Sender::processUnreliableDataQueue`. -/
def processUnreliableLoop : ℕ → Sender → Sender
  | 0, s => s
  | fuel + 1, s =>
      match s.unreliableDataQueue.dequeue e.zlib
          e.options.coalesceUnreliable.compressionLevel with
      | (none, q) => { s with unreliableDataQueue := q }
      | (some packet, q) =>
          let packet := { packet with header := { packet.header with type := .dataUnreliable } }
          processUnreliableLoop fuel
            { s with unreliableDataQueue := q, outbox := s.outbox ++ [⟨packet, none, false⟩] }

/-- `Sender::processUnreliableDataQueue`. -/
def processUnreliableDataQueue : Sender :=
  if s.isReadyToSend e then
    let s := s.queueDelayedAcks e
    processUnreliableLoop e
      (s.unreliableDataQueue.depth e.zlib e.options.coalesceUnreliable.compressionLevel + 1) s
  else { s with unreliableDataQueue := s.unreliableDataQueue.clear }

/-- `Sender::processDataQueue`. -/
def processDataQueue : Reliability → Sender
  | .reliable => s.processReliableDataQueue e
  | .unreliable => s.processUnreliableDataQueue e

/-- The schedule for one kind of traffic. -/
def schedule : Reliability → Schedule
  | .reliable => s.reliableSchedule
  | .unreliable => s.unreliableSchedule

/-- Replace the schedule for one kind of traffic. -/
def setSchedule (schedule : Schedule) : Reliability → Sender
  | .reliable => { s with reliableSchedule := schedule }
  | .unreliable => { s with unreliableSchedule := schedule }

/-- `Sender::scheduleDataQueueProcessing`.  Without coalescing the queue is
processed at once. -/
def scheduleDataQueueProcessing (reliability : Reliability) (immediate : Bool := false) :
    Sender :=
  let options := e.options.coalesce reliability
  if options.mode = .none then s.processDataQueue e reliability
  else
    let schedule := s.schedule reliability
    let soon := e.now + milliseconds (if immediate then 0 else options.delayMS)
    if schedule.when.all (soon < ·) then
      let schedule := { schedule with when := some soon }
      s.setSchedule
        (if schedule.running then schedule else { schedule with timeout := some soon })
        reliability
    else s

/-- `Sender::processSchedule`. -/
def processSchedule (reliability : Reliability) : Sender :=
  let schedule := s.schedule reliability
  if schedule.running then s
  else
    let s := s.setSchedule { schedule with when := none, running := true } reliability
    let s := s.processDataQueue e reliability
    let schedule := { s.schedule reliability with running := false }
    s.setSchedule
      (match schedule.when with
        | none => schedule
        | some soon => { schedule with timeout := some soon })
      reliability

/-! ## Opening, sending, closing -/

/-- `Sender::open`. -/
def «open» : Sender :=
  let s := if s.status = .uninitialized then { s with status := .open } else s
  (s.scheduleDataQueueProcessing e .reliable).scheduleDataQueueProcessing e .unreliable

/-- `Sender::enqueue`. -/
def enqueue (type : FrameTypeID) (data : Bytes) (reliability : Reliability)
    (mode : CoalesceMode) : Sender :=
  let s := match reliability with
    | .reliable => { s with dataQueue := s.dataQueue.enqueue type data mode }
    | .unreliable =>
        { s with unreliableDataQueue := s.unreliableDataQueue.enqueue type data mode }
  if s.isReadyToSend e then s.scheduleDataQueueProcessing e reliability else s

/-- `Sender::send`. -/
def send (data : Bytes) (reliability : Reliability) : ErrorCode × Sender :=
  if s.status ≠ .closed then
    let mode := (e.options.coalesce reliability).mode
    if maxPacketDataSize < data.length ∧ mode ≠ .stream ∧ mode ≠ .streamCompressed then
      (ErrorCode.packetSizeTooLarge, s)
    else (ErrorCode.ok, s.enqueue e FrameTypeID.data data reliability mode)
  else (ErrorCode.connectionClosed, s)

/-- `Sender::close`. -/
def close : Sender :=
  if s.status ≠ .closed then
    { s.enqueue e FrameTypeID.closeWrite [] .reliable .packet with status := .closed }
  else s

/-- `Sender::fail`. -/
def fail : Sender :=
  { s with
    status := .closed
    retrier := s.retrier.close
    dataQueue := s.dataQueue.close
    unreliableDataQueue := s.unreliableDataQueue.close }

/-! ## Acknowledgements and retries -/

/-- `Sender::ack`: remember to acknowledge a packet of the peer. -/
def ack (packetID : PacketID) : Sender :=
  let s : Sender := { s with delayedAcks := s.delayedAcks ++ [⟨packetID, e.now⟩] }
  s.scheduleDataQueueProcessing e .unreliable

/-- `Sender::onAck` up to the scheduling: the window, the round trip time and the
window size. -/
def acknowledge (now : Timepoint) (ack : Ack) : Sender :=
  match s.retrier.ack ack.packetID now ack.delayedMS with
  | (result, retrier) =>
      if result.contained then
        let rtt := s.rtt.onSample result.rtt
        { s with
          rtt := rtt
          windowSize := s.windowSize.onSample rtt.duration
          retrier :=
            if result.needsRetryTimeoutRecalculation then retrier.recalculateRetryTimeout rtt
            else retrier }
      else { s with retrier := retrier }

/-- `Sender::onAck`. -/
def onAck (ack : Ack) : Sender :=
  (s.acknowledge e.now ack).scheduleDataQueueProcessing e .reliable true

/-- The branch of `Retrier::onRetryTimeout` that sends a packet again. -/
def resend (now : Timepoint) (id : PacketID) (retry : Retry) : Sender :=
  let rtt := s.rtt.onAckFailure
  let retrier : Retrier :=
    { s.retrier with window := s.retrier.window.insert id (retry.again now) }
  { s with
    rtt := rtt
    windowSize := s.windowSize.onSample rtt.duration
    retrier := retrier.recalculateRetryTimeout rtt
    outbox := s.outbox ++ retry.paths.toList.map fun p => ⟨p.packet, p.address, true⟩ }

/-! ## What the operations do to the window and the queue -/

/-- The reliable queue gives a packet, and is then another. -/
def Dequeues (p : Packet) (q : SendQueue) : Prop :=
  s.dataQueue.dequeue e.zlib e.options.coalesceReliable.compressionLevel = (some p, q)

/-- The packet is sent. -/
def transmit (p : Packet) (q : SendQueue) : Sender :=
  ({ s with dataQueue := q } : Sender).sendReliably e.now
    { p with header := { p.header with type := TypeID.dataReliable } }

/-- One round of the sending loop either does nothing or moves a packet from the open
queue to the retrier. -/
theorem transmitNext_eq :
    s.transmitNext e = (false, s) ∨
      ∃ p q, s.Dequeues e p q ∧ s.transmitNext e = (true, s.transmit e p q) := by
  rw [transmitNext]
  split
  · split
    next q h =>
      left
      rw [(SendQueue.dequeue_eq_none h).1]
    next p q h => exact .inr ⟨p, q, h, rfl⟩
  · exact .inl rfl

variable {s}

@[simp] theorem dataQueue_sendReliably (now : Timepoint) (p : Packet) :
    (s.sendReliably now p).dataQueue = s.dataQueue := rfl

/-- The packet as it is sent: with the next identifier. -/
def stamp (s : Sender) (p : Packet) : Packet :=
  { p with header := { p.header with id := s.packetIDGenerator.id } }

@[simp] theorem outbox_sendReliably (now : Timepoint) (p : Packet) :
    (s.sendReliably now p).outbox = s.outbox ++ [⟨s.stamp p, none, false⟩] := rfl

/-- A packet sent reliably is outstanding under the identifier it was given. -/
theorem outstanding_sendReliably (hopen : s.retrier.status = .open)
    (hfree : s.retrier.outstanding s.packetIDGenerator.id = none) (now : Timepoint) (p : Packet)
    (k : PacketID) :
    (s.sendReliably now p).retrier.outstanding k =
      if k = s.packetIDGenerator.id then
        some (⟨⟨s.stamp p, none⟩, none⟩, s.packetIDGenerator.issued)
      else s.retrier.outstanding k := by
  have h := s.retrier.outstanding_insert s.rtt now hopen ⟨⟨s.stamp p, none⟩, none⟩ false
    s.packetIDGenerator.issued k
  have hid : (s.stamp p).header.id = s.packetIDGenerator.id := rfl
  refine Eq.trans h ?_
  dsimp only
  rw [hid]
  by_cases hk : k = s.packetIDGenerator.id
  · rw [if_pos hk, if_pos hk, hk, hfree]
    rfl
  · rw [if_neg hk, if_neg hk]

theorem retrier_status_sendReliably (now : Timepoint) (p : Packet) :
    (s.sendReliably now p).retrier.status = s.retrier.status :=
  s.retrier.status_insert s.rtt now _ _ _

/-- An acknowledgement takes its packet out of the window, and no other. -/
theorem map_window_acknowledge {α : Type*} (f : Retry → α)
    (hf : ∀ retry retryAt, f { retry with retryAt := retryAt } = f retry) (now : Timepoint)
    (a : Ack) (k : PacketID) :
    (s.acknowledge now a).retrier.window[k]?.map f =
      if k = a.packetID then none else s.retrier.window[k]?.map f := by
  have h : (s.retrier.ack a.packetID now a.delayedMS).2.window[k]?.map f =
      if k = a.packetID then none else s.retrier.window[k]?.map f := by
    rw [Retrier.window_ack]
    split <;> rfl
  unfold acknowledge
  dsimp only
  split
  · dsimp only
    split
    · rw [Retrier.map_window_recalculateRetryTimeout _ _ f hf, h]
    · exact h
  · exact h

theorem outstanding_acknowledge (now : Timepoint) (a : Ack) (k : PacketID) :
    (s.acknowledge now a).retrier.outstanding k =
      if k = a.packetID then none else s.retrier.outstanding k :=
  map_window_acknowledge _ (fun _ _ => rfl) now a k

theorem outstanding_of_acknowledge {now : Timepoint} {a : Ack} {k : PacketID}
    {entry : MultiPacketPath × ℕ} (h : (s.acknowledge now a).retrier.outstanding k = some entry) :
    s.retrier.outstanding k = some entry := by
  rw [outstanding_acknowledge] at h
  split at h
  · cases h
  · exact h

/-- An acknowledgement touches only the window and the estimates. -/
theorem acknowledge_frame (now : Timepoint) (a : Ack) :
    (s.acknowledge now a).dataQueue = s.dataQueue ∧
      (s.acknowledge now a).outbox = s.outbox ∧
      (s.acknowledge now a).packetIDGenerator = s.packetIDGenerator ∧
      (s.acknowledge now a).retrier.status = s.retrier.status := by
  unfold acknowledge
  dsimp only
  split
  · dsimp only
    split <;> simp
  · simp

/-- No acknowledgement makes the window smaller than its minimum. -/
theorem minimum_le_acknowledge (h : WindowSize.minimum ≤ s.windowSize.size) (now : Timepoint)
    (a : Ack) : WindowSize.minimum ≤ (s.acknowledge now a).windowSize.size := by
  unfold acknowledge
  dsimp only
  split
  · exact s.windowSize.minimum_le_onSample _
  · exact h

/-- Sending a packet again leaves it outstanding as it was. -/
theorem outstanding_resend {id : PacketID} {retry : Retry}
    (h : s.retrier.window[id]? = some retry) (now : Timepoint) (k : PacketID) :
    (s.resend now id retry).retrier.outstanding k = s.retrier.outstanding k := by
  unfold resend
  dsimp only
  rw [Retrier.outstanding_recalculateRetryTimeout]
  refine s.retrier.outstanding_update h ?_ ?_ k
  · rfl
  · rfl

/-- **One round of the sending loop.**  Either nothing happens, or the next stretch
of the generated frames leaves the queue in a packet sent reliably. -/
theorem transmitNext_cases {b : ℕ} (hwf : s.dataQueue.WF b) :
    s.transmitNext e = (false, s) ∨
      ∃ p q m fs, s.transmitNext e = (true, ({ s with dataQueue := q } : Sender).sendReliably
          e.now p) ∧
        p.header.type = TypeID.dataReliable ∧ p.base = b ∧ p.Carries q.generated m ∧
        q.WF (b + m) ∧ q.status = .open ∧ q.generated = s.dataQueue.generated ++ fs ∧
        p.data.length ≤ maxPacketPostFrameSize := by
  rcases transmitNext_eq e s with hrun | ⟨p, q, hq, hrun⟩
  · exact .inl hrun
  · obtain ⟨hbase, hfits, hopen, m, fs, hc, hwf', hgenerated, -⟩ := hwf.of_dequeue hq
    exact .inr ⟨_, q, m, fs, hrun, rfl, hbase, ⟨hc.le_length, hc.data⟩, hwf', hopen, hgenerated,
      hfits⟩

end Sender
end MrUDP
