import MrUDP.Lib.Run
import MrUDP.Sender.Sender
import MrUDP.Receiver.ReceiveQueue

/-!
# One direction of an open connection

A sender, a receive queue, and between them a network that loses, duplicates and
reorders what it carries.  The sender's operations are those of
`mrudp/sender/Sender.cpp`; the receiver acknowledges every packet that asks for it
and hands reliable data to its receive queue, as `Receiver::onReceive` does while
it is open.

Any packet in the window may be retried at any time, which covers every choice of
`Retrier::onRetryTimeout`.  An acknowledgement travels as such, with the delay its
sender wrote in it.

`sent` and `processed` are ghosts: the frames of the packets transmitted so far, and
the frames passed to `ReceiveQueue::processor`.

## Main definitions

* `Link`, `Link.step`: the system and its actions.
* `Link.FreshID`: the identifier about to be given out is not in use.
* `Link.Inv R l`: the invariant, for a receiver that has got the frames in `R`.
* `Inv.send`, `Inv.deliverPacket`, `Inv.deliverAck`: the steps keep it.
-/

namespace MrUDP

/-- What the network carries. -/
inductive Datagram
  | packet (p : Packet)
  | ack (a : Ack)
  deriving DecidableEq, Repr

/-- The packet identifier a datagram is about. -/
def Datagram.id : Datagram → PacketID
  | .packet p => p.header.id
  | .ack a => a.packetID

/-- One direction of an open connection. -/
structure Link where
  sender : Sender := { status := .open }
  network : List Datagram := []
  receiveQueue : ReceiveQueue := {}
  sent : List Frame := []
  processed : List Frame := []

namespace Link

/-- What can happen. -/
inductive Action
  /-- The user sends, or the sender closes: `SendQueue::enqueue`. -/
  | enqueue (type : FrameTypeID) (data : Bytes) (mode : CoalesceMode)
  /-- One round of `Sender::processReliableDataQueue`. -/
  | transmit (e : Env)
  /-- A probe takes a packet identifier too. -/
  | probe (now : Timepoint)
  /-- A packet of the window is sent again. -/
  | retry (now : Timepoint) (id : PacketID)
  /-- The datagram at a position arrives; an acknowledgement of it is delayed. -/
  | deliver (i : ℕ) (now : Timepoint) (delayedMS : BitVec 16)
  | drop (i : ℕ)
  | duplicate (i : ℕ)

/-- The sender after an operation, with what it transmitted put on the network. -/
def flush (l : Link) (s : Sender) : Link :=
  { l with
    sender := { s with outbox := [] }
    network := l.network ++ s.outbox.map fun t => .packet t.packet }

/-- A packet arrives at an open receiver. -/
def receive (l : Link) (p : Packet) (delayedMS : BitVec 16) : Link :=
  let l := if requiresAck p.header.type then
    { l with network := l.network ++ [.ack ⟨p.header.id, delayedMS⟩] } else l
  if p.header.type = TypeID.dataReliable then
    { l with
      receiveQueue := (l.receiveQueue.onReceive p).2
      processed := l.processed ++ (l.receiveQueue.onReceive p).1.map Prod.fst }
  else l

/-- The system takes a step. -/
def step (l : Link) : Action → Link
  | .enqueue type data mode =>
      if SendQueue.Admissible data mode then
        { l with sender := { l.sender with
            dataQueue := l.sender.dataQueue.enqueue type data mode } }
      else l
  | .transmit e =>
      let s := (l.sender.transmitNext e).2
      { l.flush s with sent := l.sent ++ s.outbox.flatMap fun t => t.packet.frames }
  | .probe now => l.flush (l.sender.sendReliably now { header := { type := TypeID.probe } })
  | .retry now id =>
      match l.sender.retrier.window[id]? with
      | none => l
      | some retry => l.flush (l.sender.resend now id retry)
  | .deliver i now delayedMS =>
      match l.network[i]? with
      | none => l
      | some (.packet p) =>
          { l with network := l.network.eraseIdx i }.receive p delayedMS
      | some (.ack a) =>
          { l with
            network := l.network.eraseIdx i
            sender := l.sender.acknowledge now a }
  | .drop i => { l with network := l.network.eraseIdx i }
  | .duplicate i => { l with network := l.network ++ l.network[i]?.toList }

/-- The identifier the next reliable packet gets is neither outstanding nor in
flight, on a packet or on an acknowledgement. -/
def FreshID (l : Link) : Prop :=
  l.sender.retrier.outstanding l.sender.packetIDGenerator.id = none ∧
    ∀ d ∈ l.network, d.id ≠ l.sender.packetIDGenerator.id

instance (l : Link) : Decidable l.FreshID := inferInstanceAs (Decidable (_ ∧ _))

/-- No packet identifier is given out while it is in use. -/
def KeepsIDs (l : Link) : Action → Prop
  | .transmit e => (l.sender.transmitNext e).1 = true → l.FreshID
  | .probe _ => l.FreshID
  | _ => True

instance (l : Link) : ∀ a, Decidable (l.KeepsIDs a)
  | .transmit _ => inferInstanceAs (Decidable (_ → _))
  | .probe _ => inferInstanceAs (Decidable l.FreshID)
  | .enqueue .. | .retry .. | .deliver .. | .drop .. | .duplicate .. => isTrue trivial

/-! ## The invariant -/

/-- A data packet carries a stretch of the transmitted frames. -/
structure Placed (g : List Frame) (b : ℕ) (p : Packet) : Prop where
  carries : p.Carries g p.frames.length
  le : p.base + p.frames.length ≤ b

theorem Placed.mono {g : List Frame} {b b' : ℕ} {p : Packet} (h : Placed g b p)
    (tail : List Frame) (hb : b ≤ b') : Placed (g ++ tail) b' p :=
  ⟨h.carries.mono tail, h.le.trans hb⟩

/-- The data packet waiting in the window under an identifier. -/
def Waiting (l : Link) (k : PacketID) (p : Packet) : Prop :=
  ∃ serial, l.sender.retrier.outstanding k = some (⟨⟨p, none⟩, none⟩, serial)

/-- The frame with index `i` is in a data packet of the window. -/
def InWindow (l : Link) (i : ℕ) : Prop :=
  ∃ k p, l.Waiting k p ∧ p.header.type = TypeID.dataReliable ∧
    p.base ≤ i ∧ i < p.base + p.frames.length

/-- The invariant of a link whose receiver has got the frames in `R`.  A packet in
flight is the one outstanding under its identifier, if there is one, and an
acknowledgement in flight is only for frames the receiver has. -/
structure Inv (R : ℕ → Prop) (l : Link) : Prop where
  queueOpen : l.sender.dataQueue.status = .open
  retrierOpen : l.sender.retrier.status = .open
  flushed : l.sender.outbox = []
  wf : l.sender.dataQueue.WF l.sent.length
  sent : l.sent = l.sender.dataQueue.generated.take l.sent.length
  window : ∀ k x, l.sender.retrier.outstanding k = some x → ∃ p, x.1 = ⟨⟨p, none⟩, none⟩ ∧
    p.header.id = k ∧ (p.header.type = TypeID.dataReliable →
      Placed l.sender.dataQueue.generated l.sent.length p)
  flight : ∀ p, .packet p ∈ l.network →
    (p.header.type = TypeID.dataReliable →
      Placed l.sender.dataQueue.generated l.sent.length p) ∧
    ∀ p', l.Waiting p.header.id p' → p' = p
  acked : ∀ a, .ack a ∈ l.network → ∀ p, l.Waiting a.packetID p →
    p.header.type = TypeID.dataReliable → ∀ j < p.frames.length, R (p.base + j)
  covered : ∀ i < l.sent.length, l.InWindow i ∨ R i

variable {R R' : ℕ → Prop} {l : Link}

theorem Inv.init : Inv R {} where
  queueOpen := rfl
  retrierOpen := rfl
  flushed := rfl
  wf := SendQueue.WF.init
  sent := rfl
  window := by intro k x h; simp [Retrier.outstanding] at h
  flight := by intro p h; cases h
  acked := by intro a h; cases h
  covered := by intro i h; cases h

/-- The receiver may get more frames. -/
theorem Inv.mono (h : Inv R l) (hR : ∀ i < l.sent.length, R i → R' i) : Inv R' l where
  __ := h
  acked := by
    intro a ha p hp htype j hj
    obtain ⟨serial, hout⟩ := hp
    obtain ⟨p', heq, _, hplaced⟩ := h.window _ _ hout
    cases heq
    have hle := (hplaced htype).le
    exact hR _ (by omega) (h.acked a ha p ⟨serial, hout⟩ htype j hj)
  covered := by
    intro i hi
    rcases h.covered i hi with hw | hr
    · exact Or.inl hw
    · exact Or.inr (hR i hi hr)

/-- The receiver's own state is not part of the invariant, and the network may
lose and duplicate. -/
theorem Inv.network (h : Inv R l) {l' : Link} (hsender : l'.sender = l.sender)
    (hsent : l'.sent = l.sent) (hsub : ∀ d ∈ l'.network, d ∈ l.network) : Inv R l' where
  queueOpen := by rw [hsender]; exact h.queueOpen
  retrierOpen := by rw [hsender]; exact h.retrierOpen
  flushed := by rw [hsender]; exact h.flushed
  wf := by rw [hsender, hsent]; exact h.wf
  sent := by rw [hsender, hsent]; exact h.sent
  window := by rw [hsender, hsent]; exact h.window
  flight := by
    intro p hp
    simp only [Waiting, hsender, hsent]
    exact h.flight p (hsub _ hp)
  acked := by
    intro a ha
    simp only [Waiting, hsender]
    exact h.acked a (hsub _ ha)
  covered := by
    simp only [InWindow, Waiting, hsender, hsent]
    exact h.covered

/-- More messages may be generated. -/
theorem Inv.enqueue (h : Inv R l) (type : FrameTypeID) {data : Bytes} {mode : CoalesceMode}
    (hadm : SendQueue.Admissible data mode) : Inv R (l.step (.enqueue type data mode)) := by
  obtain ⟨hwf, fs, henq⟩ := h.wf.enqueue h.queueOpen hadm
  have hlen : l.sent.length ≤ l.sender.dataQueue.generated.length := h.wf.chain.le_length
  rw [step, if_pos hadm]
  refine ⟨henq.status.trans h.queueOpen, h.retrierOpen, h.flushed, hwf, ?_, ?_, ?_, h.acked,
    h.covered⟩
  · show l.sent = (l.sender.dataQueue.enqueue type data mode).generated.take _
    rw [henq.generated, List.take_append_of_le_length hlen]
    exact h.sent
  · intro k x hx
    obtain ⟨p, hp, hid, hplaced⟩ := h.window k x hx
    refine ⟨p, hp, hid, fun ht => ?_⟩
    show Placed (l.sender.dataQueue.enqueue type data mode).generated _ _
    rw [henq.generated]
    exact (hplaced ht).mono fs le_rfl
  · intro p hp
    refine ⟨fun ht => ?_, (h.flight p hp).2⟩
    show Placed (l.sender.dataQueue.enqueue type data mode).generated _ _
    rw [henq.generated]
    exact ((h.flight p hp).1 ht).mono fs le_rfl

/-! ## Sending -/

/-- The link after a packet was sent reliably from a queue that is now `q`, with `m`
more frames transmitted. -/
def afterSend (l : Link) (now : Timepoint) (q : SendQueue) (p : Packet) (m : ℕ) : Link :=
  { l.flush (({ l.sender with dataQueue := q } : Sender).sendReliably now p) with
    sent := l.sent ++ (q.generated.drop l.sent.length).take m }

section
variable {q : SendQueue} {p : Packet} {m : ℕ}

theorem outstanding_afterSend (h : Inv R l) (hfresh : l.FreshID) (now : Timepoint) (k : PacketID) :
    (l.afterSend now q p m).sender.retrier.outstanding k =
      if k = l.sender.packetIDGenerator.id then
        some (⟨⟨l.sender.stamp p, none⟩, none⟩, l.sender.packetIDGenerator.issued)
      else l.sender.retrier.outstanding k :=
  Sender.outstanding_sendReliably (s := { l.sender with dataQueue := q }) h.retrierOpen hfresh.1
    now p k

/-- What waits in the window once a packet was sent under a fresh identifier. -/
theorem waiting_afterSend (h : Inv R l) (hfresh : l.FreshID) (now : Timepoint) (k : PacketID)
    (x : Packet) :
    (l.afterSend now q p m).Waiting k x ↔
      (k = l.sender.packetIDGenerator.id ∧ x = l.sender.stamp p) ∨
        (k ≠ l.sender.packetIDGenerator.id ∧ l.Waiting k x) := by
  rw [Waiting, outstanding_afterSend h hfresh]
  by_cases hk : k = l.sender.packetIDGenerator.id
  · simp [hk, eq_comm]
  · simp [Waiting, hk]

theorem length_sent_afterSend (now : Timepoint) (p : Packet) (hwf : q.WF (l.sent.length + m)) :
    (l.afterSend now q p m).sent.length = l.sent.length + m := by
  have hle := hwf.chain.le_length
  simp only [afterSend, List.length_append, List.length_take, List.length_drop]
  omega

/-- A data packet carries the frames behind those that were sent. -/
theorem placed_stamp (hwf : q.WF (l.sent.length + m)) (hbase : p.base = l.sent.length)
    (hc : p.Carries q.generated m) :
    Placed q.generated (l.sent.length + m) (l.sender.stamp p) ∧
      (l.sender.stamp p).frames.length = m := by
  have hc' : (l.sender.stamp p).Carries q.generated m := ⟨hc.le_length, hc.data⟩
  have hm := hc'.length_frames hwf.numbered
  refine ⟨⟨by rw [hm]; exact hc', ?_⟩, hm⟩
  have hbase' : (l.sender.stamp p).base = l.sent.length := hbase
  omega

/-- Every frame that was sent is in the window, or the receiver has it. -/
theorem Inv.covered_afterSend (h : Inv R l) (hfresh : l.FreshID) (now : Timepoint)
    (hwf : q.WF (l.sent.length + m))
    (hdata : p.header.type = TypeID.dataReliable →
      p.base = l.sent.length ∧ p.Carries q.generated m)
    (hother : p.header.type ≠ TypeID.dataReliable → m = 0) {i : ℕ} (hi : i < l.sent.length + m) :
    (l.afterSend now q p m).InWindow i ∨ R i := by
  have hwaiting := @waiting_afterSend R l q p m h hfresh now
  by_cases hi' : i < l.sent.length
  · rcases h.covered i hi' with ⟨k, x, hw, ht, hx⟩ | hr
    · refine Or.inl ⟨k, x, (hwaiting k x).mpr (Or.inr ⟨?_, hw⟩), ht, hx⟩
      rintro rfl
      obtain ⟨serial, hserial⟩ := hw
      exact absurd (hfresh.1.symm.trans hserial) (by simp)
    · exact Or.inr hr
  · -- A new frame is in the packet just sent, which therefore is a data packet.
    have ht : p.header.type = TypeID.dataReliable := by
      by_contra hne
      have := hother hne
      omega
    obtain ⟨hbase, hc⟩ := hdata ht
    have hm := (placed_stamp hwf hbase hc).2
    have hbase' : (l.sender.stamp p).base = l.sent.length := hbase
    exact Or.inl ⟨_, l.sender.stamp p, (hwaiting _ _).mpr (Or.inl ⟨rfl, rfl⟩), ht, by omega⟩

/-- **Sending a packet** under a fresh identifier keeps the invariant.  A data packet
carries the next `m` generated frames; any other packet carries none. -/
theorem Inv.send (h : Inv R l) (hfresh : l.FreshID) {fs : List Frame} (now : Timepoint)
    (hwf : q.WF (l.sent.length + m)) (hopen : q.status = .open)
    (hgen : q.generated = l.sender.dataQueue.generated ++ fs)
    (hdata : p.header.type = TypeID.dataReliable →
      p.base = l.sent.length ∧ p.Carries q.generated m)
    (hother : p.header.type ≠ TypeID.dataReliable → m = 0) :
    Inv R (l.afterSend now q p m) := by
  have hwaiting := @waiting_afterSend R l q p m h hfresh now
  have hlen := length_sent_afterSend now p hwf
  have hplaced : p.header.type = TypeID.dataReliable →
      Placed q.generated (l.sent.length + m) (l.sender.stamp p) :=
    fun ht => (placed_stamp hwf (hdata ht).1 (hdata ht).2).1
  have hkeep : ∀ {x : Packet}, Placed l.sender.dataQueue.generated l.sent.length x →
      Placed q.generated (l.sent.length + m) x := by
    intro x hx
    rw [hgen]
    exact hx.mono fs (by omega)
  refine ⟨hopen, ?_, rfl, by rw [hlen]; exact hwf, ?_, ?_, ?_, ?_, ?_⟩
  · exact (Sender.retrier_status_sendReliably now p).trans h.retrierOpen
  · rw [hlen]
    show l.sent ++ _ = q.generated.take _
    have hprefix : q.generated.take l.sent.length = l.sent := by
      rw [hgen, List.take_append_of_le_length h.wf.chain.le_length]
      exact h.sent.symm
    rw [List.take_add, hprefix]
  · intro k x hx
    rw [hlen]
    rw [outstanding_afterSend h hfresh] at hx
    split at hx
    next hk =>
      cases hx
      exact ⟨l.sender.stamp p, rfl, hk.symm, hplaced⟩
    · obtain ⟨p', hp', hid, hpl⟩ := h.window k x hx
      exact ⟨p', hp', hid, fun ht => hkeep (hpl ht)⟩
  · intro x hx
    rw [hlen]
    rcases List.mem_append.mp hx with hx | hx
    · -- A packet already in flight has another identifier.
      have hne := hfresh.2 _ hx
      refine ⟨fun ht => hkeep ((h.flight x hx).1 ht), fun p' hp' => ?_⟩
      rcases (hwaiting _ _).mp hp' with ⟨hid, _⟩ | ⟨_, hw⟩
      · exact absurd hid hne
      · exact (h.flight x hx).2 p' hw
    · have hx' : x = l.sender.stamp p := by
        simpa [Sender.outbox_sendReliably, h.flushed, Sender.stamp] using hx
      subst hx'
      refine ⟨hplaced, fun p' hp' => ?_⟩
      rcases (hwaiting _ _).mp hp' with ⟨_, heq⟩ | ⟨hne, _⟩
      · exact heq
      · exact absurd rfl hne
  · intro a ha x hx ht j hj
    have ha' : .ack a ∈ l.network := by
      rcases List.mem_append.mp ha with ha | ha
      · exact ha
      · simp at ha
    rcases (hwaiting _ _).mp hx with ⟨hid, _⟩ | ⟨_, hw⟩
    · exact absurd hid (hfresh.2 _ ha')
    · exact h.acked a ha' x hw ht j hj
  · intro i hi
    rw [hlen] at hi
    exact h.covered_afterSend hfresh now hwf hdata hother hi

end

/-- A round of the sending loop that found a packet, as a packet sent from the queue. -/
theorem Inv.step_transmit (h : Inv R l) {e : Env} {p : Packet} {q : SendQueue} {m : ℕ}
    (hrun : l.sender.transmitNext e =
      (true, ({ l.sender with dataQueue := q } : Sender).sendReliably e.now p))
    (hbase : p.base = l.sent.length) (hc : p.Carries q.generated m)
    (hwf : q.WF (l.sent.length + m)) :
    l.step (.transmit e) = l.afterSend e.now q p m := by
  have hframes : (l.sender.stamp p).frames = (q.generated.drop l.sent.length).take m := by
    have hc' : (l.sender.stamp p).Carries q.generated m := ⟨hc.le_length, hc.data⟩
    have hbase' : (l.sender.stamp p).base = l.sent.length := hbase
    rw [hc'.frames_eq hwf.numbered, hbase']
  simp only [step, hrun, afterSend, Sender.outbox_sendReliably, h.flushed, ← hframes]
  simp [Sender.stamp]

/-- One round of the sending loop keeps the invariant. -/
theorem Inv.transmit (h : Inv R l) (e : Env) (hids : l.KeepsIDs (.transmit e)) :
    Inv R (l.step (.transmit e)) := by
  rcases Sender.transmitNext_cases e h.wf with
    hrun | ⟨p, q, m, fs, hrun, htype, hbase, hc, hwf, hopen, hgen, -⟩
  · refine h.network ?_ ?_ ?_
    · simp [step, hrun, flush, ← h.flushed]
    · simp [step, hrun, h.flushed]
    · simp [step, hrun, flush, h.flushed]
  · rw [h.step_transmit hrun hbase hc hwf]
    exact h.send (hids (by rw [hrun])) e.now hwf hopen hgen (fun _ => ⟨hbase, hc⟩)
      (fun hne => absurd htype hne)

/-- A probe keeps the invariant. -/
theorem Inv.probe (h : Inv R l) (now : Timepoint) (hfresh : l.FreshID) :
    Inv R (l.step (.probe now)) := by
  have hsend := h.send hfresh (q := l.sender.dataQueue)
    (p := { header := { type := TypeID.probe } }) (m := 0) now (by simpa using h.wf)
    h.queueOpen (List.append_nil _).symm (fun ht => absurd ht (by decide)) (fun _ => rfl)
  refine hsend.network rfl ?_ ?_
  · simp [afterSend, step, flush]
  · intro d hd
    exact hd

/-- Sending a packet of the window again keeps the invariant. -/
theorem Inv.retry (h : Inv R l) (now : Timepoint) (id : PacketID) :
    Inv R (l.step (.retry now id)) := by
  cases hget : l.sender.retrier.window[id]? with
  | none => simpa [step, hget] using h
  | some retry =>
      have hout : ∀ k, (l.step (.retry now id)).sender.retrier.outstanding k =
          l.sender.retrier.outstanding k := by
        intro k
        simp only [step, hget]
        exact Sender.outstanding_resend hget now k
      have hself : l.sender.retrier.outstanding id = some (retry.paths, retry.serial) := by
        simp [Retrier.outstanding, hget]
      obtain ⟨p, hpaths, hid, hplaced⟩ := h.window _ _ hself
      have hpaths : retry.paths = ⟨⟨p, none⟩, none⟩ := hpaths
      have hnet : (l.step (.retry now id)).network = l.network ++ [.packet p] := by
        simp [step, hget, flush, Sender.resend, h.flushed, hpaths, MultiPacketPath.toList]
      have hsender : (l.step (.retry now id)).sender.dataQueue = l.sender.dataQueue := by
        simp [step, hget, flush, Sender.resend]
      have hsent : (l.step (.retry now id)).sent = l.sent := by simp [step, hget, flush]
      refine ⟨by rw [hsender]; exact h.queueOpen, ?_, ?_, by rw [hsender, hsent]; exact h.wf,
        by rw [hsender, hsent]; exact h.sent, ?_, ?_, ?_, ?_⟩
      · simpa [step, hget, flush, Sender.resend] using h.retrierOpen
      · simp [step, hget, flush]
      · simp only [hout, hsender, hsent]
        exact h.window
      · intro x hx
        simp only [Waiting, hout, hsender, hsent]
        rw [hnet] at hx
        rcases List.mem_append.mp hx with hx | hx
        · exact h.flight x hx
        · have hx' : x = p := by simpa using hx
          subst hx'
          refine ⟨hplaced, fun p' hp' => ?_⟩
          obtain ⟨serial, hserial⟩ := hp'
          rw [hid, hself] at hserial
          simp [hpaths] at hserial
          exact hserial.1.symm
      · intro a ha
        simp only [Waiting, hout]
        rw [hnet] at ha
        have ha' : .ack a ∈ l.network := by simpa using ha
        exact h.acked a ha'
      · simp only [InWindow, Waiting, hout, hsent]
        exact h.covered

/-! ## Arrivals -/

/-- A packet that was in flight arrives.  If it is a data packet, the receiver then
has its frames. -/
theorem Inv.receive (h : Inv R l) (l₀ : Link) {p : Packet} (hp : .packet p ∈ l.network)
    (hl₀ : l₀.sender = l.sender ∧ l₀.sent = l.sent ∧ ∀ d ∈ l₀.network, d ∈ l.network)
    (delayedMS : BitVec 16) (hR : ∀ i < l.sent.length, R i → R' i)
    (hgot : p.header.type = TypeID.dataReliable → ∀ j < p.frames.length, R' (p.base + j)) :
    Inv R' (l₀.receive p delayedMS) := by
  obtain ⟨hsender, hsent, hsub⟩ := hl₀
  have hold := h.mono hR
  have hs : (l₀.receive p delayedMS).sender = l.sender := by
    unfold Link.receive
    split <;> split <;> exact hsender
  have ht : (l₀.receive p delayedMS).sent = l.sent := by
    unfold Link.receive
    split <;> split <;> exact hsent
  have hnet : ∀ d ∈ (l₀.receive p delayedMS).network,
      d ∈ l.network ∨ d = .ack ⟨p.header.id, delayedMS⟩ := by
    intro d hd
    have hd' : d ∈ l₀.network ∨ d = .ack ⟨p.header.id, delayedMS⟩ := by
      unfold Link.receive at hd
      split at hd <;> split at hd <;> simp at hd <;> tauto
    exact hd'.imp (hsub d) id
  refine ⟨by rw [hs]; exact h.queueOpen, by rw [hs]; exact h.retrierOpen,
    by rw [hs]; exact h.flushed, by rw [hs, ht]; exact h.wf, by rw [hs, ht]; exact h.sent,
    by rw [hs, ht]; exact h.window, ?_, ?_, ?_⟩
  · intro x hx
    simp only [Waiting, hs, ht]
    rcases hnet _ hx with hx | hx
    · exact h.flight x hx
    · cases hx
  · intro a ha x hx htype j hj
    simp only [Waiting, hs] at hx
    rcases hnet _ ha with ha | ha
    · exact hold.acked a ha x hx htype j hj
    · -- The new acknowledgement: what waits under its identifier is this packet.
      cases ha
      have hxp := (h.flight p hp).2 x hx
      subst hxp
      exact hgot htype j hj
  · simp only [InWindow, Waiting, hs, ht]
    exact hold.covered

/-- An acknowledgement that was in flight arrives. -/
theorem Inv.acknowledge (h : Inv R l) {a : Ack} (ha : .ack a ∈ l.network) (now : Timepoint)
    {net : List Datagram} (hsub : ∀ d ∈ net, d ∈ l.network) :
    Inv R { l with network := net, sender := l.sender.acknowledge now a } := by
  have hout := Sender.outstanding_acknowledge (s := l.sender) now a
  obtain ⟨hqueue, houtbox, -, hstatus⟩ := Sender.acknowledge_frame (s := l.sender) now a
  -- What still waits was waiting before.
  have hwaiting : ∀ {k x}, Waiting { l with network := net
                                            sender := l.sender.acknowledge now a } k x →
      k ≠ a.packetID ∧ l.Waiting k x := by
    rintro k x ⟨serial, hserial⟩
    have hserial := (hout k).symm.trans hserial
    by_cases hk : k = a.packetID
    · simp [hk] at hserial
    · rw [if_neg hk] at hserial
      exact ⟨hk, serial, hserial⟩
  refine ⟨by rw [hqueue]; exact h.queueOpen, by rw [hstatus]; exact h.retrierOpen,
    by rw [houtbox]; exact h.flushed, by rw [hqueue]; exact h.wf, by rw [hqueue]; exact h.sent,
    ?_, ?_, ?_, ?_⟩
  · intro k x hx
    have hx := (hout k).symm.trans hx
    split at hx
    · cases hx
    · rw [hqueue]
      exact h.window k x hx
  · intro x hx
    rw [hqueue]
    exact ⟨(h.flight x (hsub _ hx)).1, fun p' hp' => (h.flight x (hsub _ hx)).2 p'
      (hwaiting hp').2⟩
  · intro a' ha' x hx
    exact h.acked a' (hsub _ ha') x (hwaiting hx).2
  · intro i hi
    rcases h.covered i hi with ⟨k, x, hw, htype, hlo, hhi⟩ | hr
    · by_cases hk : k = a.packetID
      · -- Its packet leaves the window, but the receiver has its frames.
        subst hk
        have := h.acked a ha x hw htype (i - x.base) (by omega)
        rw [Nat.add_sub_cancel' hlo] at this
        exact Or.inr this
      · obtain ⟨serial, hserial⟩ := hw
        exact Or.inl ⟨k, x, ⟨serial, ((hout k).trans (if_neg hk)).trans hserial⟩, htype, hlo,
          hhi⟩
    · exact Or.inr hr

/-! ## Every step -/

/-- The packet an action hands to the receiver. -/
def arriving (l : Link) : Action → Option Packet
  | .deliver i _ _ =>
      match l.network[i]? with
      | some (.packet p) => some p
      | _ => none
  | _ => none

theorem arriving_eq_some {a : Action} {p : Packet} (h : l.arriving a = some p) :
    ∃ i now delayedMS, a = .deliver i now delayedMS ∧ l.network[i]? = some (.packet p) := by
  cases a with
  | deliver i now delayedMS =>
      refine ⟨i, now, delayedMS, rfl, ?_⟩
      cases hget : l.network[i]? with
      | none => simp [arriving, hget] at h
      | some d =>
          cases d with
          | packet p' => simpa [arriving, hget] using h
          | ack a => simp [arriving, hget] at h
  | _ => cases h

/-- A data packet goes through the receive queue. -/
theorem receiver_of_arriving {a : Action} {p : Packet} (h : l.arriving a = some p)
    (htype : p.header.type = TypeID.dataReliable) :
    (l.step a).receiveQueue = (l.receiveQueue.onReceive p).2 ∧
      (l.step a).processed = l.processed ++ (l.receiveQueue.onReceive p).1.map Prod.fst := by
  obtain ⟨i, now, delayedMS, rfl, hget⟩ := arriving_eq_some h
  have hack : requiresAck TypeID.dataReliable = true := by decide
  simp [step, hget, Link.receive, htype, hack]

/-- No other step touches the receive queue. -/
theorem receiver_of_not_arriving {a : Action}
    (h : ∀ p, l.arriving a = some p → p.header.type ≠ TypeID.dataReliable) :
    (l.step a).receiveQueue = l.receiveQueue ∧ (l.step a).processed = l.processed := by
  cases a with
  | enqueue type data mode =>
      simp only [step]
      split <;> exact ⟨rfl, rfl⟩
  | transmit e => exact ⟨rfl, rfl⟩
  | probe now => exact ⟨rfl, rfl⟩
  | retry now id =>
      simp only [step]
      split <;> exact ⟨rfl, rfl⟩
  | deliver i now delayedMS =>
      cases hget : l.network[i]? with
      | none => simp [step, hget]
      | some d =>
          cases d with
          | packet p =>
              have htype := h p (by simp [arriving, hget])
              by_cases hack : requiresAck p.header.type = true <;>
                simp [step, hget, Link.receive, htype, hack]
          | ack a => simp [step, hget]
  | drop i => exact ⟨rfl, rfl⟩
  | duplicate i => exact ⟨rfl, rfl⟩

/-- **The step lemma of the link.**  A step that gives out no identifier in use keeps
the invariant, provided the receiver keeps what it has and gets the frames of a data
packet that arrives. -/
theorem Inv.step (h : Inv R l) {a : Action} (hids : l.KeepsIDs a)
    (hR : ∀ i < l.sent.length, R i → R' i)
    (hgot : ∀ p, l.arriving a = some p → p.header.type = TypeID.dataReliable →
      ∀ j < p.frames.length, R' (p.base + j))
    (hsame : l.arriving a = none → R' = R) : Inv R' (l.step a) := by
  cases a with
  | enqueue type data mode =>
      rw [hsame rfl]
      by_cases hadm : SendQueue.Admissible data mode
      · exact h.enqueue type hadm
      · simpa [Link.step, hadm] using h
  | transmit e => rw [hsame rfl]; exact h.transmit e hids
  | probe now => rw [hsame rfl]; exact h.probe now hids
  | retry now id => rw [hsame rfl]; exact h.retry now id
  | deliver i now delayedMS =>
      have hsub : ∀ d ∈ l.network.eraseIdx i, d ∈ l.network :=
        fun d hd => (List.eraseIdx_sublist _ _).subset hd
      cases hget : l.network[i]? with
      | none => simpa [Link.step, hget] using h.mono hR
      | some d =>
          have hmem := List.mem_of_getElem? hget
          cases d with
          | packet p =>
              have hrec := h.receive { l with network := l.network.eraseIdx i } hmem
                ⟨rfl, rfl, hsub⟩ delayedMS hR (hgot p (by simp [arriving, hget]))
              simpa [Link.step, hget] using hrec
          | ack a =>
              have hack := (h.mono hR).acknowledge hmem now hsub
              simpa [Link.step, hget] using hack
  | drop i =>
      rw [hsame rfl]
      exact h.network rfl rfl fun d hd => (List.eraseIdx_sublist _ _).subset hd
  | duplicate i =>
      rw [hsame rfl]
      refine h.network rfl rfl fun d hd => ?_
      rcases List.mem_append.mp hd with hd | hd
      · exact hd
      · exact List.mem_of_getElem? (Option.mem_toList.mp hd)

/-- Generated frames are never taken back. -/
theorem Inv.generated_step (h : Inv R l) (a : Action) :
    ∃ fs, (l.step a).sender.dataQueue.generated = l.sender.dataQueue.generated ++ fs := by
  cases a with
  | enqueue type data mode =>
      by_cases hadm : SendQueue.Admissible data mode
      · obtain ⟨fs, henq⟩ : ∃ fs, SendQueue.Enqueues l.sender.dataQueue type data mode fs :=
          (h.wf.enqueue h.queueOpen hadm).2
        exact ⟨fs, by simpa [Link.step, hadm] using henq.generated⟩
      · exact ⟨[], by simp [Link.step, hadm]⟩
  | transmit e =>
      rcases Sender.transmitNext_cases e h.wf with
        hrun | ⟨p, q, m, fs, hrun, -, -, -, -, -, hgen, -⟩
      · exact ⟨[], by simp [Link.step, hrun, flush]⟩
      · exact ⟨fs, by simpa [Link.step, hrun, flush] using hgen⟩
  | probe now => exact ⟨[], (List.append_nil _).symm⟩
  | retry now id =>
      refine ⟨[], ?_⟩
      simp only [Link.step]
      split <;> simp [flush, Sender.resend]
  | deliver i now delayedMS =>
      refine ⟨[], ?_⟩
      cases hget : l.network[i]? with
      | none => simp [Link.step, hget]
      | some d =>
          cases d with
          | packet p =>
              simp only [Link.step, hget, Link.receive]
              split <;> split <;> simp
          | ack a =>
              simp only [Link.step, hget, Sender.acknowledge, List.append_nil]
              split <;> rfl
  | drop i => exact ⟨[], (List.append_nil _).symm⟩
  | duplicate i => exact ⟨[], (List.append_nil _).symm⟩

end Link
end MrUDP
