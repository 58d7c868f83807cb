import MrUDP.Stream.RoundTrip

/-!
# Reliable data and unreliable traffic

A receiver gets packets of both kinds.  They share `Receiver::processReceived`: a
`DATA_COMPRESSED` frame in an unreliable packet goes into the same reassembly buffer as
one in a reliable packet, and what comes out is passed on as reliable.

If the peer never enqueues unreliable data in the mode `streamCompressed`, no unreliable
packet holds such a frame, and then the reliable data passed on does not depend on the
unreliable packets.

Packets that `SendQueue::clear` throws away are here packets that are lost.

## Main definitions

* `Reading`, `Reading.step`: a receiver and the reliable data it has passed on.
* `Traffic.UnreliableOp`: the calls on the unreliable queue.
* `FromPeer`: an unreliable packet of the peer arrives.
* `reliable_independent`: the two runs agree.
* `unreliable_passed_on`: a run in which they do not.
-/

namespace MrUDP
open Machine

/-! ## A receiver and what it passes on -/

/-- A receiver, and the data passed to `Connection::receive` as reliable. -/
structure Reading where
  receiver : Receiver := {}
  delivered : List Bytes := []

namespace Reading

/-- What happens to a receiver. -/
inductive Event
  | open
  | close
  | fail
  | receive (packet : Packet)
  deriving DecidableEq, Repr

/-- The reliable data in a list of calls. -/
def reliableData : List ReceiverCall → List Bytes
  | [] => []
  | .receive data .reliable :: calls => data :: reliableData calls
  | _ :: calls => reliableData calls

/-- `Receiver::close` and `Receiver::fail`, up to the packet that `close` sends. -/
def shut (r : Receiver) : Receiver := { r with status := .closed }

/-- Carry out the calls of the receiver. -/
def carryOut (s : Reading) (result : List ReceiverCall × Receiver) : Reading where
  receiver := if .close ∈ result.1 then shut result.2 else result.2
  delivered := s.delivered ++ reliableData result.1

/-- One event. -/
def step (z : Zlib) (s : Reading) : Event → Reading
  | .open => s.carryOut (s.receiver.open z)
  | .close | .fail => { s with receiver := shut s.receiver }
  | .receive packet => s.carryOut (s.receiver.onReceive z packet)

/-- The arrival of an unreliable packet. -/
def Event.isUnreliable : Event → Bool
  | .receive packet => packet.header.type == TypeID.dataUnreliable
  | _ => false

end Reading

/-! ## Unreliable packets without compressed frames -/

/-- A packet whose live bytes are data frames and acknowledgements. -/
def Plain (p : Packet) : Prop :=
  ∃ fs : List Frame, p.data = fs.flatMap Frame.bytes ∧ (∀ f ∈ fs, f.Fits) ∧
    ∀ f ∈ fs, f.type = FrameTypeID.data ∨ f.type = FrameTypeID.ackFrame

/-- Data frames and acknowledgements, in an unreliable packet, leave the buffer alone and
pass on nothing reliable. -/
theorem processFrames_plain (z : Zlib) (buffer : Bytes) {vs : List Visited}
    (h : ∀ v ∈ vs, v.1.type = FrameTypeID.data ∨ v.1.type = FrameTypeID.ackFrame) :
    (Receiver.processFrames z .unreliable buffer vs).2 = buffer ∧
      .close ∉ (Receiver.processFrames z .unreliable buffer vs).1 ∧
      Reading.reliableData (Receiver.processFrames z .unreliable buffer vs).1 = [] := by
  induction vs with
  | nil => simp [Receiver.processFrames, Reading.reliableData]
  | cons v vs ih =>
      obtain ⟨hbuf, hclose, hdata⟩ := ih fun w hw => h w (by simp [hw])
      rcases h v (by simp) with hv | hv
      · simp [Receiver.processFrames, Receiver.processReceived_data z .unreliable buffer hv,
          Reading.reliableData, hbuf, hclose, hdata]
      · simp [Receiver.processFrames, Receiver.processReceived_ack z .unreliable buffer hv,
          Reading.reliableData, hbuf, hclose, hdata]

/-- **The arrival of a plain unreliable packet changes nothing** that the reliable data
depends on. -/
theorem Reading.step_plain (z : Zlib) (s : Reading) {p : Packet}
    (htype : p.header.type = TypeID.dataUnreliable) (hplain : Plain p) :
    s.step z (.receive p) = s := by
  obtain ⟨fs, hdata, hfits, htypes⟩ := hplain
  have hvisits : ∀ v ∈ p.unreliableVisits,
      v.1.type = FrameTypeID.data ∨ v.1.type = FrameTypeID.ackFrame := by
    intro v hv
    rw [unreliableVisits_of_data hdata hfits] at hv
    have hmem := List.mem_map_of_mem (f := Prod.fst) hv
    rw [map_fst_layout] at hmem
    exact htypes _ hmem
  obtain ⟨hbuf, hclose, hrel⟩ := processFrames_plain z s.receiver.compressionBuffer hvisits
  have hne : TypeID.dataUnreliable ≠ TypeID.dataReliable := by decide
  have hack : requiresAck TypeID.dataUnreliable = false := by decide
  by_cases hopen : s.receiver.status = .open
  · have hrun : s.receiver.onReceive z p =
        ((Receiver.processFrames z .unreliable s.receiver.compressionBuffer
          p.unreliableVisits).1, s.receiver) := by
      rw [Receiver.onReceive, if_neg (not_not_intro hopen), htype, if_neg hne, if_pos rfl]
      simp only [hack, hbuf]
      rfl
    simp [Reading.step, hrun, carryOut, hclose, hrel]
  · simp [Reading.step, Receiver.onReceive, hopen, carryOut, reliableData]

/-! ## The peer -/

namespace Traffic

/-- The calls made on the unreliable queue. -/
inductive UnreliableOp
  /-- `Sender::send`. -/
  | send (data : Bytes) (mode : CoalesceMode)
  /-- `Sender::queueDelayedAcks`. -/
  | ack (a : Ack)
  | dequeue (level : ℤ)
  deriving DecidableEq, Repr

/-- The call as one on a send queue. -/
def UnreliableOp.toOp : UnreliableOp → Op
  | .send data mode => .enqueue FrameTypeID.data data mode
  | .ack a => .enqueue FrameTypeID.ackFrame a.bytes .packet
  | .dequeue level => .dequeue level

/-- A call on the unreliable queue. -/
def unreliableStep (z : Zlib) (t : Traffic) (op : UnreliableOp) : Traffic := t.step z op.toOp

/-- The peer's unreliable traffic after some calls. -/
def unreliable (z : Zlib) (ops : List UnreliableOp) : Traffic := run (unreliableStep z) {} ops

/-- The call does not enqueue in the mode `streamCompressed`. -/
def Uncompressed : UnreliableOp → Prop
  | .send _ mode => mode ≠ .streamCompressed
  | _ => True

instance : ∀ op, Decidable (Uncompressed op)
  | .send _ mode => inferInstanceAs (Decidable (mode ≠ .streamCompressed))
  | .ack _ | .dequeue _ => isTrue trivial

/-- Only data frames and acknowledgements were generated, and none will be from the side
buffer. -/
structure PlainTraffic (t : Traffic) : Prop where
  wf : t.WF
  buffer : t.queue.compressionBuffer = []
  types : ∀ f ∈ t.queue.generated,
    f.type = FrameTypeID.data ∨ f.type = FrameTypeID.ackFrame

variable {z : Zlib} {t : Traffic}

theorem PlainTraffic.enqueue (h : t.PlainTraffic) {type : FrameTypeID} {data : Bytes}
    {mode : CoalesceMode} (hmode : mode ≠ .streamCompressed)
    (htype : type = FrameTypeID.data ∨ type = FrameTypeID.ackFrame) :
    (t.step z (.enqueue type data mode)).PlainTraffic := by
  obtain ⟨hwf, hspec⟩ := h.wf.step z (.enqueue type data mode)
  by_cases hadm : SendQueue.Admissible data mode
  · obtain ⟨fs, henq⟩ := hspec hadm
    have hcut := henq.frames
    rw [if_neg hmode] at hcut
    refine ⟨hwf, ?_, ?_⟩
    · simp only [Traffic.step, if_pos hadm]
      rw [henq.buffer, if_neg hmode]
      exact h.buffer
    · simp only [Traffic.step, if_pos hadm]
      rw [henq.generated]
      intro f hf
      rcases List.mem_append.mp hf with hf | hf
      · exact h.types f hf
      · rw [hcut.type f hf]
        exact htype
  · simpa only [Traffic.step, if_neg hadm] using h

theorem PlainTraffic.step (h : t.PlainTraffic) {op : UnreliableOp} (hop : Uncompressed op) :
    (t.unreliableStep z op).PlainTraffic := by
  cases op with
  | send data mode => exact h.enqueue hop (Or.inl rfl)
  | ack a => exact h.enqueue (by decide) (Or.inr rfl)
  | dequeue level =>
      obtain ⟨hwf, fs, hdeq⟩ := h.wf.step z (.dequeue level)
      have hframes := hdeq.frames
      rw [if_neg (fun hc => hc.2 h.buffer)] at hframes
      obtain ⟨hbuffer, hfs⟩ := hframes
      have hgen : (t.unreliableStep z (.dequeue level)).queue.generated =
          t.queue.generated ++ fs := hdeq.generated
      rw [hfs, List.append_nil] at hgen
      refine ⟨hwf, hbuffer.trans h.buffer, ?_⟩
      rw [hgen]
      exact h.types

/-- Every packet taken out of such a queue is plain. -/
theorem PlainTraffic.plain (h : t.PlainTraffic) {p : Packet} (hp : p ∈ t.dequeued) : Plain p := by
  obtain ⟨n, hc⟩ := h.wf.packets p hp
  refine ⟨_, hc.data, ?_, ?_⟩
  · intro f hf
    exact h.wf.queue.numbered.fits (List.mem_of_mem_drop (List.mem_of_mem_take hf))
  · intro f hf
    exact h.types f (List.mem_of_mem_drop (List.mem_of_mem_take hf))

theorem plainTraffic_unreliable {ops : List UnreliableOp} (h : ∀ op ∈ ops, Uncompressed op) :
    (unreliable z ops).PlainTraffic := by
  suffices H : ∀ (ops : List UnreliableOp) (t : Traffic), t.PlainTraffic →
      (∀ op ∈ ops, Uncompressed op) → (run (unreliableStep z) t ops).PlainTraffic from
    H ops {} ⟨WF.init, rfl, by simp⟩ h
  intro ops
  induction ops with
  | nil =>
      intro t ht _
      exact ht
  | cons op ops ih =>
      intro t ht hops
      exact ih _ (ht.step (hops op (by simp))) fun x hx => hops x (by simp [hx])

end Traffic

/-! ## Two runs -/

/-- Every unreliable packet that arrives was taken out of the peer's unreliable queue.  It
may arrive any number of times and at any time; its header and the memory behind its live
bytes may be anything. -/
def FromPeer (z : Zlib) (ops : List Traffic.UnreliableOp) (es : List Reading.Event) : Prop :=
  ∀ e ∈ es, e.isUnreliable = true → ∃ p, e = .receive p ∧
    p.data ∈ (Traffic.unreliable z ops).dequeued.map Packet.data

/-- **Reliable data does not depend on unreliable packets** of a peer that enqueues none of
its unreliable data in the mode `streamCompressed`. -/
theorem reliable_independent (z z' : Zlib) (ops : List Traffic.UnreliableOp)
    (hops : ∀ op ∈ ops, Traffic.Uncompressed op) (es : List Reading.Event)
    (hes : FromPeer z' ops es) :
    (run (Reading.step z) {} es).delivered =
      (run (Reading.step z) {} (es.filter fun e => !e.isUnreliable)).delivered := by
  have hplain := Traffic.plainTraffic_unreliable (z := z') hops
  suffices H : ∀ s, run (Reading.step z) s es =
      run (Reading.step z) s (es.filter fun e => !e.isUnreliable) by rw [H]
  induction es with
  | nil =>
      intro s
      rfl
  | cons e es ih =>
      intro s
      have hrest := ih (fun x hx => hes x (by simp [hx]))
      cases hun : e.isUnreliable with
      | false => simp [hun, hrest]
      | true =>
          obtain ⟨p, rfl, hp⟩ := hes e (by simp) hun
          obtain ⟨q, hq, hdata⟩ := List.mem_map.mp hp
          have htype : p.header.type = TypeID.dataUnreliable := by
            simpa [Reading.Event.isUnreliable] using hun
          obtain ⟨fs, hfs, hrestp⟩ := hplain.plain hq
          have hstep := Reading.step_plain z s htype ⟨fs, hdata.symm.trans hfs, hrestp⟩
          simp [hun, hstep, hrest]

/-- The packets a peer sends unreliably, with the type `Sender` gives them. -/
def unreliablePackets (z : Zlib) (ops : List Traffic.UnreliableOp) : List Packet :=
  (Traffic.unreliable z ops).dequeued.map fun p =>
    { p with header := { p.header with type := TypeID.dataUnreliable } }

theorem fromPeer_unreliablePackets (z : Zlib) (ops : List Traffic.UnreliableOp)
    (es : List Reading.Event) (hes : ∀ e ∈ es, e.isUnreliable = false) :
    FromPeer z ops (es ++ (unreliablePackets z ops).map .receive) := by
  intro e he hun
  rcases List.mem_append.mp he with he | he
  · rw [hes e he] at hun
    cases hun
  · obtain ⟨p, hp, rfl⟩ := List.mem_map.mp he
    obtain ⟨q, hq, rfl⟩ := List.mem_map.mp hp
    exact ⟨_, rfl, List.mem_map.mpr ⟨q, hq, rfl⟩⟩

/-- One message and one acknowledgement, coalesced in a packet. -/
def plainOps : List Traffic.UnreliableOp := [.send [9] .packet, .ack ⟨4, 0⟩, .dequeue 0]

/-- A reliable packet, with one byte of data. -/
def reliablePacket : Packet where
  header := { type := TypeID.dataReliable }
  data := Frame.bytes ⟨0, FrameTypeID.data, [5]⟩

theorem reliable_independent_plainOps :
    (run (Reading.step Traffic.copying) {} ([.open, .receive reliablePacket] ++
        (unreliablePackets Traffic.copying plainOps).map .receive)).delivered = [[5]] :=
  (reliable_independent Traffic.copying Traffic.copying plainOps (by decide) _
    (fromPeer_unreliablePackets _ _ _ (by decide))).trans (by decide +kernel)

/-- One message, compressed. -/
def compressedOps : List Traffic.UnreliableOp := [.send [9] .streamCompressed, .dequeue 0]

/-- **An unreliable message is passed on as reliable**, which it is not in the run without
the packet. -/
theorem unreliable_passed_on :
    FromPeer Traffic.copying compressedOps
        (.open :: (unreliablePackets Traffic.copying compressedOps).map .receive) ∧
      (run (Reading.step Traffic.copying) {} (.open ::
          (unreliablePackets Traffic.copying compressedOps).map .receive)).delivered ≠
        (run (Reading.step Traffic.copying) {} ((.open ::
          (unreliablePackets Traffic.copying compressedOps).map .receive).filter
            fun e => !e.isUnreliable)).delivered :=
  ⟨fromPeer_unreliablePackets _ _ [.open] (by decide), by decide +kernel⟩

end MrUDP
