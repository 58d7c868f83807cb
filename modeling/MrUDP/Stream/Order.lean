import MrUDP.Sender.Packing
import MrUDP.Stream.RoundTrip

/-!
# The order of the reliable stream

The reliable send queue is filled by `Sender::send`, in whatever mode the options say,
and by `Sender::close`.  Messages in the mode `streamCompressed` wait in a side buffer
that becomes frames only when no packet waits.  A message in another mode, or the
`CLOSE_WRITE` of a close, goes straight to the packets and so overtakes what is in the
side buffer.

The stream is in order if nothing is put behind a side buffer that is not empty, and if no
more is streamed at once than the offset of `SendQueue::coalesceStream` can count.

## Main definitions

* `Atom`, `callAtoms`, `messageAtoms`: what the two ends see.
* `Traffic.ReliableOp`: the calls on the reliable queue.
* `Traffic.checkedStep`: the same, with the offset.
* `Traffic.InOrder`: the condition on a call.
* `stream_in_order`: under it, the stream is in order.
* `close_overtakes`: a close that overtakes data.
-/

namespace MrUDP
open Machine

/-- A byte of the stream, or its end. -/
inductive Atom
  | byte (b : UInt8)
  | closeWrite
  deriving DecidableEq, Repr

/-- What a call of the receiver adds to the stream. -/
def callAtoms : ReceiverCall → List Atom
  | .receive data _ => data.map .byte
  | .close => [.closeWrite]
  | .ack _ | .onAck _ => []

/-- What a message adds to the stream. -/
def messageAtoms (m : FrameTypeID × Bytes) : List Atom :=
  if m.1 = FrameTypeID.closeWrite then [.closeWrite] else m.2.map .byte

/-- Data frames are passed on one by one. -/
theorem frameCalls_data (z : Zlib) (buffer : Bytes) {fs : List Frame}
    (h : ∀ f ∈ fs, f.type = FrameTypeID.data) :
    frameCalls z buffer fs = (fs.map fun f => .receive f.data .reliable, buffer) := by
  induction fs with
  | nil => rfl
  | cons f fs ih =>
      have hf := Receiver.processReceived_data z .reliable buffer (v := (f, [])) (h f (by simp))
      have hrest := ih fun g hg => h g (by simp [hg])
      simp only [frameCalls] at hrest
      simp only [frameCalls, List.map_cons, Receiver.processFrames, hf, hrest]
      rfl

/-- Data cut over frames adds its bytes, in order. -/
theorem flatMap_callAtoms_data (fs : List Frame) :
    (fs.map fun f => ReceiverCall.receive f.data .reliable).flatMap callAtoms =
      (fs.flatMap Frame.data).map .byte := by
  induction fs with
  | nil => rfl
  | cons f fs ih => simp [callAtoms, ih]

namespace Traffic

/-- The calls made on the reliable queue. -/
inductive ReliableOp
  /-- `Sender::send`. -/
  | send (data : Bytes) (mode : CoalesceMode)
  /-- `Sender::close`. -/
  | close
  | dequeue (level : ℤ)
  deriving DecidableEq, Repr

/-- The call as one on a send queue. -/
def ReliableOp.toOp : ReliableOp → Op
  | .send data mode => .enqueue FrameTypeID.data data mode
  | .close => .enqueue FrameTypeID.closeWrite [] .packet
  | .dequeue level => .dequeue level

/-- A call on the reliable queue. -/
def reliableStep (z : Zlib) (t : Traffic) (op : ReliableOp) : Traffic := t.step z op.toOp

/-- A call on the reliable queue, by the functions whose offset is an `int`. -/
def checkedStep (z : Zlib) (t : Except SendQueue.StreamFault Traffic) (op : ReliableOp) :
    Except SendQueue.StreamFault Traffic :=
  t.bind fun t => match op.toOp with
    | .enqueue type data mode =>
        if SendQueue.Admissible data mode then
          (SendQueue.Checked.enqueue t.queue type data mode).map fun queue =>
            { t with queue := queue, enqueued := t.enqueued ++ [(type, data)] }
        else .ok t
    | .dequeue level =>
        (SendQueue.Checked.dequeue z level t.queue).map fun (packet, queue) =>
          { t with queue := queue, dequeued := t.dequeued ++ packet.toList }

/-- Nothing but compressed data is enqueued while the side buffer is not empty, the side
buffer stays below `2 ^ 31` bytes, and no more than `2 ^ 31` bytes are streamed at once, by
the user or as a compressed block. -/
def InOrder (z : Zlib) (t : Traffic) : ReliableOp → Prop
  | .send data mode => (mode = .streamCompressed ∨ t.queue.compressionBuffer = []) ∧
      (mode = .stream → data.length ≤ 2 ^ 31)
  | .close => t.queue.compressionBuffer = []
  | .dequeue level => t.queue.compressionBuffer.length < 2 ^ 31 ∧
      (SendQueue.Checked.pendingBlock t.queue z level).length ≤ 2 ^ 31

instance (z : Zlib) (t : Traffic) : ∀ op, Decidable (t.InOrder z op)
  | .send _ _ => inferInstanceAs (Decidable (_ ∧ _))
  | .close => inferInstanceAs (Decidable (t.queue.compressionBuffer = []))
  | .dequeue _ => inferInstanceAs (Decidable (_ ∧ _))

/-- Under the condition the offset is never negative. -/
theorem checkedStep_eq {z : Zlib} {t : Traffic} {op : ReliableOp} (h : t.InOrder z op) :
    checkedStep z (.ok t) op = .ok (t.reliableStep z op) := by
  cases op with
  | send data mode =>
      simp only [checkedStep, reliableStep, Traffic.step, ReliableOp.toOp, Except.bind]
      rw [SendQueue.Checked.enqueue_eq t.queue _ h.2]
      split <;> rfl
  | close =>
      simp only [checkedStep, reliableStep, Traffic.step, ReliableOp.toOp, Except.bind]
      rw [SendQueue.Checked.enqueue_eq t.queue _ (by simp)]
      rfl
  | dequeue level =>
      simp only [checkedStep, reliableStep, Traffic.step, ReliableOp.toOp, Except.bind]
      rw [SendQueue.Checked.dequeue_eq t.queue h.2]
      rfl

theorem run_checkedStep {z : Zlib} {ops : List ReliableOp}
    (h : Along (reliableStep z) (InOrder z) {} ops) :
    run (checkedStep z) (.ok {}) ops = .ok (run (reliableStep z) {} ops) := by
  refine run_simulation (fun t s => s = Except.ok t) ?_ rfl h
  rintro t s op rfl hop
  exact checkedStep_eq hop

/-- The generated frames carry the stream up to what is in the side buffer. -/
structure Ordered (z : Zlib) (t : Traffic) (pending : List (FrameTypeID × Bytes)) : Prop where
  wf : t.WF
  buffer : t.queue.compressionBuffer = subframes pending
  isData : ∀ m ∈ pending, m.1 = FrameTypeID.data
  reassembled : (frameCalls z [] t.queue.generated).2 = []
  atoms : t.enqueued.flatMap messageAtoms =
    (frameCalls z [] t.queue.generated).1.flatMap callAtoms ++ pending.flatMap messageAtoms

variable {z : Zlib} {t : Traffic} {pending : List (FrameTypeID × Bytes)}

theorem Ordered.init : Ordered z {} [] where
  wf := WF.init
  buffer := rfl
  isData := by simp
  reassembled := rfl
  atoms := rfl

/-- A message that is data adds its bytes to the stream. -/
theorem flatMap_messageAtoms_data (h : ∀ m ∈ pending, m.1 = FrameTypeID.data) :
    pending.flatMap messageAtoms = (pending.map delivery).flatMap callAtoms := by
  induction pending with
  | nil => rfl
  | cons m ms ih =>
      have hm : m.1 ≠ FrameTypeID.closeWrite := by
        rw [h m (by simp)]
        decide
      rw [List.flatMap_cons, ih fun x hx => h x (by simp [hx])]
      simp [messageAtoms, hm, callAtoms, delivery]

/-- A message that becomes frames at once, with nothing waiting in the side buffer. -/
theorem Ordered.append (h : Ordered z t []) {type : FrameTypeID} {data : Bytes}
    {mode : CoalesceMode} (hadm : SendQueue.Admissible data mode) (hmode : mode ≠ .streamCompressed)
    (hcalls : ∀ fs, SendQueue.Enqueues t.queue type data mode fs →
      (frameCalls z [] fs).2 = [] ∧
        (frameCalls z [] fs).1.flatMap callAtoms = messageAtoms (type, data)) :
    Ordered z (t.step z (.enqueue type data mode)) [] := by
  obtain ⟨hwf, hspec⟩ := h.wf.step z (.enqueue type data mode)
  obtain ⟨fs, henq⟩ := hspec hadm
  obtain ⟨hbuf, hatoms⟩ := hcalls fs henq
  have hstep : t.step z (.enqueue type data mode) =
      { t with
        queue := t.queue.enqueue type data mode
        enqueued := t.enqueued ++ [(type, data)] } := by
    simp [Traffic.step, hadm]
  rw [hstep] at hwf ⊢
  refine ⟨hwf, ?_, by simp, ?_, ?_⟩
  · show (t.queue.enqueue type data mode).compressionBuffer = _
    rw [henq.buffer, if_neg hmode]
    exact h.buffer
  · show (frameCalls z [] (t.queue.enqueue type data mode).generated).2 = []
    rw [henq.generated, frameCalls_append, h.reassembled]
    exact hbuf
  · show (t.enqueued ++ [(type, data)]).flatMap messageAtoms =
      (frameCalls z [] (t.queue.enqueue type data mode).generated).1.flatMap callAtoms ++ _
    rw [henq.generated, frameCalls_append, h.reassembled, List.flatMap_append, h.atoms,
      List.flatMap_append, hatoms]
    simp

/-- **The step lemma of the reliable stream.** -/
theorem Ordered.step (hz : z.Lossless) (h : Ordered z t pending) {op : ReliableOp}
    (hop : t.InOrder z op) : ∃ pending', Ordered z (t.reliableStep z op) pending' := by
  cases op with
  | send data mode =>
      by_cases hadm : SendQueue.Admissible data mode
      · by_cases hmode : mode = .streamCompressed
        · -- The message joins the side buffer.
          subst hmode
          obtain ⟨hbuffer, hgen, henqueued⟩ := h.wf.join h.buffer z FrameTypeID.data data
          refine ⟨pending ++ [(FrameTypeID.data, data)], (h.wf.step z _).1, hbuffer, ?_, ?_, ?_⟩
          · intro m hm
            rcases List.mem_append.mp hm with hm | hm
            · exact h.isData m hm
            · rw [List.mem_singleton.mp hm]
          · rw [reliableStep, ReliableOp.toOp, hgen]
            exact h.reassembled
          · rw [reliableStep, ReliableOp.toOp, hgen, henqueued, List.flatMap_append, h.atoms,
              List.flatMap_append, List.append_assoc]
        · have hbuf : t.queue.compressionBuffer = [] := hop.1.resolve_left hmode
          have hnil := eq_nil_of_subframes (hbuf.symm.trans h.buffer)
          subst hnil
          refine ⟨[], h.append hadm hmode fun fs henq => ?_⟩
          have hcut := henq.frames
          rw [if_neg hmode] at hcut
          rw [frameCalls_data z [] hcut.type]
          refine ⟨rfl, ?_⟩
          rw [flatMap_callAtoms_data, hcut.data]
          rfl
      · refine ⟨pending, ?_⟩
        simpa only [reliableStep, ReliableOp.toOp, Traffic.step, if_neg hadm] using h
  | close =>
      have hbuf : t.queue.compressionBuffer = [] := hop
      have hnil := eq_nil_of_subframes (hbuf.symm.trans h.buffer)
      subst hnil
      refine ⟨[], h.append (by decide) (by decide) fun fs henq => ?_⟩
      obtain ⟨id, rfl⟩ := henq.single (Or.inr rfl)
      have hcall := Receiver.processReceived_closeWrite z .reliable []
        (v := (⟨id, FrameTypeID.closeWrite, []⟩, [])) rfl
      simp only [frameCalls, List.map_cons, List.map_nil, Receiver.processFrames, hcall]
      exact ⟨trivial, rfl⟩
  | dequeue level =>
      obtain ⟨fs, done, pending', rfl, hgen, hbuffer, hcalls, -⟩ :=
        h.wf.release hz h.buffer hop.1 level
      have hdone := flatMap_messageAtoms_data fun m hm => h.isData m (List.mem_append_left _ hm)
      refine ⟨pending', (h.wf.step z _).1, hbuffer,
        fun m hm => h.isData m (List.mem_append_right _ hm), ?_, ?_⟩
      · rw [reliableStep, ReliableOp.toOp, hgen, frameCalls_append, h.reassembled, hcalls]
      · rw [reliableStep, ReliableOp.toOp, hgen, frameCalls_append, h.reassembled, hcalls]
        show t.enqueued.flatMap messageAtoms = _
        rw [h.atoms, List.flatMap_append, List.flatMap_append, hdone, List.append_assoc]

/-- **The reliable stream in order.**  In every run in which nothing is put behind a side
buffer that is not empty, and not too much is streamed at once, no read goes wrong.  The
stream read off the frames taken out is a prefix of the stream enqueued, and all of it once
the queue is empty.  The frames are taken out in the order of their identifiers. -/
theorem stream_in_order (z : Zlib) (hz : z.Lossless) (ops : List ReliableOp)
    (h : Along (reliableStep z) (InOrder z) {} ops) :
    run (checkedStep z) (.ok {}) ops = .ok (run (reliableStep z) {} ops) ∧
      ((run (reliableStep z) {} ops).calls z).1.flatMap callAtoms <+:
        (run (reliableStep z) {} ops).enqueued.flatMap messageAtoms ∧
      ((run (reliableStep z) {} ops).queue.empty = true →
        ((run (reliableStep z) {} ops).calls z).1.flatMap callAtoms =
          (run (reliableStep z) {} ops).enqueued.flatMap messageAtoms) ∧
      ∀ i f, (run (reliableStep z) {} ops).frames[i]? = some f → f.id = serial 16 i := by
  have hchecked := run_checkedStep h
  obtain ⟨pending, hinv⟩ : ∃ pending, Ordered z (run (reliableStep z) {} ops) pending := by
    refine run_invariant (fun t => ∃ pending, Ordered z t pending) ?_ ⟨[], Ordered.init⟩ h
    rintro t op ⟨pending, ht⟩ hop
    exact ht.step hz hop
  generalize run (reliableStep z) {} ops = t at hinv hchecked ⊢
  refine ⟨hchecked, ?_, ?_, fun i f hf => hinv.wf.id_frames hf⟩
  · rw [hinv.atoms, hinv.wf.generated_eq, frameCalls_append, List.flatMap_append, List.append_assoc]
    exact List.prefix_append _ _
  · intro hempty
    obtain ⟨hq, hb⟩ : t.queue.queue = [] ∧ t.queue.compressionBuffer = [] := by
      simpa [SendQueue.empty] using hempty
    have hnil := eq_nil_of_subframes (hb.symm.trans hinv.buffer)
    rw [hinv.atoms, hnil, calls, hinv.wf.frames_eq hq]
    simp

/-- Messages in three modes and a close, each behind an empty side buffer. -/
def orderlyRun : List ReliableOp :=
  [.send [1] .none, .send [2, 3] .stream, .dequeue 6, .dequeue 6, .send [4] .streamCompressed,
    .dequeue 6, .close, .dequeue 6]

theorem stream_in_order_orderlyRun :
    ((run (reliableStep copying) {} orderlyRun).calls copying).1.flatMap callAtoms =
      [.byte 1, .byte 2, .byte 3, .byte 4, .closeWrite] :=
  (stream_in_order copying copying_lossless orderlyRun (by decide +kernel)).2.2.1
    (by decide +kernel)

/-- A compressed message, and then a close. -/
def closeBehindCompressed : List ReliableOp :=
  [.send [1] .streamCompressed, .close, .dequeue 0, .dequeue 0]

/-- **A close overtakes data.**  The `CLOSE_WRITE` gets the first identifier and the data
accepted before it the second, so the stream read off the frames is not a prefix of the
stream enqueued. -/
theorem close_overtakes :
    (run (reliableStep copying) {} closeBehindCompressed).frames.map
        (fun f => (f.id, f.type)) =
      [(0, FrameTypeID.closeWrite), (1, FrameTypeID.dataCompressed)] ∧
    ¬ ((run (reliableStep copying) {} closeBehindCompressed).calls copying).1.flatMap
        callAtoms <+:
      (run (reliableStep copying) {} closeBehindCompressed).enqueued.flatMap
        messageAtoms := by
  decide +kernel

end Traffic
end MrUDP
