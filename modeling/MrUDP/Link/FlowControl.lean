import MrUDP.Link.Delivery

/-!
# Flow control

`Sender::processReliableDataQueue` sends while fewer packets are unacknowledged than the
window size.  That counts packets; it does not bound how far the newest frame is ahead of
the oldest unacknowledged one.  If one packet stays unacknowledged while later ones are
acknowledged, the distance grows without limit and frame identifiers become ambiguous.

A sender that also keeps every frame it transmits less than half a turn ahead of the
first frame of every packet in the window would be safe, whatever arrives at the
receiver.

## Main definitions

* `ReceiveQueue.Has`: the receive queue has something for an index.
* `Link.KeepsSpan`: the condition on the sender.
* `transmitted_ahead_lt`: under it, no frame transmitted is half a turn ahead.
* `overrun`: a run that gets half a turn ahead.
-/

namespace MrUDP
open Machine
open Std (ExtTreeMap LawfulEqCmp)

namespace ReceiveQueue

/-- Index `i` lies behind the `n` frames processed, or its identifier is buffered. -/
def Has (q : ReceiveQueue) (n i : ℕ) : Prop := i < n ∨ (q.queue[serial 16 i]?).isSome

/-- The queue has processed `n` frames and waits for the next. -/
structure Counts (q : ReceiveQueue) (n : ℕ) : Prop where
  expected : q.expectedID = serial 16 n
  settled : q.queue[q.expectedID]? = none

/-- `n` frames are processed and nothing the queue had within a turn is lost. -/
structure Keeps (q : ReceiveQueue) (n : ℕ) (q' : ReceiveQueue) (n' : ℕ) : Prop where
  expected : q'.expectedID = serial 16 n'
  le : n ≤ n'
  has : ∀ i < n + 2 ^ 16, q.Has n i → q'.Has n' i

theorem Keeps.trans {q₁ q₂ q₃ : ReceiveQueue} {n₁ n₂ n₃ : ℕ} (h₁ : Keeps q₁ n₁ q₂ n₂)
    (h₂ : Keeps q₂ n₂ q₃ n₃) : Keeps q₁ n₁ q₃ n₃ where
  expected := h₂.expected
  le := h₁.le.trans h₂.le
  has := by
    intro i hi hhas
    have := h₁.le
    exact h₂.has i (by omega) (h₁.has i hi hhas)

variable {q : ReceiveQueue} {n : ℕ}

/-- Taking the expected frame out of the buffer loses only what is then processed. -/
theorem keeps_processNext (h : q.expectedID = serial 16 n) {frame : Frame}
    {q' : ReceiveQueue} (hnext : q.processNext = some (frame, q')) : Keeps q n q' (n + 1) := by
  obtain ⟨-, rfl⟩ := processNext_eq_some.mp hnext
  refine ⟨by rw [← serial_add_one, ← h], by omega, ?_⟩
  rintro i hi (hlt | hsome)
  · exact Or.inl (by omega)
  · by_cases hin : i < n + 1
    · exact Or.inl hin
    · right
      have hne : serial 16 n ≠ serial 16 i := by
        intro heq
        have := serial_inj heq (by omega) (by omega)
        omega
      simp only [ExtTreeMap.getElem?_erase, LawfulEqCmp.compare_eq_iff_eq, h]
      rw [if_neg hne]
      exact hsome

theorem keeps_processQueue (h : q.expectedID = serial 16 n) :
    Keeps q n q.processQueue.2 (n + q.processQueue.1.length) ∧
      q.processQueue.2.queue[q.processQueue.2.expectedID]? = none := by
  have key := processQueue_induction (q := q)
    (fun calls q' => Keeps q n q' (n + calls.length)) ?step [] ⟨by simpa using h, by simp,
      fun i _ hi => by simpa using hi⟩
  · simpa using key
  case step =>
    intro calls q₁ frame q₂ hk hnext
    have := hk.trans (keeps_processNext hk.expected hnext)
    simpa [Nat.add_assoc] using this

/-- One frame, whatever it is.  If it is the one with index `i` and less than half a turn
ahead, the queue then has it. -/
theorem Counts.onFrame (h : q.Counts n) (v : Visited) :
    (onFrame q v).2.Counts (n + (onFrame q v).1.length) ∧
      Keeps q n (onFrame q v).2 (n + (onFrame q v).1.length) ∧
      ∀ i < n + 2 ^ 15, v.1.id = serial 16 i →
        (onFrame q v).2.Has (n + (onFrame q v).1.length) i := by
  by_cases hexp : v.1.id = q.expectedID
  · have hrun : ReceiveQueue.onFrame q v =
        (v :: (processQueue { q with expectedID := q.expectedID + 1 }).1,
          (processQueue { q with expectedID := q.expectedID + 1 }).2) := by
      simp [ReceiveQueue.onFrame, hexp]
    have hnext : ({ q with expectedID := q.expectedID + 1 } : ReceiveQueue).expectedID =
        serial 16 (n + 1) := by
      rw [← serial_add_one, ← h.expected]
    have hfirst : Keeps q n { q with expectedID := q.expectedID + 1 } (n + 1) :=
      ⟨hnext, by omega, fun i _ hi => hi.imp (by omega) id⟩
    obtain ⟨hkeeps, hsettled⟩ := keeps_processQueue hnext
    have hlen : n + (ReceiveQueue.onFrame q v).1.length = n + 1 +
        (processQueue { q with expectedID := q.expectedID + 1 }).1.length := by
      rw [hrun]
      simp
      omega
    rw [hlen, hrun]
    refine ⟨⟨hkeeps.expected, hsettled⟩, hfirst.trans hkeeps, ?_⟩
    intro i hi hid
    left
    -- An index with the expected identifier is the expected one or an earlier one.
    by_contra hge
    have hle := hkeeps.le
    have := serial_inj ((hid.symm.trans hexp).trans h.expected) (by omega) (by omega)
    omega
  · by_cases hgt : idGreaterThan v.1.id q.expectedID = true
    · have hrun : ReceiveQueue.onFrame q v = ([], q.enqueue v.1) := by
        simp [ReceiveQueue.onFrame, hexp, hgt]
      have hget : ∀ k, (q.enqueue v.1).queue[k]? =
          if v.1.id = k ∧ v.1.id ∉ q.queue then some v.1 else q.queue[k]? := by
        intro k
        simp [ReceiveQueue.enqueue, ExtTreeMap.getElem?_insertIfNew]
      rw [hrun]
      refine ⟨⟨h.expected, ?_⟩, ⟨h.expected, le_rfl, ?_⟩, ?_⟩
      · show (q.enqueue v.1).queue[q.expectedID]? = none
        rw [hget, if_neg (fun hc => hexp hc.1), h.settled]
      · rintro i - (hi | hi)
        · exact Or.inl hi
        · right
          rw [hget]
          split
          · rfl
          · exact hi
      · intro i _ hid
        right
        rw [hget, ← hid]
        by_cases hm : v.1.id ∈ q.queue <;> simp [hm]
    · have hrun : ReceiveQueue.onFrame q v = ([], q) := by
        simp [ReceiveQueue.onFrame, hexp, hgt]
      rw [hrun]
      refine ⟨h, ⟨h.expected, le_rfl, fun i _ hi => hi⟩, ?_⟩
      intro i hi hid
      left
      by_contra hge
      have hge : n ≤ i := by simpa using hge
      have hne : i ≠ n := by
        rintro rfl
        exact hexp (hid.trans h.expected.symm)
      have hlt : idGreaterThan (serial 16 i) (serial 16 n) = decide (n < i) :=
        idGreaterThan_serial (by decide) (by omega) (by omega)
      rw [hid, h.expected, hlt] at hgt
      simp at hgt
      omega

/-- **A whole packet, whatever it holds.** -/
theorem Counts.onFrames {vs : List Visited} :
    ∀ {q : ReceiveQueue} {n : ℕ}, q.Counts n →
      (onFrames vs q).2.Counts (n + (onFrames vs q).1.length) ∧
        Keeps q n (onFrames vs q).2 (n + (onFrames vs q).1.length) ∧
        ∀ v ∈ vs, ∀ i < n + 2 ^ 15, v.1.id = serial 16 i →
          (onFrames vs q).2.Has (n + (onFrames vs q).1.length) i := by
  induction vs with
  | nil =>
      intro q n h
      exact ⟨h, ⟨h.expected, le_rfl, fun i _ hi => hi⟩, by simp⟩
  | cons v vs ih =>
      intro q n h
      obtain ⟨hc₁, hk₁, hv₁⟩ := h.onFrame v
      obtain ⟨hc₂, hk₂, hv₂⟩ := ih hc₁
      have hle := hk₁.le
      have hlen : n + (ReceiveQueue.onFrames (v :: vs) q).1.length =
          n + (ReceiveQueue.onFrame q v).1.length +
            (ReceiveQueue.onFrames vs (ReceiveQueue.onFrame q v).2).1.length := by
        simp [ReceiveQueue.onFrames, Nat.add_assoc]
      rw [hlen]
      refine ⟨hc₂, hk₁.trans hk₂, ?_⟩
      intro w hw i hi hid
      rcases List.mem_cons.mp hw with rfl | hw
      · exact hk₂.has i (by omega) (hv₁ i hi hid)
      · exact hv₂ w hw i (by omega) hid

end ReceiveQueue

namespace Link

/-! ## A sender that bounds the span -/

/-- When a packet is transmitted, every data packet waiting in the window starts less
than half a turn before the end of what is then transmitted. -/
def KeepsSpan (l : Link) : Action → Prop
  | .transmit e => ∀ x ∈ l.sender.retrier.window.toList,
      x.2.paths.front.packet.header.type = TypeID.dataReliable →
        (l.step (.transmit e)).sent.length ≤ x.2.paths.front.packet.base + 2 ^ 15
  | _ => True

instance (l : Link) : ∀ a, Decidable (l.KeepsSpan a)
  | .transmit _ => inferInstanceAs (Decidable (∀ x ∈ l.sender.retrier.window.toList, _ → _))
  | .enqueue .. | .probe .. | .retry .. | .deliver .. | .drop .. | .duplicate .. =>
      isTrue trivial

/-- The invariant of a sender that bounds the span. -/
structure Spans (l : Link) : Prop where
  inv : Inv (l.receiveQueue.Has l.processed.length) l
  counts : l.receiveQueue.Counts l.processed.length
  span : ∀ k p, l.Waiting k p → p.header.type = TypeID.dataReliable →
    l.sent.length ≤ p.base + 2 ^ 15

variable {l : Link}

theorem Spans.init : Spans {} where
  inv := Inv.init
  counts := ⟨rfl, by simp⟩
  span := by
    rintro k p ⟨serial, h⟩
    simp [Retrier.outstanding] at h

/-- **The bound.**  The frame expected next, once transmitted, can only be in the window:
the receiver does not have it.  So the window reaches back at least that far. -/
theorem Spans.sent_le (h : l.Spans) : l.sent.length ≤ l.processed.length + 2 ^ 15 := by
  by_cases hn : l.processed.length < l.sent.length
  · rcases h.inv.covered _ hn with ⟨k, p, hw, htype, hlo, -⟩ | hhas
    · have := h.span k p hw htype
      omega
    · rcases hhas with hlt | hsome
      · exact absurd hlt (lt_irrefl _)
      · rw [← h.counts.expected, h.counts.settled] at hsome
        cases hsome
  · omega

/-- The data packets waiting after a step: those that waited before, and the one the step
transmitted, which ends where the transmitted frames then end. -/
theorem Inv.waiting_step {R : ℕ → Prop} (h : Inv R l) {a : Action} (hids : l.KeepsIDs a)
    {k : PacketID} {p : Packet} (hw : (l.step a).Waiting k p)
    (htype : p.header.type = TypeID.dataReliable) :
    (l.Waiting k p ∧ ((l.step a).sent = l.sent ∨ ∃ e, a = .transmit e)) ∨
      ((l.step a).sent.length = p.base + p.frames.length ∧
        p.frames.length ≤ maxPacketPostFrameSize) := by
  cases a with
  | enqueue type data mode =>
      left
      by_cases hadm : SendQueue.Admissible data mode
      · simp only [Link.step, if_pos hadm] at hw ⊢
        exact ⟨hw, Or.inl trivial⟩
      · simp only [Link.step, if_neg hadm] at hw ⊢
        exact ⟨hw, Or.inl trivial⟩
  | transmit e =>
      rcases Sender.transmitNext_cases e h.wf with
        hrun | ⟨q, s, m, fs, hrun, -, hbase, hc, hwf, -, -, hfits⟩
      · refine Or.inl ⟨?_, Or.inr ⟨e, rfl⟩⟩
        simpa [Link.step, hrun, flush, Waiting] using hw
      · have hstep := h.step_transmit hrun hbase hc hwf
        rw [hstep] at hw ⊢
        rcases (waiting_afterSend h (hids (by rw [hrun])) e.now k p).mp hw with
          ⟨-, rfl⟩ | ⟨-, hold⟩
        · right
          obtain ⟨⟨hc', -⟩, hm⟩ := placed_stamp (l := l) hwf hbase hc
          have hbase' : (l.sender.stamp q).base = l.sent.length := hbase
          have hframes := length_le_length_flatMap_bytes (l.sender.stamp q).frames
          rw [hc'.frames_eq hwf.numbered, ← hc'.data, ← hc'.frames_eq hwf.numbered] at hframes
          refine ⟨?_, hframes.trans hfits⟩
          rw [length_sent_afterSend _ _ hwf, hm, hbase']
        · exact Or.inl ⟨hold, Or.inr ⟨e, rfl⟩⟩
  | probe now =>
      have hstep : l.step (.probe now) = l.afterSend now l.sender.dataQueue
          { header := { type := TypeID.probe } } 0 := by
        simp [Link.step, afterSend, flush]
      rw [hstep] at hw ⊢
      rcases (waiting_afterSend h hids now k p).mp hw with ⟨-, rfl⟩ | ⟨-, hold⟩
      · have hprobe : TypeID.probe = TypeID.dataReliable := htype
        exact absurd hprobe (by decide)
      · exact Or.inl ⟨hold, Or.inl (by simp [afterSend])⟩
  | retry now id =>
      left
      cases hget : l.sender.retrier.window[id]? with
      | none =>
          simp only [Link.step, hget] at hw ⊢
          exact ⟨hw, Or.inl trivial⟩
      | some retry =>
          obtain ⟨serial, hserial⟩ := hw
          simp only [Link.step, hget] at hserial ⊢
          exact ⟨⟨serial, (Sender.outstanding_resend hget now k).symm.trans hserial⟩,
            Or.inl rfl⟩
  | deliver i now delayedMS =>
      left
      cases hget : l.network[i]? with
      | none =>
          simp only [Link.step, hget] at hw ⊢
          exact ⟨hw, Or.inl trivial⟩
      | some d =>
          cases d with
          | packet p' =>
              simp only [Link.step, hget, Waiting, Link.receive] at hw ⊢
              constructor
              · split at hw <;> split at hw <;> exact hw
              · left
                split <;> split <;> rfl
          | ack a =>
              obtain ⟨serial, hserial⟩ := hw
              simp only [Link.step, hget] at hserial ⊢
              have hserial := (Sender.outstanding_acknowledge now a k).symm.trans hserial
              split at hserial
              · cases hserial
              · exact ⟨⟨serial, hserial⟩, Or.inl trivial⟩
  | drop i => exact Or.inl ⟨hw, Or.inl rfl⟩
  | duplicate i => exact Or.inl ⟨hw, Or.inl rfl⟩

/-- The receiver gets the frames of a data packet that arrives: it was transmitted, so it is
not half a turn ahead. -/
theorem Spans.receives (h : l.Spans) {a : Action} {p : Packet} (ha : l.arriving a = some p)
    (htype : p.header.type = TypeID.dataReliable) {j : ℕ} (hj : j < p.frames.length) :
    (l.receiveQueue.onReceive p).2.Has
      (l.processed.length + (l.receiveQueue.onReceive p).1.length) (p.base + j) := by
  obtain ⟨i, now, delayedMS, rfl, hget⟩ := arriving_eq_some ha
  have hplaced := (h.inv.flight p (List.mem_of_getElem? hget)).1 htype
  have hnum := h.inv.wf.numbered
  have hle := hplaced.le
  have hsent := h.sent_le
  have hlen := hplaced.carries.le_length
  -- The frame at position `j` of the packet is the generated frame `base + j`.
  obtain ⟨f, hf⟩ : ∃ f, l.sender.dataQueue.generated[p.base + j]? = some f :=
    ⟨_, List.getElem?_eq_getElem (by omega)⟩
  have hcontains := hplaced.carries.contains hnum (Nat.le_add_right _ _) (by omega) hf
  obtain ⟨v, hv, rfl⟩ := List.mem_map.mp (List.mem_of_getElem? hcontains.2)
  exact (h.counts.onFrames).2.2 v hv _ (by omega) (hnum.id _ _ hf)

/-- A step that keeps the span keeps it for every data packet then waiting. -/
theorem Spans.span_step (h : l.Spans) {a : Action} (hids : l.KeepsIDs a)
    (hspan : l.KeepsSpan a) {k : PacketID} {p : Packet} (hw : (l.step a).Waiting k p)
    (htype : p.header.type = TypeID.dataReliable) :
    (l.step a).sent.length ≤ p.base + 2 ^ 15 := by
  rcases h.inv.waiting_step hids hw htype with ⟨hold, hsame | ⟨e, rfl⟩⟩ | ⟨hlen, hframes⟩
  · rw [hsame]
    exact h.span k p hold htype
  · obtain ⟨serial, hserial⟩ := hold
    obtain ⟨retry, hretry, hpaths, -⟩ := (Retrier.outstanding_eq_some _).mp hserial
    have hbound := hspan _ (ExtTreeMap.mem_toList_iff_getElem?_eq_some.mpr hretry)
    rw [hpaths] at hbound
    exact hbound htype
  · -- A packet holds far fewer than half a turn of frames.
    have hmax : maxPacketPostFrameSize ≤ 2 ^ 15 := by decide
    omega

/-- **The step lemma of flow control.** -/
theorem Spans.step (h : l.Spans) {a : Action} (hids : l.KeepsIDs a) (hspan : l.KeepsSpan a) :
    (l.step a).Spans := by
  have hsent := h.sent_le
  by_cases hdata : ∃ p, l.arriving a = some p ∧ p.header.type = TypeID.dataReliable
  · obtain ⟨p, ha, htype⟩ := hdata
    obtain ⟨hqueue, hproc⟩ := receiver_of_arriving ha htype
    obtain ⟨hcounts, hkeeps, -⟩ := h.counts.onFrames
    have hlen : (l.step a).processed.length =
        l.processed.length + (l.receiveQueue.onReceive p).1.length := by
      rw [hproc, List.length_append, List.length_map]
    refine ⟨?_, ?_, fun k x hw ht => h.span_step hids hspan hw ht⟩
    · rw [hqueue, hlen]
      refine h.inv.step hids (fun i hi hhas => hkeeps.has i (by omega) hhas) ?_ ?_
      · intro p' hp' ht j hj
        rw [ha] at hp'
        cases hp'
        exact h.receives ha ht hj
      · intro hnone
        rw [ha] at hnone
        cases hnone
    · rw [hqueue, hlen]
      exact hcounts
  · have hnot : ∀ p, l.arriving a = some p → p.header.type ≠ TypeID.dataReliable :=
      fun p hp ht => hdata ⟨p, hp, ht⟩
    obtain ⟨hqueue, hproc⟩ := receiver_of_not_arriving hnot
    refine ⟨?_, ?_, fun k x hw ht => h.span_step hids hspan hw ht⟩
    · rw [hqueue, hproc]
      exact h.inv.step hids (fun _ _ hi => hi) (fun p hp ht => absurd ht (hnot p hp))
        fun _ => rfl
    · rw [hqueue, hproc]
      exact h.counts

/-- **Flow control with a bounded span.**  In every run that gives out no packet identifier
in use and keeps the span, no frame transmitted and not yet processed is half a turn
ahead of the frame expected next. -/
theorem transmitted_ahead_lt (as : List Action)
    (h : Along step (fun l a => l.KeepsIDs a ∧ l.KeepsSpan a) {} as) (i : ℕ)
    (hlo : (run step {} as).processed.length ≤ i) (hhi : i < (run step {} as).sent.length) :
    i - (run step {} as).processed.length < 2 ^ 15 := by
  have hinv : (run step {} as).Spans :=
    run_invariant Spans (fun l a hl hok => hl.step hok.1 hok.2) Spans.init h
  have := hinv.sent_le
  omega

/-- Two packets are transmitted and the first one is lost. -/
def shortRun : List Action :=
  [.enqueue FrameTypeID.data [7] .none, .enqueue FrameTypeID.data [8] .none,
    .transmit plainEnv, .transmit plainEnv, .drop 0, .deliver 0 1 0]

theorem transmitted_ahead_lt_shortRun : 1 - (run step {} shortRun).processed.length < 2 ^ 15 :=
  transmitted_ahead_lt shortRun (by decide +kernel) 1 (by decide +kernel) (by decide +kernel)

/-! ## A run that gets half a turn ahead

The first packet is lost.  Every later packet is sent, delivered and acknowledged before
the next one, so at most two packets are ever unacknowledged and the window never fills.
-/

/-- `j` one-frame packets were sent; at most the first is unacknowledged, and nothing has
been processed. -/
structure Stuck (j : ℕ) (l : Link) : Prop where
  inv : Inv (fun _ => True) l
  network : l.network = []
  queue : l.sender.dataQueue.queue = []
  buffer : l.sender.dataQueue.compressionBuffer = []
  issued : l.sender.packetIDGenerator.issued = j
  sent : l.sent.length = j
  window : ∀ k, l.sender.retrier.outstanding k ≠ none → k = 0
  size : WindowSize.minimum ≤ l.sender.windowSize.size
  expected : l.receiveQueue.expectedID = 0
  missing : l.receiveQueue.queue[(0 : FrameID)]? = none
  processed : l.processed = []

/-- A window with nothing outstanding but under one identifier holds at most one packet. -/
theorem numUnacked_le_one {r : Retrier} (h : ∀ k, r.outstanding k ≠ none → k = 0) :
    r.numUnacked ≤ 1 := by
  have hkeys : ∀ k ∈ r.window.keys, k = 0 := by
    intro k hk
    apply h
    have hmem : k ∈ r.window := ExtTreeMap.mem_keys.mp hk
    rw [ExtTreeMap.mem_iff_isSome_getElem?] at hmem
    obtain ⟨retry, hretry⟩ := Option.isSome_iff_exists.mp hmem
    simp [Retrier.outstanding, hretry]
  have hnodup : r.window.keys.Nodup := ExtTreeMap.nodup_keys
  have hlen : r.window.keys.length ≤ 1 := by
    generalize r.window.keys = keys at hkeys hnodup ⊢
    rcases keys with _ | ⟨a, _ | ⟨b, rest⟩⟩
    · simp
    · simp
    · have hab : a = b := by rw [hkeys a (by simp), hkeys b (by simp)]
      simp [hab] at hnodup
  rw [Retrier.numUnacked, ← ExtTreeMap.length_keys]
  exact hlen

/-- Send one empty message in a packet of its own. -/
def sendOne : List Action :=
  [.enqueue FrameTypeID.data [] .none, .transmit plainEnv]

/-- What `sendOne` does: one more packet is in flight and outstanding. -/
structure SentOne (j : ℕ) (l l' : Link) (p : Packet) : Prop where
  inv : Inv (fun _ => True) l'
  network : l'.network = [.packet p]
  type : p.header.type = TypeID.dataReliable
  id : p.header.id = serial 16 j
  frames : p.frames.map Frame.id = [serial 16 j]
  queue : l'.sender.dataQueue.queue = []
  buffer : l'.sender.dataQueue.compressionBuffer = []
  issued : l'.sender.packetIDGenerator.issued = j + 1
  sent : l'.sent.length = j + 1
  window : ∀ k, l'.sender.retrier.outstanding k ≠ none → k = 0 ∨ k = serial 16 j
  size : l'.sender.windowSize = l.sender.windowSize
  receiver : l'.receiveQueue = l.receiveQueue ∧ l'.processed = l.processed

/-- What enqueueing the message does: one packet waits, with the next frame. -/
structure EnqueuedOne (j : ℕ) (l l₁ : Link) : Prop where
  inv : Inv (fun _ => True) l₁
  queue : ∃ p, l₁.sender.dataQueue.queue = [p]
  generated : l₁.sender.dataQueue.generated.length = j + 1
  buffer : l₁.sender.dataQueue.compressionBuffer = []
  retrier : l₁.sender.retrier = l.sender.retrier
  generator : l₁.sender.packetIDGenerator = l.sender.packetIDGenerator
  size : l₁.sender.windowSize = l.sender.windowSize
  network : l₁.network = l.network
  sent : l₁.sent = l.sent
  receiver : l₁.receiveQueue = l.receiveQueue ∧ l₁.processed = l.processed

theorem Stuck.enqueueOne {j : ℕ} (h : Stuck j l) :
    EnqueuedOne j l (l.step (.enqueue FrameTypeID.data [] .none)) := by
  have hadm : SendQueue.Admissible [] .none := by decide
  obtain ⟨fs, henq⟩ : ∃ fs, SendQueue.Enqueues l.sender.dataQueue FrameTypeID.data [] .none fs :=
    (h.inv.wf.enqueue h.inv.queueOpen hadm).2
  obtain ⟨id, hsingle⟩ := henq.single (Or.inl rfl)
  have hinv := h.inv.enqueue FrameTypeID.data hadm
  have hclosed : ¬ l.sender.dataQueue.status = .closed := by simp [h.inv.queueOpen]
  have hold : l.sender.dataQueue.generated.length = j := by
    have hchain := h.inv.wf.chain
    rw [h.queue, h.sent] at hchain
    exact hchain.symm
  have hqueue : (l.step (.enqueue FrameTypeID.data [] .none)).sender.dataQueue =
      l.sender.dataQueue.enqueue FrameTypeID.data [] .none := by
    simp [Link.step, hadm]
  refine ⟨hinv, ?_, ?_, ?_, ?_, ?_, ?_, ?_, ?_, ?_⟩
  · rw [hqueue, SendQueue.enqueue, if_neg hclosed]
    simp [SendQueue.coalesce, SendQueue.frameInto, h.queue]
  · rw [hqueue, henq.generated, hsingle, List.length_append, hold]
    rfl
  · rw [hqueue, henq.buffer]
    simpa using h.buffer
  all_goals simp [Link.step, hadm]

theorem Stuck.sendOne {j : ℕ} (h : Stuck j l) (hfresh : l.FreshID) :
    ∃ p, SentOne j l (run step l sendOne) p := by
  have h₁ := h.enqueueOne
  set l₁ := l.step (.enqueue FrameTypeID.data [] .none) with hl₁
  obtain ⟨p₀, hp₀⟩ := h₁.queue
  have hroom : l₁.sender.retrier.numUnacked < l₁.sender.windowSize.size := by
    have hle := numUnacked_le_one h.window
    have hmin := h.size
    rw [h₁.retrier, h₁.size]
    simp only [WindowSize.minimum] at hmin
    omega
  have hopen₁ : ¬ l₁.sender.dataQueue.status = .closed := by simp [h₁.inv.queueOpen]
  have hdeq : l₁.sender.dataQueue.dequeue plainEnv.zlib
      plainEnv.options.coalesceReliable.compressionLevel =
        (some p₀, { l₁.sender.dataQueue with queue := [] }) := by
    simp [SendQueue.dequeue, hopen₁, hp₀]
  -- So the round of the sending loop takes that packet.
  rcases Sender.transmitNext_cases plainEnv h₁.inv.wf with
    hrun | ⟨p, q, m, fs', hrun, htype, hbase, hc, hwf, hopen, hgen', -⟩
  · simp [Sender.transmitNext, hroom, hdeq] at hrun
  have hq : q = { l₁.sender.dataQueue with queue := [] } := by
    have := hrun
    simp only [Sender.transmitNext, if_pos hroom, hdeq, Prod.mk.injEq, true_and] at this
    exact (congrArg Sender.dataQueue this).symm
  have hfresh₁ : l₁.FreshID := by
    unfold FreshID
    rw [h₁.retrier, h₁.network, h₁.generator]
    exact hfresh
  have hinv₂ := h₁.inv.transmit plainEnv fun _ => hfresh₁
  have hstep := h₁.inv.step_transmit hrun hbase hc hwf
  -- The packet carries the one frame generated.
  have hglen : q.generated.length = j + 1 := by
    rw [hq]
    exact h₁.generated
  have hm : m = 1 := by
    have hchain := hwf.chain
    have hnil : q.queue = [] := by rw [hq]
    rw [hnil, h₁.sent, h.sent] at hchain
    have hend : j + m = q.generated.length := hchain
    omega
  have hid : l₁.sender.packetIDGenerator.id = serial 16 j := by
    rw [h₁.generator, IDGenerator.id, h.issued]
  have hc' : (l₁.sender.stamp p).Carries q.generated m := ⟨hc.le_length, hc.data⟩
  have hbase' : (l₁.sender.stamp p).base = j := by
    rw [← h.sent, ← h₁.sent]
    exact hbase
  refine ⟨l₁.sender.stamp p, ?_⟩
  have hfinal : run step l Link.sendOne = l₁.afterSend plainEnv.now q p m := by
    rw [← hstep]
    rfl
  rw [hfinal]
  refine ⟨hstep ▸ hinv₂, ?_, htype, hid, ?_, ?_, ?_, ?_, ?_, ?_, h₁.size, h₁.receiver⟩
  · simp [afterSend, flush, Sender.outbox_sendReliably, h₁.inv.flushed, h₁.network, h.network,
      Sender.stamp]
  · have hf : ∃ f, q.generated[j]? = some f := ⟨_, List.getElem?_eq_getElem (by omega)⟩
    obtain ⟨f, hf⟩ := hf
    rw [hc'.frames_eq hwf.numbered, hbase', hm, List.take_one, List.head?_drop, hf]
    simp [hwf.numbered.id j f hf]
  · show q.queue = []
    rw [hq]
  · show q.compressionBuffer = []
    rw [hq]
    exact h₁.buffer
  · show l₁.sender.packetIDGenerator.issued + 1 = _
    rw [h₁.generator, h.issued]
  · rw [length_sent_afterSend _ _ hwf, h₁.sent, h.sent, hm]
  · intro k hk
    rw [outstanding_afterSend h₁.inv hfresh₁] at hk
    split at hk
    next hk' => exact Or.inr (hk'.trans hid)
    · left
      apply h.window
      rwa [← h₁.retrier]

/-- The first packet is lost. -/
theorem stuck_first : Stuck 1 (run step {} (sendOne ++ [.drop 0])) := by
  have h₀ : Stuck 0 {} := by
    refine ⟨Inv.init, rfl, rfl, rfl, rfl, rfl, ?_, le_rfl, rfl, by simp, rfl⟩
    intro k hk
    simp [Retrier.outstanding] at hk
  obtain ⟨p, h⟩ := h₀.sendOne ⟨by simp [Retrier.outstanding], by simp⟩
  rw [run_append]
  generalize run step {} sendOne = l₁ at h
  refine ⟨h.inv.network rfl rfl (fun d hd => (List.eraseIdx_sublist _ _).subset hd), ?_, h.queue,
    h.buffer, h.issued, h.sent, ?_, ?_, ?_, ?_, ?_⟩
  · simp [step, h.network]
  · intro k hk
    rcases h.window k hk with hk | hk
    · exact hk
    · exact hk
  · show _ ≤ l₁.sender.windowSize.size
    rw [h.size]
    exact le_rfl
  · show l₁.receiveQueue.expectedID = 0
    rw [h.receiver.1]
  · show l₁.receiveQueue.queue[(0 : FrameID)]? = none
    rw [h.receiver.1]
    simp
  · exact h.receiver.2

/-- One more packet is sent, delivered and acknowledged. -/
def round : List Action := sendOne ++ [.deliver 0 0 0, .deliver 0 0 0]

/-- A frame that is not the expected one is not processed, and does not fill the gap. -/
theorem onReceive_other {q : ReceiveQueue} {p : Packet} {k : FrameID}
    (hframes : p.frames.map Frame.id = [k]) (hexp : q.expectedID = 0) (hk : k ≠ 0)
    (hmissing : q.queue[(0 : FrameID)]? = none) :
    (q.onReceive p).1 = [] ∧ (q.onReceive p).2.expectedID = 0 ∧
      (q.onReceive p).2.queue[(0 : FrameID)]? = none := by
  obtain ⟨v, hvisits, hv⟩ : ∃ v, p.visits = [v] ∧ v.1.id = k := by
    match hl : p.visits with
    | [] => simp [Packet.frames, hl] at hframes
    | [v] => exact ⟨v, rfl, by simpa [Packet.frames, hl] using hframes⟩
    | _ :: _ :: _ => simp [Packet.frames, hl] at hframes
  have hne : v.1.id ≠ q.expectedID := by rw [hv, hexp]; exact hk
  simp only [ReceiveQueue.onReceive, hvisits, ReceiveQueue.onFrames, ReceiveQueue.onFrame,
    if_neg hne]
  split
  · refine ⟨rfl, hexp, ?_⟩
    simp only [ReceiveQueue.enqueue, ExtTreeMap.getElem?_insertIfNew,
      LawfulEqCmp.compare_eq_iff_eq]
    rw [if_neg (fun hc => hk (hv.symm.trans hc.1))]
    exact hmissing
  · exact ⟨rfl, hexp, hmissing⟩

/-- A round sends one more frame, and leaves the first one missing. -/
theorem Stuck.round {j : ℕ} (h : Stuck j l) (hpos : 0 < j) (hj : j < 2 ^ 16) :
    Stuck (j + 1) (run step l round) := by
  have hne : serial 16 j ≠ 0 := by
    intro h0
    have := congrArg BitVec.toNat h0
    rw [toNat_serial, Nat.mod_eq_of_lt hj] at this
    simp at this
    omega
  have hid : l.sender.packetIDGenerator.id = serial 16 j := by
    rw [IDGenerator.id, h.issued]
  have hfresh : l.FreshID := by
    refine ⟨?_, by simp [h.network]⟩
    by_contra hout
    exact hne (hid.symm.trans (h.window _ hout))
  obtain ⟨p, h₁⟩ := h.sendOne hfresh
  rw [Link.round, run_append, run_cons, run_cons, run_nil]
  generalize run step l Link.sendOne = l₁ at h₁ ⊢
  have hack : requiresAck TypeID.dataReliable = true := by decide
  -- The packet arrives and its acknowledgement is in flight.
  have hget : l₁.network[0]? = some (.packet p) := by rw [h₁.network]; rfl
  have harr : l₁.arriving (.deliver 0 0 0) = some p := by simp [arriving, hget]
  obtain ⟨hrq, hproc⟩ := receiver_of_arriving harr h₁.type
  obtain ⟨hcalls, hexp, hmissing⟩ := onReceive_other h₁.frames
    (h₁.receiver.1 ▸ h.expected) hne (h₁.receiver.1 ▸ h.missing)
  have hinv₂ : Inv (fun _ => True) (l₁.step (.deliver 0 0 0)) :=
    h₁.inv.step trivial (fun _ _ _ => trivial) (fun _ _ _ _ _ => trivial) fun _ => rfl
  have hnet₂ : (l₁.step (.deliver 0 0 0)).network = [.ack ⟨p.header.id, 0⟩] := by
    simp [step, Link.receive, h₁.type, hack, h₁.network]
  have hsender₂ : (l₁.step (.deliver 0 0 0)).sender = l₁.sender ∧
      (l₁.step (.deliver 0 0 0)).sent = l₁.sent := by
    simp [step, hget, Link.receive, h₁.type, hack]
  generalize l₁.step (.deliver 0 0 0) = l₂ at hrq hproc hinv₂ hnet₂ hsender₂ ⊢
  obtain ⟨hsender₂, hsent₂⟩ := hsender₂
  have hinv₃ : Inv (fun _ => True) (l₂.step (.deliver 0 0 0)) :=
    hinv₂.step trivial (fun _ _ _ => trivial) (fun _ _ _ _ _ => trivial) fun _ => rfl
  -- The acknowledgement arrives and takes the packet out of the window.
  have hget₂ : l₂.network[0]? = some (.ack ⟨p.header.id, 0⟩) := by rw [hnet₂]; rfl
  have hstep : l₂.step (.deliver 0 0 0) =
      { l₂ with network := [], sender := l₁.sender.acknowledge 0 ⟨p.header.id, 0⟩ } := by
    simp [step, hnet₂, hsender₂]
  obtain ⟨hqueue, -, hgen, -⟩ :=
    Sender.acknowledge_frame (s := l₁.sender) 0 ⟨p.header.id, 0⟩
  rw [hstep] at hinv₃ ⊢
  refine ⟨hinv₃, rfl, ?_, ?_, ?_, ?_, ?_, ?_, ?_, ?_, ?_⟩
  · exact (congrArg SendQueue.queue hqueue).trans h₁.queue
  · exact (congrArg SendQueue.compressionBuffer hqueue).trans h₁.buffer
  · exact (congrArg IDGenerator.issued hgen).trans h₁.issued
  · exact (congrArg List.length hsent₂).trans h₁.sent
  · intro k hk
    have hout := Sender.outstanding_acknowledge (s := l₁.sender) 0 ⟨p.header.id, 0⟩ k
    by_cases hkid : k = p.header.id
    · exact absurd (hout.trans (if_pos hkid)) hk
    · rcases h₁.window k ((hout.trans (if_neg hkid)) ▸ hk) with hzero | hserial
      · exact hzero
      · exact absurd (hserial.trans h₁.id.symm) hkid
  · refine Sender.minimum_le_acknowledge ?_ 0 _
    rw [h₁.size]
    exact h.size
  · show l₂.receiveQueue.expectedID = 0
    rw [hrq]
    exact hexp
  · show l₂.receiveQueue.queue[(0 : FrameID)]? = none
    rw [hrq]
    exact hmissing
  · show l₂.processed = []
    rw [hproc, hcalls, h₁.receiver.2, h.processed]
    rfl

/-- The first packet is lost, and `n` more are sent, delivered and acknowledged. -/
def overrun (n : ℕ) : List Action := sendOne ++ [.drop 0] ++ (List.replicate n round).flatten

theorem stuck_overrun {n : ℕ} (hn : n < 2 ^ 16) : Stuck (n + 1) (run step {} (overrun n)) := by
  induction n with
  | zero => simpa [overrun] using stuck_first
  | succ n ih =>
      have hsplit : overrun (n + 1) = overrun n ++ round := by
        simp [overrun, List.replicate_succ']
      rw [hsplit, run_append]
      exact (ih (by omega)).round (by omega) hn

/-- **The window does not bound the span.**  After half a turn of later packets, a frame is
transmitted and not processed half a turn ahead of the frame expected next. -/
theorem overrun_half_turn :
    ∃ i, (run step {} (overrun (2 ^ 15))).processed.length ≤ i ∧
      i < (run step {} (overrun (2 ^ 15))).sent.length ∧
      ¬ i - (run step {} (overrun (2 ^ 15))).processed.length < 2 ^ 15 := by
  have h := stuck_overrun (n := 2 ^ 15) (by norm_num)
  refine ⟨2 ^ 15, ?_, ?_, ?_⟩
  · rw [h.processed]
    exact Nat.zero_le _
  · rw [h.sent]
    omega
  · rw [h.processed]
    simp

end Link
end MrUDP
