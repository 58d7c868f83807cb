import MrUDP.Stream.Traffic

/-!
# The compressed stream

Messages enqueued in the mode `streamCompressed` collect in the side buffer, become a
block when the queue is next dequeued with no packet waiting, and are cut over packets.
The receiver passes on every one of them once, with its bytes and its boundaries, in
order, whatever the sizes, the levels and the moments of the dequeues.

The side buffer must stay below `2 ^ 31` bytes: the receiver's size is an `int`.

## Main definitions

* `Traffic.Compressed`: the condition on a call.
* `Traffic.Streams`: the invariant.
* `compressed_round_trip`: every run.
-/

namespace MrUDP
open Machine

namespace Traffic

/-- Only compressed messages are enqueued, and what is pending stays below `2 ^ 31`. -/
def Compressed (t : Traffic) : Op → Prop
  | .enqueue _ _ mode => mode = .streamCompressed
  | .dequeue _ => t.queue.compressionBuffer.length < 2 ^ 31

instance (t : Traffic) : ∀ op, Decidable (t.Compressed op)
  | .enqueue _ _ mode => inferInstanceAs (Decidable (mode = .streamCompressed))
  | .dequeue _ => inferInstanceAs (Decidable (_ < _))

/-- `Connection::receive` for one message. -/
def delivery (m : FrameTypeID × Bytes) : ReceiverCall := .receive m.2 .reliable

/-- The generated frames carry the messages `sent`, and the side buffer the others. -/
structure Streams (z : Zlib) (t : Traffic) (sent pending : List (FrameTypeID × Bytes)) :
    Prop where
  wf : t.WF
  enqueued : t.enqueued = sent ++ pending
  buffer : t.queue.compressionBuffer = subframes pending
  calls : frameCalls z [] t.queue.generated = (sent.map delivery, [])
  asserts : Asserts z [] t.queue.generated

variable {z : Zlib} {t : Traffic} {sent pending : List (FrameTypeID × Bytes)}

theorem Streams.init : Streams z {} [] [] where
  wf := WF.init
  enqueued := rfl
  buffer := rfl
  calls := rfl
  asserts := trivial

/-- A compressed message joins the side buffer and generates nothing. -/
theorem WF.join (h : t.WF) (hbuffer : t.queue.compressionBuffer = subframes pending)
    (z : Zlib) (type : FrameTypeID) (data : Bytes) :
    (t.step z (.enqueue type data .streamCompressed)).queue.compressionBuffer =
        subframes (pending ++ [(type, data)]) ∧
      (t.step z (.enqueue type data .streamCompressed)).queue.generated = t.queue.generated ∧
      (t.step z (.enqueue type data .streamCompressed)).enqueued =
        t.enqueued ++ [(type, data)] := by
  have hadm : SendQueue.Admissible data .streamCompressed := .inr (.inr rfl)
  obtain ⟨fs, henq⟩ := (h.step z (.enqueue type data .streamCompressed)).2 hadm
  have hfs : fs = [] := by simpa using henq.frames
  simp only [Traffic.step, if_pos hadm]
  refine ⟨?_, ?_, trivial⟩
  · rw [henq.buffer, if_pos rfl, hbuffer, subframes_append]
    simp [subframes]
  · rw [henq.generated, hfs, List.append_nil]

/-- A dequeue generates a block with everything pending, or nothing. -/
theorem WF.release (h : t.WF) (hz : z.Lossless)
    (hbuffer : t.queue.compressionBuffer = subframes pending)
    (hsmall : t.queue.compressionBuffer.length < 2 ^ 31) (level : ℤ) :
    ∃ fs done pending', pending = done ++ pending' ∧
      (t.step z (.dequeue level)).queue.generated = t.queue.generated ++ fs ∧
      (t.step z (.dequeue level)).queue.compressionBuffer = subframes pending' ∧
      frameCalls z [] fs = (done.map delivery, []) ∧ Asserts z [] fs := by
  obtain ⟨fs, hdeq⟩ := (h.step z (.dequeue level)).2
  have hframes := hdeq.frames
  by_cases hc : t.queue.queue = [] ∧ t.queue.compressionBuffer ≠ []
  · rw [if_pos hc] at hframes
    obtain ⟨hempty, hcut⟩ := hframes
    obtain ⟨hcalls, hasserts⟩ := frameCalls_block hz level hsmall hcut
    rw [hbuffer] at hsmall
    rw [hbuffer, processCompressedSubframes_subframes hsmall, List.map_map] at hcalls
    exact ⟨fs, pending, [], (List.append_nil _).symm, hdeq.generated, hempty, hcalls, hasserts⟩
  · rw [if_neg hc] at hframes
    obtain ⟨hsame, rfl⟩ := hframes
    exact ⟨[], [], pending, rfl, hdeq.generated, hsame.trans hbuffer, rfl, trivial⟩

/-- **The step lemma of the compressed stream.** -/
theorem Streams.step (hz : z.Lossless) (h : Streams z t sent pending) {op : Op}
    (hop : t.Compressed op) : ∃ sent' pending', Streams z (t.step z op) sent' pending' := by
  obtain ⟨hwf, -⟩ := h.wf.step z op
  cases op with
  | enqueue type data mode =>
      obtain rfl : mode = .streamCompressed := hop
      obtain ⟨hbuffer, hgen, henqueued⟩ := h.wf.join h.buffer z type data
      refine ⟨sent, pending ++ [(type, data)], hwf, ?_, hbuffer, ?_, ?_⟩
      · rw [henqueued, h.enqueued, List.append_assoc]
      · rw [hgen]
        exact h.calls
      · rw [hgen]
        exact h.asserts
  | dequeue level =>
      obtain ⟨fs, done, pending', rfl, hgen, hbuffer, hcalls, hasserts⟩ :=
        h.wf.release hz h.buffer hop level
      refine ⟨sent ++ done, pending', hwf, ?_, hbuffer, ?_, ?_⟩
      · rw [List.append_assoc]
        exact h.enqueued
      · rw [hgen, frameCalls_append, h.calls, hcalls, List.map_append]
      · rw [hgen, asserts_append, h.calls]
        exact ⟨h.asserts, hasserts⟩

/-- **The compressed stream round trip.**  In every run of compressed messages the calls on
the frames taken out so far are deliveries of the first messages, each once and as it was
enqueued; all of them once the queue is empty.  The reassembly buffer is empty whenever
the last packet of a block has been taken out, and the assertion holds at every frame. -/
theorem compressed_round_trip (z : Zlib) (hz : z.Lossless) (ops : List Op)
    (h : Along (step z) Compressed {} ops) :
    ((run (step z) {} ops).calls z).1 <+: (run (step z) {} ops).enqueued.map delivery ∧
      ((run (step z) {} ops).queue.empty = true →
        ((run (step z) {} ops).calls z).1 = (run (step z) {} ops).enqueued.map delivery) ∧
      ((run (step z) {} ops).queue.queue = [] → ((run (step z) {} ops).calls z).2 = []) ∧
      Asserts z [] (run (step z) {} ops).frames := by
  obtain ⟨sent, pending, hinv⟩ : ∃ sent pending,
      Streams z (run (step z) {} ops) sent pending := by
    refine run_invariant (fun t => ∃ sent pending, Streams z t sent pending) ?_
      ⟨[], [], Streams.init⟩ h
    rintro t op ⟨sent, pending, ht⟩ hop
    exact ht.step hz hop
  generalize run (step z) {} ops = t at hinv
  have hcalls := hinv.calls
  have hasserts := hinv.asserts
  rw [hinv.wf.generated_eq, frameCalls_append] at hcalls
  rw [hinv.wf.generated_eq, asserts_append] at hasserts
  have hprefix : (t.calls z).1 <+: sent.map delivery :=
    ⟨_, congrArg Prod.fst hcalls⟩
  have hdone : t.queue.queue = [] → t.calls z = (sent.map delivery, []) := by
    intro hq
    rw [calls, hinv.wf.frames_eq hq]
    exact hinv.calls
  refine ⟨?_, ?_, fun hq => by rw [hdone hq], hasserts.1⟩
  · rw [hinv.enqueued, List.map_append]
    exact hprefix.trans (List.prefix_append _ _)
  · intro hempty
    obtain ⟨hq, hb⟩ : t.queue.queue = [] ∧ t.queue.compressionBuffer = [] := by
      simpa [SendQueue.empty] using hempty
    have hpending := eq_nil_of_subframes (hb.symm.trans hinv.buffer)
    rw [hdone hq, hinv.enqueued, hpending, List.append_nil]

/-- A zlib whose compressed form is the source itself. -/
def copying : Zlib where
  compress2 source room _ := if source.length ≤ room then some source else none
  uncompress source room := source.take room

theorem copying_lossless : copying.Lossless where
  within := by
    intro source room level dest h
    obtain ⟨hle, rfl⟩ : source.length ≤ room ∧ source = dest := by simpa [copying] using h
    exact hle
  inverse := by
    intro source room level dest h
    obtain ⟨-, rfl⟩ : source.length ≤ room ∧ source = dest := by simpa [copying] using h
    exact List.take_length

/-- Three messages, one of them empty, with dequeues in between.  The first block is long
enough to be compressed, the second is not. -/
def threeMessages : List Op :=
  [.enqueue FrameTypeID.data (List.replicate 60 7) .streamCompressed,
    .enqueue FrameTypeID.data [] .streamCompressed, .dequeue 6,
    .enqueue FrameTypeID.data [3] .streamCompressed, .dequeue 6, .dequeue 6]

theorem compressed_round_trip_threeMessages :
    ((run (step copying) {} threeMessages).calls copying).1 =
      [.receive (List.replicate 60 7) .reliable, .receive [] .reliable,
        .receive [3] .reliable] :=
  (compressed_round_trip copying copying_lossless threeMessages (by decide +kernel)).2.1
    (by decide +kernel)

end Traffic
end MrUDP
