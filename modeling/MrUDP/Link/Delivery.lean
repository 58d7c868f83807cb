import MrUDP.Link.Link

/-!
# Reliable delivery

Frames reach the receiver's processor in the order in which the send queue generated
them, without a gap or a duplicate, and no generated frame is ever lost, as long as
two conditions hold: no packet identifier is given out while it is in use, and no
frame arrives half a turn of the frame identifiers or more away from the one that is
expected.

## Main definitions

* `Link.InRange`: the arriving frames are less than half a turn away.
* `Link.Accounted`: where a generated frame is.
* `Link.Delivers`: the invariant.
* `processed_prefix_and_accounted`: delivery over every run.
-/

namespace MrUDP
open Machine

/-- The packet holds `f` as the frame with index `i`. -/
def Packet.Contains (p : Packet) (i : ℕ) (f : Frame) : Prop :=
  p.base ≤ i ∧ p.frames[i - p.base]? = some f

/-- A packet carrying a stretch of a numbered sequence contains its frames. -/
theorem Packet.Carries.contains {g : List Frame} {p : Packet} {n i : ℕ} {f : Frame}
    (h : p.Carries g n) (hnum : Numbered g) (hlo : p.base ≤ i) (hhi : i < p.base + n)
    (hf : g[i]? = some f) : p.Contains i f := by
  refine ⟨hlo, ?_⟩
  rw [h.frames_eq hnum, List.getElem?_take, if_pos (by omega), List.getElem?_drop,
    Nat.add_sub_cancel' hlo]
  exact hf

/-- Every frame behind the start of a chain is in one of its packets. -/
theorem SendQueue.Chain.contains {g : List Frame} (hnum : Numbered g) {i : ℕ} {f : Frame}
    (hf : g[i]? = some f) {b : ℕ} {ps : List Packet} (h : Chain g b ps) (hb : b ≤ i) :
    ∃ p ∈ ps, p.Contains i f := by
  induction ps generalizing b with
  | nil =>
      have hlen : b = g.length := h
      have := (List.getElem?_eq_some_iff.mp hf).1
      omega
  | cons p ps ih =>
      obtain ⟨hbase, n, hc, hrest⟩ := h
      by_cases hi : i < b + n
      · exact ⟨p, by simp, hc.contains hnum (by omega) (by omega) hf⟩
      · obtain ⟨p', hp', hcontains⟩ := ih hrest (by omega)
        exact ⟨p', List.mem_cons_of_mem _ hp', hcontains⟩

namespace Link

/-- Every frame of an arriving data packet is less than half a turn away from the
frame expected next. -/
def InRange (l : Link) (a : Action) : Prop :=
  ∀ p ∈ l.arriving a, p.header.type = TypeID.dataReliable → ∀ j < p.frames.length,
    p.base + j < l.processed.length + 2 ^ 15 ∧ l.processed.length < p.base + j + 2 ^ 15

instance (l : Link) (a : Action) : Decidable (l.InRange a) :=
  inferInstanceAs (Decidable (∀ p ∈ l.arriving a, _ → _))

/-- A frame is in the send queue, in a packet of the window, buffered by the receiver,
or processed. -/
def Accounted (l : Link) (i : ℕ) (f : Frame) : Prop :=
  (∃ p ∈ l.sender.dataQueue.queue, p.Contains i f) ∨
    (∃ (k : PacketID) (retry : Retry), l.sender.retrier.window[k]? = some retry ∧
      retry.paths.front.packet.Contains i f) ∨
    l.receiveQueue.queue[f.id]? = some f ∨
    l.processed[i]? = some f

/-- The frames the receiver has processed or buffers. -/
def received (l : Link) (i : ℕ) : Prop :=
  l.receiveQueue.Got (l.processed.length + 2 ^ 15) l.processed.length i

/-- The invariant of delivery: the receive queue tracks the generated frames. -/
structure Delivers (l : Link) : Prop where
  inv : Inv l.received l
  tracks : ReceiveQueue.Tracks l.sender.dataQueue.generated (l.processed.length + 2 ^ 15)
    l.receiveQueue l.processed.length
  settled : l.receiveQueue.queue[l.receiveQueue.expectedID]? = none
  processed : l.processed = l.sender.dataQueue.generated.take l.processed.length

theorem Delivers.init : Delivers {} where
  inv := Inv.init
  tracks := by simpa using ReceiveQueue.Tracks.init []
  settled := by simp
  processed := rfl

variable {l : Link}

/-- A data packet in range advances the receive queue and leaves all its frames
processed or buffered.  A packet may be empty, and then says nothing about range. -/
theorem Delivers.advances (h : l.Delivers) {a : Action} {p : Packet}
    (ha : l.arriving a = some p) (htype : p.header.type = TypeID.dataReliable)
    (hrange : l.InRange a) :
    ∃ n', ReceiveQueue.Advances l.sender.dataQueue.generated (l.processed.length + 2 ^ 15)
        l.receiveQueue l.processed.length (l.receiveQueue.onReceive p).1
        (l.receiveQueue.onReceive p).2 n' ∧
      ∀ j < p.frames.length, (l.receiveQueue.onReceive p).2.Got
        (l.processed.length + 2 ^ 15) n' (p.base + j) := by
  obtain ⟨i, now, delayedMS, rfl, hget⟩ := arriving_eq_some ha
  have hplaced := (h.inv.flight p (List.mem_of_getElem? hget)).1 htype
  have hr := hrange p ha htype
  rcases Nat.eq_zero_or_pos p.frames.length with hzero | hpos
  · have hvisits : p.visits = [] := by
      simpa [Packet.frames] using hzero
    have hrun : l.receiveQueue.onReceive p = ([], l.receiveQueue) := by
      simp [ReceiveQueue.onReceive, hvisits, ReceiveQueue.onFrames]
    rw [hrun]
    exact ⟨_, ⟨le_rfl, h.tracks, h.settled, by simp, fun j hj => hj⟩, by omega⟩
  · have hfirst := hr 0 hpos
    have hlast := hr (p.frames.length - 1) (by omega)
    exact h.tracks.onReceive h.settled h.inv.wf.numbered hplaced.carries (by omega) (by omega)

/-- **The step lemma of delivery.** -/
theorem Delivers.step (h : l.Delivers) {a : Action} (hids : l.KeepsIDs a)
    (hrange : l.InRange a) : (l.step a).Delivers := by
  obtain ⟨fs, hgen⟩ := h.inv.generated_step a
  have hle := h.tracks.le_length
  by_cases hdata : ∃ p, l.arriving a = some p ∧ p.header.type = TypeID.dataReliable
  · obtain ⟨p, ha, htype⟩ := hdata
    obtain ⟨hqueue, hproc⟩ := receiver_of_arriving ha htype
    obtain ⟨n', hadv, hgot⟩ := h.advances ha htype hrange
    have hn := hadv.le
    have hn' := hadv.tracks.le_length
    have htake : (l.step a).processed = l.sender.dataQueue.generated.take n' := by
      rw [hproc, hadv.took, ← h.processed]
    have hlen : (l.step a).processed.length = n' := by
      rw [htake, List.length_take]
      omega
    -- The bound on what is buffered moves up with the expected frame.
    have hraise : ∀ i, (l.receiveQueue.onReceive p).2.Got (l.processed.length + 2 ^ 15) n' i →
        (l.step a).received i := by
      intro i hi
      simp only [received, hlen, hqueue]
      exact hi.imp id fun hb => ⟨by omega, hb.2⟩
    refine ⟨h.inv.step hids (fun i _ hi => hraise i (hadv.got i hi)) ?_ ?_, ?_, ?_, ?_⟩
    · intro p' hp' _ j hj
      rw [ha] at hp'
      cases hp'
      exact hraise _ (hgot j hj)
    · intro hnone
      rw [ha] at hnone
      cases hnone
    · rw [hgen, hlen, hqueue]
      exact hadv.tracks.raise.mono fs
    · rw [hqueue]
      exact hadv.settled
    · rw [hlen, hgen, List.take_append_of_le_length hn']
      exact htake
  · have hnot : ∀ p, l.arriving a = some p → p.header.type ≠ TypeID.dataReliable :=
      fun p hp ht => hdata ⟨p, hp, ht⟩
    obtain ⟨hqueue, hproc⟩ := receiver_of_not_arriving hnot
    have hsame : (l.step a).received = l.received := by
      funext i
      simp only [received, hqueue, hproc]
    refine ⟨h.inv.step hids ?_ ?_ fun _ => hsame, ?_, ?_, ?_⟩
    · intro i _ hi
      rw [hsame]
      exact hi
    · intro p hp ht
      exact absurd ht (hnot p hp)
    · rw [hgen, hqueue, hproc]
      exact h.tracks.mono fs
    · rw [hqueue]
      exact h.settled
    · rw [hproc, hgen, List.take_append_of_le_length hle]
      exact h.processed

/-- Where a generated frame is, read off the invariant. -/
theorem Delivers.accounted (h : l.Delivers) {i : ℕ} {f : Frame}
    (hf : l.sender.dataQueue.generated[i]? = some f) : l.Accounted i f := by
  have hnum := h.inv.wf.numbered
  by_cases hi : i < l.sent.length
  · rcases h.inv.covered i hi with ⟨k, p, ⟨serial, hw⟩, htype, hlo, hhi⟩ | hgot
    · -- In a packet of the window.
      obtain ⟨p', hp', _, hplaced⟩ := h.inv.window _ _ hw
      cases hp'
      obtain ⟨retry, hretry, hpaths, _⟩ := (Retrier.outstanding_eq_some _).mp hw
      refine Or.inr (Or.inl ⟨k, retry, hretry, ?_⟩)
      rw [hpaths]
      exact (hplaced htype).carries.contains hnum hlo hhi hf
    · by_cases hn : i < l.processed.length
      · -- Processed.
        refine Or.inr (Or.inr (Or.inr ?_))
        rw [h.processed, List.getElem?_take, if_pos hn]
        exact hf
      · -- Buffered, and the entry under its identifier can only be this frame.
        obtain ⟨hhi, hsome⟩ := hgot.resolve_left hn
        obtain ⟨f', hf'⟩ := Option.isSome_iff_exists.mp hsome
        obtain ⟨j, hserial, hnj, hjh, hg⟩ := h.tracks.entry _ _ hf'
        have hij : i = j := serial_inj hserial (by omega) (by omega)
        subst hij
        rw [hf] at hg
        cases hg
        refine Or.inr (Or.inr (Or.inl ?_))
        rw [hnum.id i f hf]
        exact hf'
  · exact Or.inl (h.inv.wf.chain.contains hnum hf (by omega))

/-- **Reliable delivery.**  In every run that gives out no packet identifier in use and
in which every arriving frame is in range, the frames passed to the processor are a
prefix of the frames generated, and every generated frame is waiting in the send queue,
outstanding, buffered or processed. -/
theorem processed_prefix_and_accounted (as : List Action)
    (h : Along step (fun l a => l.KeepsIDs a ∧ l.InRange a) {} as) :
    (run step {} as).processed <+: (run step {} as).sender.dataQueue.generated ∧
      ∀ i f, (run step {} as).sender.dataQueue.generated[i]? = some f →
        (run step {} as).Accounted i f := by
  have hinv : (run step {} as).Delivers :=
    run_invariant Delivers (fun l a hl hok => hl.step hok.1 hok.2) Delivers.init h
  refine ⟨?_, fun i f hf => hinv.accounted hf⟩
  rw [hinv.processed]
  exact List.take_prefix _ _

/-- A connection without compression, at time zero. -/
def plainEnv : Env where
  zlib := ⟨fun _ _ _ => none, fun _ _ => []⟩
  canSend := true
  options := getDefaultConnectionOptions
  now := 0

/-- Two messages; the first packet is lost and sent again, the second arrives twice and
ahead of it, and both are acknowledged. -/
def lossyRun : List Action :=
  [.enqueue FrameTypeID.data [7] .none, .enqueue FrameTypeID.data [8, 9] .none,
    .transmit plainEnv, .transmit plainEnv, .drop 0, .duplicate 0, .deliver 0 1 0,
    .retry 2 0, .deliver 0 3 0, .deliver 1 4 0, .deliver 0 5 0, .deliver 0 6 0]

theorem processed_prefix_and_accounted_lossyRun :
    ((run step {} lossyRun).processed.map Frame.data = [[7], [8, 9]]) ∧
      (run step {} lossyRun).processed <+:
        (run step {} lossyRun).sender.dataQueue.generated ∧
      ∀ i f, (run step {} lossyRun).sender.dataQueue.generated[i]? = some f →
        (run step {} lossyRun).Accounted i f :=
  ⟨by decide +kernel, processed_prefix_and_accounted lossyRun (by decide +kernel)⟩

end Link
end MrUDP
