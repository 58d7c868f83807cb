import MrUDP.Lib.Run
import MrUDP.Receiver.ReceiveQueue

/-!
# The receive queue on arbitrary input

Whatever bytes arrive, the receive queue passes the frames on in the order of their identifiers,
without a gap, and buffers only frames that come at most half a turn after the expected one.  So no
frame is left behind in the buffer to be mistaken for a new one a turn later.

## Main definitions

* `ReceiveQueue.Sequenced`: the invariant, with the frames passed on so far.
* `ReceiveQueue.Run`: a queue, and the frames it has passed on.
* `ReceiveQueue.sequencing`: what holds after any packets.
-/

namespace MrUDP
open Std (ExtTreeMap LawfulEqCmp)
open Machine

/-- What the wrapping order accepts is at most half a turn ahead. -/
theorem toNat_sub_le_of_idGreaterThan {k expected : FrameID} (h : idGreaterThan k expected = true) :
    (k - expected).toNat ≤ 2 ^ 15 := by
  have hk := k.isLt
  have hexpected := expected.isLt
  have htop : (topBit 16).toNat = 2 ^ 15 := rfl
  rw [BitVec.toNat_sub]
  by_cases hlt : expected.toNat < k.toNat
  · simp only [idGreaterThan, htop, hlt, decide_true, if_true, Bool.not_true] at h
    split at h
    · cases h
    · omega
  · simp only [idGreaterThan, htop, hlt, decide_false, Bool.false_eq_true, if_false,
      Bool.not_false] at h
    split at h
    · omega
    · cases h

/-- What is ahead comes one nearer when one is passed on. -/
theorem toNat_sub_add_one {k expected : FrameID} (h : k ≠ expected) :
    (k - (expected + 1)).toNat + 1 = (k - expected).toNat := by
  have hne : k.toNat ≠ expected.toNat := fun heq => h (BitVec.eq_of_toNat_eq heq)
  have hk := k.isLt
  have hexpected := expected.isLt
  have hone : (1 : FrameID).toNat = 1 := rfl
  simp only [BitVec.toNat_sub, BitVec.toNat_add, hone]
  omega

namespace ReceiveQueue

/-- The frames that were passed on are numbered from 0 on; a frame in the buffer is there under its
own identifier, which is at most half a turn ahead. -/
structure Sequenced (calls : List Visited) (q : ReceiveQueue) : Prop where
  expected : q.expectedID = serial 16 calls.length
  ids : ∀ i v, calls[i]? = some v → v.1.id = serial 16 i
  entry : ∀ k f, q.queue[k]? = some f → f.id = k ∧ (k - q.expectedID).toNat ≤ 2 ^ 15

variable {calls : List Visited} {q : ReceiveQueue}

theorem sequenced_empty : Sequenced [] {} where
  expected := rfl
  ids := by simp
  entry := by simp

/-- The expected frame is passed on, and is no longer in the buffer. -/
theorem Sequenced.pass (h : Sequenced calls q) {v : Visited} (hid : v.1.id = q.expectedID)
    {queue : ExtTreeMap FrameID Frame}
    (hqueue : ∀ k f, queue[k]? = some f → k ≠ q.expectedID ∧ q.queue[k]? = some f) :
    Sequenced (calls ++ [v]) ⟨q.expectedID + 1, queue⟩ where
  expected := by
    rw [h.expected, serial_add_one, List.length_append, List.length_singleton]
  ids := by
    intro i w hi
    rw [List.getElem?_append] at hi
    split at hi
    · exact h.ids i w hi
    next hlength =>
      rw [List.getElem?_singleton] at hi
      split at hi
      next hzero =>
        obtain rfl := Option.some.inj hi
        rw [hid, h.expected, show i = calls.length by omega]
      · cases hi
  entry := by
    intro k f hk
    obtain ⟨hne, hk⟩ := hqueue k f hk
    obtain ⟨hf, hahead⟩ := h.entry k f hk
    have hnearer := toNat_sub_add_one hne
    exact ⟨hf, by dsimp only; omega⟩

/-- One round of `processQueue`. -/
theorem Sequenced.processNext (h : Sequenced calls q) {frame : Frame} {q' : ReceiveQueue}
    (hnext : q.processNext = some (frame, q')) : Sequenced (calls ++ [(frame, [])]) q' := by
  obtain ⟨hget, rfl⟩ := processNext_eq_some.mp hnext
  refine h.pass (h.entry _ _ hget).1 fun k f hk => ?_
  simp only [ExtTreeMap.getElem?_erase, LawfulEqCmp.compare_eq_iff_eq] at hk
  split at hk
  · cases hk
  next hne => exact ⟨fun heq => hne heq.symm, hk⟩

/-- A frame is passed on with all that waited for it, buffered, or discarded. -/
theorem Sequenced.onFrame (h : Sequenced calls q) (hset : q.queue[q.expectedID]? = none)
    (v : Visited) :
    Sequenced (calls ++ (onFrame q v).1) (onFrame q v).2 ∧
      (onFrame q v).2.queue[(onFrame q v).2.expectedID]? = none := by
  rw [ReceiveQueue.onFrame]
  split
  next hid =>
    have hpass : Sequenced (calls ++ [v]) { q with expectedID := q.expectedID + 1 } := by
      refine h.pass hid fun k f hk => ⟨?_, hk⟩
      rintro rfl
      rw [hset] at hk
      cases hk
    obtain ⟨hdrained, hsettled⟩ := processQueue_induction Sequenced
      (fun calls q frame q' hq hnext => hq.processNext hnext) _ hpass
    rw [List.append_assoc, List.singleton_append] at hdrained
    exact ⟨hdrained, hsettled⟩
  next hid =>
    split
    next hgreater =>
      have hget : ∀ k f, (q.enqueue v.1).queue[k]? = some f →
          (k = v.1.id ∧ f = v.1) ∨ q.queue[k]? = some f := by
        intro k f hk
        rw [enqueue, ExtTreeMap.getElem?_insertIfNew] at hk
        split at hk
        next hc =>
          exact .inl ⟨(LawfulEqCmp.compare_eq_iff_eq.mp hc.1).symm, (Option.some.inj hk).symm⟩
        · exact .inr hk
      rw [List.append_nil]
      refine ⟨⟨h.expected, h.ids, ?_⟩, ?_⟩
      · intro k f hk
        rcases hget k f hk with ⟨rfl, rfl⟩ | hk
        · exact ⟨rfl, toNat_sub_le_of_idGreaterThan hgreater⟩
        · exact h.entry k f hk
      · refine Option.eq_none_iff_forall_ne_some.mpr fun f hf => ?_
        rcases hget _ f hf with ⟨heq, _⟩ | hk
        · exact hid heq.symm
        · exact absurd (hset.symm.trans hk) (by simp)
    · rw [List.append_nil]
      exact ⟨h, hset⟩

theorem Sequenced.onFrames (h : Sequenced calls q) (hset : q.queue[q.expectedID]? = none)
    (vs : List Visited) :
    Sequenced (calls ++ (onFrames vs q).1) (onFrames vs q).2 ∧
      (onFrames vs q).2.queue[(onFrames vs q).2.expectedID]? = none := by
  induction vs generalizing calls q with
  | nil => exact ⟨by simpa [ReceiveQueue.onFrames] using h, hset⟩
  | cons v vs ih =>
      obtain ⟨hv, hvset⟩ := h.onFrame hset v
      have hvs := ih hv hvset
      rw [List.append_assoc] at hvs
      exact hvs

theorem Sequenced.ahead (h : Sequenced calls q) (hset : q.queue[q.expectedID]? = none)
    {k : FrameID} {f : Frame} (hk : q.queue[k]? = some f) :
    1 ≤ (k - q.expectedID).toNat ∧ (k - q.expectedID).toNat ≤ 2 ^ 15 := by
  have hne : k ≠ q.expectedID := by
    rintro rfl
    rw [hset] at hk
    cases hk
  have hnearer := toNat_sub_add_one hne
  exact ⟨by omega, (h.entry k f hk).2⟩

/-- The buffer holds at most half a turn: its keys are at different distances from the expected
identifier. -/
theorem Sequenced.size_le (h : Sequenced calls q) (hset : q.queue[q.expectedID]? = none) :
    q.queue.size ≤ 2 ^ 15 := by
  have hnodup : (q.queue.keys.map fun k => (k - q.expectedID).toNat).Nodup := by
    refine List.Nodup.map ?_ ExtTreeMap.nodup_keys
    intro k k' heq
    simpa using BitVec.eq_of_toNat_eq heq
  have hsub : (q.queue.keys.map fun k => (k - q.expectedID).toNat) ⊆ List.range' 1 (2 ^ 15) := by
    intro d hd
    obtain ⟨k, hk, rfl⟩ := List.mem_map.mp hd
    rw [ExtTreeMap.mem_keys] at hk
    have hahead := h.ahead hset (ExtTreeMap.getElem?_eq_some_getElem hk)
    rw [List.mem_range'_1]
    omega
  simpa [ExtTreeMap.length_keys] using (hnodup.subperm hsub).length_le

/-! ## Runs -/

/-- A receive queue, and the frames it has passed to the processor. -/
structure Run where
  queue : ReceiveQueue := {}
  processed : List Visited := []

/-- A packet is received. -/
def Run.step (r : Run) (packet : Packet) : Run :=
  ⟨(r.queue.onReceive packet).2, r.processed ++ (r.queue.onReceive packet).1⟩

/-- **The receive queue on arbitrary input.**  After any packets the expected frame is not in the
buffer; a frame in the buffer is there under its own identifier, from one to half a turn ahead; the
buffer holds at most half a turn; and what was passed on is numbered 0, 1, 2, … -/
theorem sequencing (packets : List Packet) :
    let r := run Run.step {} packets
    r.queue.expectedID ∉ r.queue.queue ∧
      (∀ k f, r.queue.queue[k]? = some f →
        f.id = k ∧ 1 ≤ (k - r.queue.expectedID).toNat ∧
          (k - r.queue.expectedID).toNat ≤ 2 ^ 15) ∧
      r.queue.queue.size ≤ 2 ^ 15 ∧
      ∀ i v, r.processed[i]? = some v → v.1.id = serial 16 i := by
  intro r
  obtain ⟨hr, hset⟩ : Sequenced r.processed r.queue ∧
      r.queue.queue[r.queue.expectedID]? = none :=
    run_invariant_of_step
      (fun r : Run => Sequenced r.processed r.queue ∧
        r.queue.queue[r.queue.expectedID]? = none)
      (fun r packet h => h.1.onFrames h.2 packet.visits) ⟨sequenced_empty, by simp⟩ packets
  exact ⟨by simpa using hset, fun k f hk => ⟨(hr.entry k f hk).1, hr.ahead hset hk⟩,
    hr.size_le hset, hr.ids⟩

end ReceiveQueue
end MrUDP
