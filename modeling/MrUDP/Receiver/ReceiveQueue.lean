import MrUDP.Packet

/-!
# The receive queue

`mrudp/receiver/ReceiveQueue.cpp` puts frames back in order.  A frame with the
expected identifier is processed at once and releases the buffered frames behind
it, a later one is buffered under its identifier, an earlier one is discarded.

The processor never calls back into the queue, so every function here returns
the frames it passes to the processor, in order, beside the new queue.  A frame
processed in place comes with the memory behind it in the packet; a buffered
frame is a copy of its header and data and nothing else.

The second half relates the 16-bit queue to the unbounded sequence of frames
behind it.  `Tracks g hi q n` says that `q` has processed the first `n` frames of
`g` and buffers only frames of `g` below `hi`, each under its own identifier.
`Tracks.onReceive` is the step lemma for a whole packet.
-/

namespace MrUDP
open Std (ExtTreeMap LawfulEqCmp)

/-- `ReceiveQueue`. -/
structure ReceiveQueue where
  expectedID : FrameID := 0
  queue : ExtTreeMap FrameID Frame := ∅

namespace ReceiveQueue

/-- `ReceiveQueue::processNext`: take the expected frame out of the buffer. -/
def processNext (q : ReceiveQueue) : Option (Frame × ReceiveQueue) :=
  match q.queue[q.expectedID]? with
  | none => none
  | some frame => some (frame, ⟨q.expectedID + 1, q.queue.erase q.expectedID⟩)

/-- The loop of `ReceiveQueue::processQueue`; every round removes an entry. -/
def processQueueLoop : ℕ → ReceiveQueue → List Visited × ReceiveQueue
  | 0, q => ([], q)
  | fuel + 1, q =>
      match q.processNext with
      | none => ([], q)
      | some (frame, q) =>
          let (calls, q) := processQueueLoop fuel q
          ((frame, []) :: calls, q)

/-- `ReceiveQueue::processQueue`. -/
def processQueue (q : ReceiveQueue) : List Visited × ReceiveQueue :=
  processQueueLoop q.queue.size q

/-- `ReceiveQueue::enqueue`: `emplace` keeps an entry that is already there. -/
def enqueue (q : ReceiveQueue) (frame : Frame) : ReceiveQueue :=
  { q with queue := q.queue.insertIfNew frame.id frame }

/-- The body of the loop of `ReceiveQueue::onReceive` on one frame. -/
def onFrame (q : ReceiveQueue) (v : Visited) : List Visited × ReceiveQueue :=
  if v.1.id = q.expectedID then
    let (calls, q) := processQueue { q with expectedID := q.expectedID + 1 }
    (v :: calls, q)
  else if idGreaterThan v.1.id q.expectedID then
    ([], q.enqueue v.1)
  else
    ([], q)

/-- The loop of `ReceiveQueue::onReceive` on the frames it visits. -/
def onFrames : List Visited → ReceiveQueue → List Visited × ReceiveQueue
  | [], q => ([], q)
  | v :: vs, q =>
      let (calls, q) := onFrame q v
      let (calls', q) := onFrames vs q
      (calls ++ calls', q)

/-- `ReceiveQueue::onReceive`. -/
def onReceive (q : ReceiveQueue) (packet : Packet) : List Visited × ReceiveQueue :=
  onFrames packet.visits q

/-! ## The loop of `processQueue` runs to its exit condition -/

theorem processNext_eq_none {q : ReceiveQueue} :
    q.processNext = none ↔ q.queue[q.expectedID]? = none := by
  unfold processNext
  cases q.queue[q.expectedID]? <;> simp

theorem processNext_eq_some {q q' : ReceiveQueue} {frame : Frame} :
    q.processNext = some (frame, q') ↔
      q.queue[q.expectedID]? = some frame ∧
        q' = ⟨q.expectedID + 1, q.queue.erase q.expectedID⟩ := by
  unfold processNext
  cases q.queue[q.expectedID]? with
  | none => simp
  | some f => simp [eq_comm]

theorem size_of_processNext {q q' : ReceiveQueue} {frame : Frame}
    (h : q.processNext = some (frame, q')) : q'.queue.size + 1 = q.queue.size := by
  obtain ⟨hget, rfl⟩ := processNext_eq_some.mp h
  have hmem : q.expectedID ∈ q.queue := by
    rw [ExtTreeMap.mem_iff_isSome_getElem?, hget]; rfl
  have hpos : q.queue.size ≠ 0 := by
    intro h0
    have : q.queue.isEmpty := by rw [ExtTreeMap.isEmpty_eq_size_beq_zero, h0]; rfl
    rw [ExtTreeMap.isEmpty_iff] at this
    rw [this] at hmem
    simp at hmem
  show (q.queue.erase q.expectedID).size + 1 = _
  rw [ExtTreeMap.size_erase, if_pos (by simpa using hmem)]
  omega

/-- **Induction along `processQueue`.**  A relation between the frames processed
so far and the queue that holds at the start and is kept by `processNext` holds
at the end, where the expected frame is no longer buffered. -/
theorem processQueue_induction (P : List Visited → ReceiveQueue → Prop)
    (hstep : ∀ calls q frame q', P calls q → q.processNext = some (frame, q') →
      P (calls ++ [(frame, [])]) q') {q : ReceiveQueue} (calls : List Visited)
    (h0 : P calls q) :
    P (calls ++ q.processQueue.1) q.processQueue.2 ∧
      q.processQueue.2.queue[q.processQueue.2.expectedID]? = none := by
  suffices H : ∀ fuel q calls, P calls q → q.queue.size ≤ fuel →
      P (calls ++ (processQueueLoop fuel q).1) (processQueueLoop fuel q).2 ∧
        (processQueueLoop fuel q).2.queue[(processQueueLoop fuel q).2.expectedID]? = none from
    H _ q calls h0 le_rfl
  intro fuel
  induction fuel with
  | zero =>
      intro q calls h hsize
      have hempty : q.queue = ∅ := by
        rw [← ExtTreeMap.isEmpty_iff, ExtTreeMap.isEmpty_eq_size_beq_zero]
        simpa using hsize
      exact ⟨by simpa [processQueueLoop] using h, by simp [processQueueLoop, hempty]⟩
  | succ fuel ih =>
      intro q calls h hsize
      cases hn : q.processNext with
      | none =>
          simp only [processQueueLoop, hn, List.append_nil]
          exact ⟨h, processNext_eq_none.mp hn⟩
      | some r =>
          obtain ⟨frame, q'⟩ := r
          have hsz := size_of_processNext hn
          have := ih q' _ (hstep _ _ _ _ h hn) (by omega)
          simpa [processQueueLoop, hn] using this

/-! ## Tracking an unbounded sequence of frames -/

/-- `q` has processed the first `n` frames of `g`, and buffers only frames of `g`
from `n` on and below `hi`, each under its own identifier.  The bound `hi` is at
most half a turn ahead, so the identifiers are unambiguous. -/
structure Tracks (g : List Frame) (hi : ℕ) (q : ReceiveQueue) (n : ℕ) : Prop where
  expected : q.expectedID = serial 16 n
  le_length : n ≤ g.length
  le_hi : n ≤ hi
  hi_le : hi ≤ n + 2 ^ 15
  entry : ∀ k f, q.queue[k]? = some f →
    ∃ i, k = serial 16 i ∧ n ≤ i ∧ i < hi ∧ g[i]? = some f

/-- The frame with index `i` has been processed or is buffered. -/
def Got (hi : ℕ) (q : ReceiveQueue) (n i : ℕ) : Prop :=
  i < n ∨ (i < hi ∧ (q.queue[serial 16 i]?).isSome)

variable {g : List Frame} {hi n : ℕ} {q : ReceiveQueue}

/-- A queue that has seen nothing tracks every sequence. -/
theorem Tracks.init (g : List Frame) : Tracks g (2 ^ 15) {} 0 where
  expected := rfl
  le_length := Nat.zero_le _
  le_hi := Nat.zero_le _
  hi_le := by omega
  entry := by intro k f h; simp at h

/-- More frames may be generated behind the tracked ones. -/
theorem Tracks.mono (h : Tracks g hi q n) (tail : List Frame) :
    Tracks (g ++ tail) hi q n where
  __ := h
  le_length := by have := h.le_length; simp; omega
  entry := by
    intro k f hk
    obtain ⟨i, hki, hni, hih, hg⟩ := h.entry k f hk
    refine ⟨i, hki, hni, hih, ?_⟩
    rw [List.getElem?_append_left (List.getElem?_eq_some_iff.mp hg).1]
    exact hg

/-- The bound may move up to half a turn ahead. -/
theorem Tracks.raise (h : Tracks g hi q n) : Tracks g (n + 2 ^ 15) q n where
  __ := h
  le_hi := by omega
  hi_le := le_rfl
  entry := by
    intro k f hk
    obtain ⟨i, hki, hni, hih, hg⟩ := h.entry k f hk
    exact ⟨i, hki, hni, hih.trans_le h.hi_le, hg⟩

/-- Two indices the queue can buffer have different identifiers. -/
theorem Tracks.serial_ne (h : Tracks g hi q n) {i j : ℕ} (hi₁ : n ≤ i) (hi₂ : i < hi)
    (hj₁ : n ≤ j) (hj₂ : j < hi) (hne : i ≠ j) : serial 16 i ≠ serial 16 j := by
  intro heq
  have := h.hi_le
  exact hne (serial_inj heq (by omega) (by omega))

/-- One round of `processQueue` processes the next frame of the sequence. -/
theorem Tracks.processNext (h : Tracks g hi q n) {frame : Frame} {q' : ReceiveQueue}
    (hnext : q.processNext = some (frame, q')) :
    g[n]? = some frame ∧ Tracks g hi q' (n + 1) ∧
      ∀ i, Got hi q n i → Got hi q' (n + 1) i := by
  obtain ⟨hget, rfl⟩ := processNext_eq_some.mp hnext
  obtain ⟨i, hki, hni, hih, hg⟩ := h.entry _ _ hget
  have hhi := h.hi_le
  have hin : i = n := serial_inj (hki.symm.trans h.expected) (by omega) (by omega)
  subst hin
  have hlt : i < g.length := (List.getElem?_eq_some_iff.mp hg).1
  refine ⟨hg, ⟨?_, hlt, hih, by omega, ?_⟩, ?_⟩
  · show q.expectedID + 1 = _
    rw [h.expected, serial_add_one]
  · intro k f hk
    simp only [ExtTreeMap.getElem?_erase, LawfulEqCmp.compare_eq_iff_eq] at hk
    split at hk
    · simp at hk
    · rename_i hne
      obtain ⟨j, hkj, hnj, hjh, hgj⟩ := h.entry k f hk
      refine ⟨j, hkj, ?_, hjh, hgj⟩
      rcases eq_or_lt_of_le hnj with heq | hlt'
      · exact absurd (by rw [h.expected, hkj, heq]) hne
      · exact hlt'
  · rintro j (hj | ⟨hjh, hj⟩)
    · exact Or.inl (by omega)
    · by_cases hji : j < i + 1
      · exact Or.inl hji
      · refine Or.inr ⟨hjh, ?_⟩
        have hne := h.serial_ne (i := i) (j := j) le_rfl hih (by omega) hjh (by omega)
        simp only [ExtTreeMap.getElem?_erase, LawfulEqCmp.compare_eq_iff_eq, h.expected]
        rw [if_neg hne]
        exact hj

/-- What processing does: from `n` frames to `n'`, passing exactly the frames in
between to the processor, forgetting none that was there, and leaving the
expected frame not buffered. -/
structure Advances (g : List Frame) (hi : ℕ) (q : ReceiveQueue) (n : ℕ)
    (calls : List Visited) (q' : ReceiveQueue) (n' : ℕ) : Prop where
  le : n ≤ n'
  tracks : Tracks g hi q' n'
  settled : q'.queue[q'.expectedID]? = none
  took : g.take n' = g.take n ++ calls.map Prod.fst
  got : ∀ i, Got hi q n i → Got hi q' n' i

theorem Advances.trans {q₁ q₂ q₃ : ReceiveQueue} {n₁ n₂ n₃ : ℕ} {c₁ c₂ : List Visited}
    (h₁ : Advances g hi q₁ n₁ c₁ q₂ n₂) (h₂ : Advances g hi q₂ n₂ c₂ q₃ n₃) :
    Advances g hi q₁ n₁ (c₁ ++ c₂) q₃ n₃ where
  __ := h₂
  le := h₁.le.trans h₂.le
  took := by rw [h₂.took, h₁.took]; simp
  got := fun i hgot => h₂.got i (h₁.got i hgot)

/-- `processQueue` advances as far as the buffer reaches. -/
theorem Tracks.processQueue (h : Tracks g hi q n) :
    ∃ n', Advances g hi q n q.processQueue.1 q.processQueue.2 n' := by
  -- The invariant of the loop: what was processed so far is the stretch of `g`
  -- from `n` on, and nothing the queue had is lost.
  have key := processQueue_induction (q := q)
    (fun calls q' => ∃ n', n ≤ n' ∧ Tracks g hi q' n' ∧
      g.take n' = g.take n ++ calls.map Prod.fst ∧ ∀ i, Got hi q n i → Got hi q' n' i)
    ?step [] ⟨n, le_rfl, h, by simp, fun i hgot => hgot⟩
  · obtain ⟨⟨n', hle, htr, htook, hgot⟩, hset⟩ := key
    exact ⟨n', hle, htr, hset, by simpa using htook, hgot⟩
  case step =>
    rintro calls q₁ frame q₂ ⟨n', hle, htr, htook, hgot⟩ hnext
    obtain ⟨hframe, htr', hgot'⟩ := htr.processNext hnext
    refine ⟨n' + 1, by omega, htr', ?_, fun i hi' => hgot' i (hgot i hi')⟩
    rw [List.take_add_one, hframe, htook]
    simp

/-- The expected frame arrives: the next one is expected. -/
theorem Tracks.succ (h : Tracks g hi q n) (hset : q.queue[q.expectedID]? = none)
    (hlength : n < g.length) (hlt : n < hi) :
    Tracks g hi { q with expectedID := q.expectedID + 1 } (n + 1) := by
  have hhi := h.hi_le
  refine ⟨?_, hlength, hlt, by omega, ?_⟩
  · show q.expectedID + 1 = _
    rw [h.expected, serial_add_one]
  · intro k f hk
    obtain ⟨j, hkj, hnj, hjh, hgj⟩ := h.entry k f hk
    refine ⟨j, hkj, ?_, hjh, hgj⟩
    -- What is expected is not in the buffer.
    rcases eq_or_lt_of_le hnj with heq | hlt
    · rw [hkj, ← heq, ← h.expected] at hk
      exact absurd (hset.symm.trans hk) (by simp)
    · exact hlt

/-- A later frame is buffered, unless an equal one already is. -/
theorem Tracks.enqueue (h : Tracks g hi q n) (hset : q.queue[q.expectedID]? = none)
    {i : ℕ} {f : Frame} (hg : g[i]? = some f) (hid : f.id = serial 16 i) (hi₁ : i < hi)
    (hlt : n < i) (hne : f.id ≠ q.expectedID) :
    Advances g hi q n [] (q.enqueue f) n ∧ Got hi (q.enqueue f) n i := by
  have hget : ∀ k, (q.enqueue f).queue[k]? =
      if f.id = k ∧ f.id ∉ q.queue then some f else q.queue[k]? := by
    intro k
    simp [ReceiveQueue.enqueue, ExtTreeMap.getElem?_insertIfNew]
  refine ⟨⟨le_rfl, { h with entry := ?_ }, ?_, by simp, ?_⟩, ?_⟩
  · intro k f' hk
    rw [hget] at hk
    split at hk
    next hc =>
      refine ⟨i, ?_, by omega, hi₁, ?_⟩
      · rw [← hc.1, hid]
      · rw [hg]
        exact hk
    · exact h.entry k f' hk
  · show (q.enqueue f).queue[q.expectedID]? = none
    rw [hget, if_neg (fun hc => hne hc.1), hset]
  · rintro j (hj | ⟨hjh, hj⟩)
    · exact Or.inl hj
    · refine Or.inr ⟨hjh, ?_⟩
      rw [hget]
      split
      · rfl
      · exact hj
  · refine Or.inr ⟨hi₁, ?_⟩
    rw [hget, ← hid]
    by_cases hm : f.id ∈ q.queue <;> simp [hm]

/-- **The step lemma of the receive queue.**  A frame of the sequence less than
half a turn behind the expected one, and below the bound, is afterwards processed
or buffered; unless it is the expected frame, nothing is processed. -/
theorem Tracks.onFrame (h : Tracks g hi q n) (hset : q.queue[q.expectedID]? = none)
    {i : ℕ} {v : Visited} (hg : g[i]? = some v.1) (hid : v.1.id = serial 16 i)
    (hi₁ : i < hi) (hi₂ : n < i + 2 ^ 15) :
    ∃ n', Advances g hi q n (onFrame q v).1 (onFrame q v).2 n' ∧
      Got hi (onFrame q v).2 n' i ∧ (i ≠ n → n' = n) := by
  have hhi := h.hi_le
  have hilen : i < g.length := (List.getElem?_eq_some_iff.mp hg).1
  by_cases hin : i = n
  · -- The expected frame: process it, then whatever was waiting for it.
    subst hin
    have hexp : v.1.id = q.expectedID := by rw [hid, h.expected]
    obtain ⟨n', hadv⟩ := (h.succ hset hilen hi₁).processQueue
    refine ⟨n', ⟨?_, ?_, ?_, ?_, ?_⟩, ?_, fun hne => absurd rfl hne⟩
    · have := hadv.le; omega
    · simpa [ReceiveQueue.onFrame, hexp] using hadv.tracks
    · simpa [ReceiveQueue.onFrame, hexp] using hadv.settled
    · have htook := hadv.took
      rw [List.take_add_one, hg] at htook
      simpa [ReceiveQueue.onFrame, hexp] using htook
    · intro j hj
      have : Got hi { q with expectedID := q.expectedID + 1 } (i + 1) j := by
        rcases hj with hj | hj
        · exact Or.inl (by omega)
        · exact Or.inr hj
      simpa [ReceiveQueue.onFrame, hexp] using hadv.got j this
    · exact Or.inl hadv.le
  · have hne : v.1.id ≠ q.expectedID := by
      rw [hid, h.expected]
      intro heq
      exact hin (serial_inj heq (by omega) (by omega))
    have hgt : idGreaterThan v.1.id q.expectedID = decide (n < i) := by
      rw [hid, h.expected]
      exact idGreaterThan_serial (by decide) (by omega) (by omega)
    by_cases hlt : n < i
    · have hrun : ReceiveQueue.onFrame q v = ([], q.enqueue v.1) := by
        simp [ReceiveQueue.onFrame, hne, hgt, hlt]
      obtain ⟨hadv, hgot⟩ := h.enqueue hset hg hid hi₁ hlt hne
      rw [hrun]
      exact ⟨n, hadv, hgot, fun _ => rfl⟩
    · -- An earlier frame is discarded; it has been processed.
      have hrun : ReceiveQueue.onFrame q v = ([], q) := by
        simp [ReceiveQueue.onFrame, hne, hgt, hlt]
      rw [hrun]
      exact ⟨n, ⟨le_rfl, h, hset, by simp, fun j hj => hj⟩, Or.inl (by omega), fun _ => rfl⟩

/-- **A whole packet.**  Consecutive frames of the sequence, each less than half
a turn from the frame expected when the packet arrives, are afterwards processed
or buffered.  While the packet is worked through, the expected frame may move
half a turn ahead of where it was, but by then the frames still to come lie
beyond where it was, so none of them is mistaken for a new one. -/
theorem Tracks.onFrames {n₀ : ℕ} :
    ∀ {vs : List Visited} {i : ℕ} {q : ReceiveQueue} {n : ℕ}, Tracks g (n₀ + 2 ^ 15) q n →
      q.queue[q.expectedID]? = none → n₀ ≤ n → (n = n₀ ∨ n₀ < i) →
      (∀ j (hj : j < vs.length), g[i + j]? = some vs[j].1 ∧ vs[j].1.id = serial 16 (i + j)) →
      i + vs.length ≤ n₀ + 2 ^ 15 → n₀ < i + 2 ^ 15 →
      ∃ n', Advances g (n₀ + 2 ^ 15) q n (onFrames vs q).1 (onFrames vs q).2 n' ∧
        ∀ j < vs.length, Got (n₀ + 2 ^ 15) (onFrames vs q).2 n' (i + j) := by
  intro vs
  induction vs with
  | nil =>
      intro i q n h hset _ _ _ _ _
      exact ⟨n, ⟨le_rfl, h, hset, by simp [ReceiveQueue.onFrames], fun j hj => hj⟩, by simp⟩
  | cons v vs ih =>
      intro i q n h hset hn₀ hor hvs hhi hlo
      have hle := h.le_hi
      simp only [List.length_cons] at hhi
      obtain ⟨hg, hid⟩ := hvs 0 (by simp)
      obtain ⟨n₁, hadv₁, hgot₁, hsame⟩ := h.onFrame hset hg hid (by omega) (by omega)
      have hor₁ : n₁ = n₀ ∨ n₀ < i + 1 := by
        rcases hor with rfl | hlt
        · by_cases hin : i = n
          · exact Or.inr (by omega)
          · exact Or.inl (hsame hin)
        · exact Or.inr (by omega)
      have hrest : ∀ j (hj : j < vs.length),
          g[i + 1 + j]? = some vs[j].1 ∧ vs[j].1.id = serial 16 (i + 1 + j) := by
        intro j hj
        have := hvs (j + 1) (by simpa using hj)
        simpa [Nat.add_assoc, Nat.add_comm 1 j] using this
      obtain ⟨n₂, hadv₂, hgot₂⟩ := ih hadv₁.tracks hadv₁.settled (hn₀.trans hadv₁.le) hor₁
        hrest (by omega) (by omega)
      refine ⟨n₂, hadv₁.trans hadv₂, ?_⟩
      intro j hj
      cases j with
      | zero => exact hadv₂.got i hgot₁
      | succ j =>
          have := hgot₂ j (by simpa using hj)
          rw [show i + (j + 1) = i + 1 + j by omega]
          exact this

/-- **A packet of the sequence.**  A packet carrying a stretch of a numbered
sequence, all of it less than half a turn from the expected frame, advances the
queue and leaves every frame of the packet processed or buffered. -/
theorem Tracks.onReceive (h : Tracks g hi q n) (hset : q.queue[q.expectedID]? = none)
    (hnum : Numbered g) {packet : Packet} {m : ℕ} (hc : packet.Carries g m)
    (hahead : packet.base + m ≤ n + 2 ^ 15) (hbehind : n < packet.base + 2 ^ 15) :
    ∃ n', Advances g (n + 2 ^ 15) q n (onReceive q packet).1 (onReceive q packet).2 n' ∧
      ∀ j < m, Got (n + 2 ^ 15) (onReceive q packet).2 n' (packet.base + j) := by
  have hfst : packet.visits.map Prod.fst = (g.drop packet.base).take m :=
    hc.frames_eq hnum
  have hlen : packet.visits.length = m := by
    have := congrArg List.length hfst
    have := hc.le_length
    simp at *
    omega
  have hvs : ∀ j (hj : j < packet.visits.length),
      g[packet.base + j]? = some packet.visits[j].1 ∧
        packet.visits[j].1.id = serial 16 (packet.base + j) := by
    intro j hj
    have hget := congrArg (fun l => l[j]?) hfst
    simp only [List.getElem?_map, List.getElem?_eq_getElem hj, Option.map_some,
      List.getElem?_take, if_pos (hlen ▸ hj), List.getElem?_drop] at hget
    exact ⟨hget.symm, hnum.id _ _ hget.symm⟩
  obtain ⟨n', hadv, hgot⟩ := h.raise.onFrames hset le_rfl (Or.inl rfl) hvs
    (by rw [hlen]; exact hahead) hbehind
  exact ⟨n', hadv, fun j hj => hgot j (by rw [hlen]; exact hj)⟩

end ReceiveQueue
end MrUDP
