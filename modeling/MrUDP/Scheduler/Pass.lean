import MrUDP.Scheduler.Scheduler

/-!
# A pass of the scheduler

`Scheduler::process_` runs the callbacks of the timeouts that are due.  A callback may schedule any
timeouts, itself included, for any time; they are not due before the pass ends, since a timeout is
always due after the last pass.  So every callback runs at most once, and the pass ends.

Unless the rounding overflows: a timeout requested for the end of time is due at its beginning.

## Main definitions

* `Scheduler.process_`: a pass, with whatever the callbacks do.
* `Scheduler.process_fires`: what a pass does.
* `Scheduler.process_repeats`: a pass that does not end.
-/

namespace MrUDP
open Machine

namespace Scheduler

/-- What a callback does: it schedules some timeouts. -/
abbrev Calls := List (TimeoutID × Timepoint)

/-- The scheduler after one of the calls. -/
def call (s : Scheduler) (c : TimeoutID × Timepoint) : Scheduler := (s.schedule_ c.1 c.2).2

/-- The loop of `process_`, of which so many rounds may be made: whether it has ended, the nodes whose
callbacks have run, and the scheduler as it was after each of its sections.  `callbacks i` are the
calls of the callback that is the `i`th to run. -/
def processLoop (now : Timepoint) (callbacks : ℕ → Calls) :
    ℕ → ℕ → Scheduler → Bool × List Node × List Scheduler
  | 0, _, _ => (false, [], [])
  | fuel + 1, i, s =>
      match s.takeFront now with
      | (none, s) => (true, [], [s])
      | (some node, s) =>
          let (finished, ran, states) :=
            processLoop now callbacks fuel (i + 1) ((callbacks i).foldl call s)
          (finished, node :: ran, (callbacks i).scanl call s ++ states)

/-- `Scheduler::process_`, up to what it returns. -/
def process_ (fuel : ℕ) (s : Scheduler) (now : Timepoint) (callbacks : ℕ → Calls) :
    Bool × List Node × List Scheduler :=
  processLoop now callbacks fuel 0 { s with last := now }

/-- The nodes that are due. -/
def due (s : Scheduler) (now : Timepoint) : List Node := Ordered.early Node.when now s.queue

/-- The callbacks leave room for the rounding. -/
def InTime (callbacks : ℕ → Calls) : Prop := ∀ i, ∀ c ∈ callbacks i, c.2 ≤ Timepoint.latest

variable {s : Scheduler} {now : Timepoint}

theorem mem_due {node : Node} : node ∈ s.due now ↔ node ∈ s.queue ∧ node.when < now :=
  Ordered.mem_early

/-! ## What a callback does -/

/-- A timeout that is scheduled during the pass is not due any more. -/
theorem due_call (h : s.Valid) (hlast : s.last = now) {c : TimeoutID × Timepoint}
    (hc : c.2 ≤ Timepoint.latest) :
    (s.call c).due now = (s.due now).filter fun node => node.parent ≠ c.1 := by
  rw [call]
  cases hid : s.timeouts c.1 with
  | none =>
      -- The timeout is not allocated, so it has no node in the queue.
      rw [schedule_, hid, eq_comm, List.filter_eq_self]
      intro node hnode
      have hqueued := h.queued node (mem_due.mp hnode).1
      have hne : node.parent ≠ c.1 := by
        intro heq
        rw [heq, hid] at hqueued
        cases hqueued
      simpa using hne
  | some timeout =>
      have hlate := (lt_dueTime h.min_le h.le_latest hc).1
      rw [hlast] at hlate
      rw [schedule_eq h.toConsistent hid, due, scheduled,
        Ordered.early_insert (by rw [hlast]; exact hlate.le), Ordered.early, due, Ordered.early, List.filter_filter, List.filter_filter]
      simp only [Bool.and_comm]

theorem last_call (s : Scheduler) (c : TimeoutID × Timepoint) : (s.call c).last = s.last := by
  rw [call, schedule_]
  split
  · rfl
  · dsimp only
    split <;> rfl

/-- After a callback, the scheduler is valid and the timeouts it has scheduled are not due. -/
theorem callback_eq (h : s.Valid) (hlast : s.last = now) {calls : Calls}
    (hcalls : ∀ c ∈ calls, c.2 ≤ Timepoint.latest) :
    (∀ s' ∈ calls.scanl call s, s'.Valid) ∧ (calls.foldl call s).Valid ∧
      (calls.foldl call s).last = now ∧
      (calls.foldl call s).due now =
        (s.due now).filter fun node => node.parent ∉ calls.map Prod.fst := by
  induction calls generalizing s with
  | nil => exact ⟨by simpa using h, h, hlast, by simp⟩
  | cons c calls ih =>
      obtain ⟨hc, hcalls⟩ := List.forall_mem_cons.mp hcalls
      obtain ⟨hstates, hvalid, hlast', hdue⟩ :=
        ih (h.schedule_ c.1 hc) ((last_call s c).trans hlast) hcalls
      refine ⟨?_, hvalid, hlast', ?_⟩
      · rw [List.scanl_cons]
        exact List.forall_mem_cons.mpr ⟨h, hstates⟩
      · rw [List.foldl_cons]
        refine hdue.trans ?_
        rw [show (s.schedule_ c.1 c.2).2 = s.call c from rfl, due_call h hlast hc,
          List.filter_filter, List.map_cons]
        simp only [List.mem_cons, not_or, Bool.decide_and, Bool.and_comm]

/-! ## What the loop does -/

theorem takeFront_of_due_eq_nil (h : s.due now = []) : s.takeFront now = (none, s) := by
  refine takeFront_eq_none fun front hfront => ?_
  by_contra hdue
  have hmem : front ∈ s.due now := mem_due.mpr ⟨List.mem_of_mem_head? hfront, not_le.mp hdue⟩
  rw [h] at hmem
  cases hmem

/-- The first node that is due is taken out. -/
theorem takeFront_of_due_eq_cons (h : s.Valid) {node : Node} {rest : List Node}
    (hdue : s.due now = node :: rest) :
    ∃ s', s.takeFront now = (some node, s') ∧ s'.Valid ∧ s'.last = s.last ∧ s'.due now = rest := by
  have hsorted := h.sorted
  rw [due] at hdue
  cases hqueue : s.queue with
  | nil =>
      rw [hqueue] at hdue
      cases hdue
  | cons front queue =>
      rw [hqueue] at hdue hsorted
      by_cases hfront : front.when < now
      · rw [Ordered.early_cons hfront] at hdue
        obtain ⟨rfl, rfl⟩ := List.cons.inj hdue
        have htake := takeFront_eq h.toConsistent hqueue hfront
        refine ⟨_, htake, ?_, rfl, rfl⟩
        have hvalid := h.takeFront now
        rwa [htake] at hvalid
      · rw [hsorted.early_eq_nil (not_lt.mp hfront)] at hdue
        cases hdue

/-- What the loop has done when it has ended: the nodes whose callbacks have run were due, and those
that were not rescheduled have all run. -/
structure Fired (s : Scheduler) (now : Timepoint) (callbacks : ℕ → Calls) (i : ℕ) (ran : List Node)
    (states : List Scheduler) : Prop where
  sublist : ran.Sublist (s.due now)
  complete : ∀ node ∈ s.due now,
    (∀ j < ran.length, node.parent ∉ (callbacks (i + j)).map Prod.fst) → node ∈ ran
  valid : ∀ s' ∈ states, s'.Valid

/-- **The loop ends.** -/
theorem processLoop_eq {callbacks : ℕ → Calls} (hcallbacks : InTime callbacks) {n : ℕ} (i : ℕ)
    (h : s.Valid) (hlast : s.last = now) (hn : (s.due now).length ≤ n) :
    ∃ ran states, (∀ fuel, n < fuel → processLoop now callbacks fuel i s = (true, ran, states)) ∧
      Fired s now callbacks i ran states := by
  -- The number of nodes that are due goes down with every round.
  induction n generalizing s i with
  | zero =>
      have hnil : s.due now = [] := List.length_eq_zero_iff.mp (Nat.le_zero.mp hn)
      refine ⟨[], [s], fun fuel hfuel => ?_, ?_, ?_, ?_⟩
      · obtain ⟨fuel, rfl⟩ : ∃ m, fuel = m + 1 := ⟨fuel - 1, by omega⟩
        rw [processLoop, takeFront_of_due_eq_nil hnil]
      · exact List.nil_sublist _
      · rw [hnil]
        exact fun node hnode => absurd hnode List.not_mem_nil
      · exact List.forall_mem_singleton.mpr h
  | succ n ih =>
      cases hdue : s.due now with
      | nil =>
          obtain ⟨ran, states, hloop, hfired⟩ := ih i h hlast (by rw [hdue]; exact Nat.zero_le n)
          exact ⟨ran, states, fun fuel hfuel => hloop fuel (by omega), hfired⟩
      | cons node rest =>
          obtain ⟨s₁, htake, hvalid₁, hlast₁, hdue₁⟩ := takeFront_of_due_eq_cons h hdue
          obtain ⟨hstates, hvalid₂, hlast₂, hdue₂⟩ :=
            callback_eq hvalid₁ (hlast₁.trans hlast) (hcallbacks i)
          rw [hdue₁] at hdue₂
          have hlength : (((callbacks i).foldl call s₁).due now).length ≤ n := by
            rw [hdue, List.length_cons] at hn
            rw [hdue₂]
            exact (List.length_filter_le _ _).trans (by omega)
          obtain ⟨ran, states, hloop, hfired⟩ := ih (i + 1) hvalid₂ hlast₂ hlength
          refine ⟨node :: ran, (callbacks i).scanl call s₁ ++ states, fun fuel hfuel => ?_, ?_, ?_, ?_⟩
          · obtain ⟨fuel, rfl⟩ : ∃ m, fuel = m + 1 := ⟨fuel - 1, by omega⟩
            rw [processLoop, htake]
            dsimp only
            rw [hloop fuel (by omega)]
          · rw [hdue]
            exact (hfired.sublist.trans (hdue₂ ▸ List.filter_sublist)).cons_cons node
          · intro node' hnode' hkept
            rw [hdue] at hnode'
            rcases List.mem_cons.mp hnode' with rfl | hnode'
            · exact List.mem_cons_self
            · refine List.mem_cons_of_mem _ (hfired.complete node' ?_ fun j hj => ?_)
              · rw [hdue₂, List.mem_filter]
                exact ⟨hnode', by simpa using hkept 0 (by simp)⟩
              · have hkept' := hkept (j + 1) (by rw [List.length_cons]; omega)
                rwa [← Nat.add_assoc, Nat.add_right_comm] at hkept'
          · intro s' hs'
            rcases List.mem_append.mp hs' with hs' | hs'
            · exact hstates s' hs'
            · exact hfired.valid s' hs'

/-! ## A pass -/

/-- **What a pass does**, whatever its callbacks do.  It ends; every callback runs at most once, and
only if its timeout was last requested for a time before the pass; all that was due and was not
rescheduled during the pass runs, in order; and at all times every timeout holds its node or has it
in the queue once. -/
theorem process_fires (s : Scheduler) (hs : s.Valid) (now : Timepoint)
    (hnow : Timepoint.min ≤ now ∧ now ≤ Timepoint.latest) (callbacks : ℕ → Calls)
    (hcallbacks : InTime callbacks) :
    (∃ ran states,
      (∀ fuel, s.queue.length < fuel → process_ fuel s now callbacks = (true, ran, states)) ∧
      (ran.map Node.parent).Nodup ∧ Ordered.Sorted Node.when ran ∧
      (∀ node ∈ ran, node.requested < now) ∧
      (∀ node ∈ s.queue, node.when < now →
        (∀ i < ran.length, node.parent ∉ (callbacks i).map Prod.fst) → node ∈ ran) ∧
      ∀ s' ∈ states, ∀ id timeout, s'.timeouts id = some timeout → s'.Places id timeout) ∧
    ∀ sections, Along step (fun _ => Timely) s sections →
      ∀ id timeout, (run step s sections).timeouts id = some timeout →
        (run step s sections).Places id timeout := by
  refine ⟨?_, fun sections htimely id timeout hid => (valid_run hs htimely).toConsistent.places hid⟩
  have hstart : Valid { s with last := now } := @Valid.step s hs (.start now) hnow
  obtain ⟨ran, states, hloop, hfired⟩ := processLoop_eq hcallbacks 0 hstart rfl
    (List.length_filter_le _ s.queue)
  have hsublist : ran.Sublist s.queue := hfired.sublist.trans List.filter_sublist
  refine ⟨ran, states, hloop, ?_, ?_, ?_, ?_, ?_⟩
  · exact hs.parents.sublist (hsublist.map _)
  · exact List.Pairwise.sublist hsublist hs.sorted
  · intro node hnode
    obtain ⟨hqueue, hdue⟩ := mem_due.mp (hfired.sublist.mem hnode)
    exact (hs.late node hqueue).trans hdue
  · intro node hnode hdue hkept
    refine hfired.complete node (mem_due.mpr ⟨hnode, hdue⟩) fun j hj => ?_
    rw [Nat.zero_add]
    exact hkept j hj
  · exact fun s' hs' id timeout hid => (hfired.valid s' hs').toConsistent.places hid

/-- Two timeouts, of which the second is to run later. -/
def twoTimeouts : Scheduler :=
  run step {} [.allocate 0, .allocate 1, .schedule 0 0, .schedule 1 (milliseconds 30)]

theorem valid_twoTimeouts : twoTimeouts.Valid := valid_run valid_init (by decide)

/-- The first callback schedules itself for a time in the past, and the second does nothing. -/
def again (i : ℕ) : Calls := if i = 0 then [(0, milliseconds 5)] else []

theorem inTime_again : InTime again := by
  intro i c hc
  rw [again] at hc
  split at hc
  · rw [List.mem_singleton.mp hc]
    decide
  · cases hc

theorem process_fires_twoTimeouts :
    ∃ ran states, (∀ fuel, 2 < fuel →
        process_ fuel twoTimeouts (milliseconds 100) again = (true, ran, states)) ∧
      (ran.map Node.parent).Nodup ∧ ⟨1, milliseconds 40, milliseconds 30⟩ ∈ ran := by
  obtain ⟨⟨ran, states, hprocess, honce, _, _, hall, _⟩, _⟩ :=
    process_fires twoTimeouts valid_twoTimeouts (milliseconds 100) (by decide) again inTime_again
  refine ⟨ran, states, hprocess, honce, hall _ (by decide) (by decide) fun i _ => ?_⟩
  rw [again]
  split <;> decide

/-! ## The end of time -/

/-- A timeout that is due. -/
def oneTimeout : Scheduler := run step {} [.allocate 0, .schedule 0 0]

/-- Every callback schedules its timeout for the last time point there is. -/
def atTheEnd (_ : ℕ) : Calls := [(0, 2 ^ 63 - 1)]

/-- The scheduler while the only timeout is due. -/
structure Circling (s : Scheduler) (now : Timepoint) : Prop where
  last : s.last = now
  queue : ∃ node, s.queue = [node] ∧ node.parent = 0 ∧ node.when < now
  timeout : s.timeouts 0 = some ⟨some 0, none⟩

/-- After its callback it is due again. -/
theorem Circling.again (h : Circling s (milliseconds 100)) :
    ∃ node s', s.takeFront (milliseconds 100) = (some node, s') ∧
      Circling (s'.call (0, 2 ^ 63 - 1)) (milliseconds 100) := by
  obtain ⟨hlast, ⟨node, hqueue, hparent, hdue⟩, htimeout⟩ := h
  have hextract : extract s.queue (some 0) = (some node, []) := by simp [extract, hqueue, hparent]
  have htake : s.takeFront (milliseconds 100) = (some node, { s with
      queue := []
      timeouts := Function.update s.timeouts 0 (some ⟨some 0, some node⟩) }) := by
    rw [takeFront, hqueue]
    dsimp only
    rw [if_neg (not_le.mpr hdue), hparent, htimeout]
    dsimp only
    rw [← hqueue, hextract]
  refine ⟨node, _, htake, ?_⟩
  rw [call, schedule_]
  dsimp only
  rw [Function.update_self]
  refine ⟨hlast, ⟨_, rfl, hparent, ?_⟩, ?_⟩
  · dsimp only
    rw [hlast]
    decide
  · dsimp only
    rw [Function.update_self, hparent]

theorem Circling.processLoop (h : Circling s (milliseconds 100)) (fuel i : ℕ) :
    (processLoop (milliseconds 100) atTheEnd fuel i s).1 = false := by
  induction fuel generalizing s i with
  | zero => rfl
  | succ fuel ih =>
      obtain ⟨node, s', htake, hagain⟩ := h.again
      rw [Scheduler.processLoop, htake]
      exact ih hagain (i + 1)

/-- **A pass that does not end**: the rounding overflows, and the timeout is due at once. -/
theorem process_repeats :
    oneTimeout.Valid ∧ ∀ fuel, (process_ fuel oneTimeout (milliseconds 100) atTheEnd).1 = false := by
  have hcircling : Circling { oneTimeout with last := milliseconds 100 } (milliseconds 100) :=
    ⟨rfl, ⟨⟨0, milliseconds 10, 0⟩, by decide, rfl, by decide⟩, by decide⟩
  exact ⟨valid_run valid_init (by decide), fun fuel => hcircling.processLoop fuel 0⟩

end Scheduler
end MrUDP
