import MrUDP.Scheduler.Scheduler

/-!
# The timer of the scheduler

The scheduler has one native timer.  It is set when the front of the queue changes, and at the end of
a pass; when it expires, the next pass begins.  For no timeout to be late, it must not be set for a
time after the front of the queue.

`Scheduler::schedule` sets the timer with the mutex locked.  `Scheduler::process` sets it after
`process_` has returned, to the time that `process_` has found before it unlocked the mutex.  What is
scheduled in between for an earlier time is forgotten.

## Main definitions

* `Timed`, `Timed.step`: the scheduler, its timer and the passes in progress.
* `Timed.timer_armed`: the timer is set in time, unless something earlier is scheduled just before a
  pass sets it.
* `Timed.timer_late`: and then it is not.
-/

namespace MrUDP
open Machine

/-- Where a call of `Scheduler::process` is. -/
inductive Phase
  /-- Before `process_` has locked the mutex. -/
  | called
  /-- In a callback. -/
  | running (now : Timepoint)
  /-- Before `imp->update`. -/
  | updating (next : Timepoint)
  deriving DecidableEq

/-- The time that a call of `Scheduler::process` is about to set the timer to. -/
def Phase.next : Phase → Option Timepoint
  | .updating next => some next
  | .called | .running _ => none

/-- The scheduler, the expiry of its timer if it is set, and the calls of `process` in progress. -/
structure Timed where
  scheduler : Scheduler := {}
  timer : Option Timepoint := none
  passes : List Phase := []

/-- What happens to the scheduler and its timer. -/
inductive TimedEvent
  /-- `Scheduler::allocate`. -/
  | allocate (id : TimeoutID)
  /-- `Scheduler::free`. -/
  | free (id : TimeoutID)
  /-- `Scheduler::schedule`. -/
  | schedule (id : TimeoutID) (then_ : Timepoint)
  /-- The timer expires, and `Scheduler::process` is called. -/
  | expire
  /-- `process_` begins, up to the first callback or to the end of its loop. -/
  | enter (i : ℕ) (now : Timepoint)
  /-- A callback returns; up to the next callback or to the end of the loop. -/
  | resume (i : ℕ)
  /-- `Scheduler::process` calls `imp->update`. -/
  | update (i : ℕ)

namespace Timed

/-- A round of the loop of `process_`, of the `i`th of the calls in progress: take out the front and
run its callback, or return when the front is due. -/
def check (x : Timed) (i : ℕ) (now : Timepoint) : Timed :=
  match x.scheduler.takeFront now with
  | (some _, s) => { x with scheduler := s, passes := x.passes.set i (.running now) }
  | (none, s) =>
      let next := (s.queue.head?.map Node.when).getD Timepoint.min
      { x with
        scheduler := s
        passes :=
          if next ≠ Timepoint.min then x.passes.set i (.updating next) else x.passes.eraseIdx i }

/-- Something happens. -/
def step (x : Timed) : TimedEvent → Timed
  | .allocate id => { x with scheduler := x.scheduler.allocate id }
  | .free id => { x with scheduler := x.scheduler.free id }
  | .schedule id then_ =>
      let ((changed, next), s) := x.scheduler.schedule_ id then_
      { x with scheduler := s, timer := if changed then next else x.timer }
  | .expire =>
      if x.timer.isSome then { x with timer := none, passes := x.passes ++ [.called] } else x
  | .enter i now =>
      match x.passes[i]? with
      | some .called => { x with scheduler := { x.scheduler with last := now } }.check i now
      | _ => x
  | .resume i =>
      match x.passes[i]? with
      | some (.running now) => x.check i now
      | _ => x
  | .update i =>
      match x.passes[i]? with
      | some (.updating next) => { x with timer := some next, passes := x.passes.eraseIdx i }
      | _ => x

/-- What is scheduled while a pass is about to set the timer is not due before the time it sets it
to; and the clock is past the beginning of time. -/
def Undisturbed (x : Timed) : TimedEvent → Prop
  | .schedule _ then_ =>
      ∀ pass ∈ x.passes, ∀ next ∈ pass.next, next ≤ Scheduler.dueTime x.scheduler.last then_
  | .enter _ now => Timepoint.min < now
  | _ => True

instance (x : Timed) : DecidablePred x.Undisturbed
  | .schedule _ _ => inferInstanceAs (Decidable (∀ pass ∈ x.passes, _))
  | .enter _ now => inferInstanceAs (Decidable (Timepoint.min < now))
  | .allocate _ | .free _ | .expire | .resume _ | .update _ => .isTrue trivial

/-- The timer is set, or is going to be set, to a time that is not after anything in the queue. -/
structure Armed (x : Timed) : Prop where
  consistent : x.scheduler.Consistent
  clock : ∀ now, .running now ∈ x.passes → Timepoint.min < now
  pending : ∀ next, .updating next ∈ x.passes → ∀ node ∈ x.scheduler.queue, next ≤ node.when
  armed : x.passes = [] → x.scheduler.queue ≠ [] →
    ∃ time, x.timer = some time ∧ ∀ node ∈ x.scheduler.queue, time ≤ node.when

theorem armed_init : Armed {} where
  consistent := Scheduler.consistent_init
  clock := by simp
  pending := by simp
  armed := by simp

variable {x : Timed}

/-- Nothing enters the queue. -/
theorem Armed.shrink (h : x.Armed) {s : Scheduler} (hs : s.Consistent)
    (hqueue : ∀ node ∈ s.queue, node ∈ x.scheduler.queue) :
    Armed { x with scheduler := s } where
  consistent := hs
  clock := h.clock
  pending next hnext node hnode := h.pending next hnext node (hqueue node hnode)
  armed hidle hne := by
    obtain ⟨node, hnode⟩ := List.exists_mem_of_ne_nil _ hne
    obtain ⟨time, htimer, htime⟩ :=
      h.armed hidle (List.ne_nil_of_mem (hqueue node hnode))
    exact ⟨time, htimer, fun node hnode => htime node (hqueue node hnode)⟩

theorem Armed.schedule (h : x.Armed) {id : TimeoutID} {then_ : Timepoint}
    (hundisturbed : x.Undisturbed (.schedule id then_)) :
    (x.step (.schedule id then_)).Armed := by
  rw [step]
  cases hid : x.scheduler.timeouts id with
  | none =>
      rw [Scheduler.schedule_, hid]
      exact h
  | some timeout =>
      rw [Scheduler.schedule_eq h.consistent hid]
      dsimp only
      have hsorted := (h.consistent.scheduled id then_).sorted
      have hmem : ∀ node ∈ (x.scheduler.scheduled id then_).queue,
          node.when = Scheduler.dueTime x.scheduler.last then_ ∨ node ∈ x.scheduler.queue := by
        intro node hnode
        rcases Ordered.mem_insert.mp hnode with rfl | hnode
        · exact .inl rfl
        · exact .inr (List.mem_of_mem_filter hnode)
      refine ⟨h.consistent.scheduled id then_, h.clock, ?_, ?_⟩
      · intro next hnext node hnode
        rcases hmem node hnode with hnew | hold
        · rw [hnew]
          exact hundisturbed _ hnext next rfl
        · exact h.pending next hnext node hold
      · intro hidle hne
        dsimp only at hidle hne ⊢
        obtain ⟨front, rest, hfront⟩ := List.exists_cons_of_ne_nil hne
        rw [hfront] at hsorted
        have hfirst : ∀ node ∈ (x.scheduler.scheduled id then_).queue, front.when ≤ node.when := by
          intro node hnode
          rw [hfront] at hnode
          exact hsorted.head_le hnode
        split
        · -- The timer is set to the new front.
          exact ⟨front.when, by rw [hfront]; rfl, hfirst⟩
        next hsame =>
          -- The front is the same as before.
          rw [Bool.or_eq_true, not_or, decide_eq_true_eq, decide_eq_true_eq] at hsame
          have hhead := Scheduler.head?_scheduled hsame.1 hsame.2
          rw [hfront, List.head?_cons] at hhead
          have hold : front ∈ x.scheduler.queue := List.mem_of_mem_head? hhead.symm
          obtain ⟨time, htimer, htime⟩ := h.armed hidle (List.ne_nil_of_mem hold)
          exact ⟨time, htimer, fun node hnode => (htime front hold).trans (hfirst node hnode)⟩

/-- A pass goes on. -/
theorem Armed.set (h : x.Armed) {i : ℕ} (hi : i < x.passes.length) {phase : Phase}
    (hclock : ∀ now, phase = .running now → Timepoint.min < now)
    (hpending : ∀ next, phase = .updating next → ∀ node ∈ x.scheduler.queue, next ≤ node.when) :
    Armed { x with passes := x.passes.set i phase } where
  consistent := h.consistent
  clock now hnow := by
    rcases List.mem_or_eq_of_mem_set hnow with hold | heq
    · exact h.clock now hold
    · exact hclock now heq.symm
  pending next hnext := by
    rcases List.mem_or_eq_of_mem_set hnext with hold | heq
    · exact h.pending next hold
    · exact hpending next heq.symm
  armed hidle := by
    have hlength := congrArg List.length hidle
    rw [List.length_set, List.length_nil] at hlength
    omega

theorem Armed.check (h : x.Armed) {i : ℕ} (hi : i < x.passes.length) {now : Timepoint}
    (hnow : Timepoint.min < now) : (x.check i now).Armed := by
  rw [Timed.check]
  cases hqueue : x.scheduler.queue with
  | nil =>
      -- Nothing is left, and the timer is not set.
      rw [Scheduler.takeFront_eq_none (by simp [hqueue])]
      dsimp only
      rw [hqueue, List.head?_nil, Option.map_none, Option.getD_none, if_neg (not_not.mpr rfl)]
      refine ⟨h.consistent, fun now hnow => h.clock now (List.mem_of_mem_eraseIdx hnow), ?_, ?_⟩
      · exact fun next hnext => h.pending next (List.mem_of_mem_eraseIdx hnext)
      · exact fun _ hne => absurd hqueue hne
  | cons front rest =>
      by_cases hdue : front.when < now
      · rw [Scheduler.takeFront_eq h.consistent hqueue hdue]
        have hshrink := h.shrink (h.consistent.tookOut hqueue)
          (fun node hnode => hqueue ▸ List.mem_cons_of_mem _ hnode)
        refine hshrink.set hi (fun now' heq => ?_) (fun next heq => by cases heq)
        cases heq
        exact hnow
      · have hlt : Timepoint.min < front.when := hnow.trans_le (not_lt.mp hdue)
        rw [Scheduler.takeFront_eq_none (by simpa [hqueue] using hdue)]
        dsimp only
        rw [hqueue, List.head?_cons, Option.map_some, Option.getD_some, if_pos hlt.ne']
        refine h.set hi (fun now' heq => by cases heq) (fun next heq => ?_)
        cases heq
        intro node hnode
        rw [hqueue] at hnode
        exact (hqueue ▸ h.consistent.sorted).head_le hnode

theorem Armed.update (h : x.Armed) {i : ℕ} {next : Timepoint}
    (hi : x.passes[i]? = some (.updating next)) :
    Armed { x with timer := some next, passes := x.passes.eraseIdx i } where
  consistent := h.consistent
  clock now hnow := h.clock now (List.mem_of_mem_eraseIdx hnow)
  pending next' hnext' := h.pending next' (List.mem_of_mem_eraseIdx hnext')
  armed _ _ := ⟨next, rfl, h.pending next (List.mem_of_getElem? hi)⟩

theorem Armed.step (h : x.Armed) {event : TimedEvent} (hundisturbed : x.Undisturbed event) :
    (x.step event).Armed := by
  cases event with
  | allocate id =>
      refine h.shrink (h.consistent.allocate id) fun node hnode => ?_
      rw [Scheduler.allocate] at hnode
      split at hnode <;> exact hnode
  | free id => exact h.shrink (h.consistent.free id) fun node => Scheduler.mem_of_mem_free
  | schedule id then_ => exact h.schedule hundisturbed
  | expire =>
      rw [Timed.step]
      split
      · refine ⟨h.consistent, fun now hnow => h.clock now ?_, fun next hnext => h.pending next ?_, ?_⟩
        · simpa using hnow
        · simpa using hnext
        · exact fun hidle => absurd hidle (List.append_ne_nil_of_right_ne_nil _ (by simp))
      · exact h
  | enter i now =>
      rw [Timed.step]
      split
      next hcalled =>
        have hlast : Armed { x with scheduler := { x.scheduler with last := now } } :=
          h.shrink ⟨h.consistent.sorted, h.consistent.parents, h.consistent.queued,
            h.consistent.held⟩ fun _ hnode => hnode
        exact hlast.check (List.getElem?_eq_some_iff.mp hcalled).1 hundisturbed
      · exact h
  | resume i =>
      rw [Timed.step]
      split
      next now hrunning =>
        exact h.check (List.getElem?_eq_some_iff.mp hrunning).1
          (h.clock now (List.mem_of_getElem? hrunning))
      · exact h
  | update i =>
      rw [Timed.step]
      split
      next next hupdating => exact h.update hupdating
      · exact h

/-- **The timer is set in time.**  Whenever something is in the queue and no pass is in progress, the
timer is set to a time that is not after the front of the queue, if whatever is scheduled while a
pass is about to set the timer is not due before the time it sets it to. -/
theorem timer_armed (events : List TimedEvent) (hundisturbed : Along step Undisturbed {} events)
    (x : Timed) (hx : run step {} events = x) (hidle : x.passes = []) (front : Node) (rest : List Node)
    (hqueue : x.scheduler.queue = front :: rest) :
    ∃ time, x.timer = some time ∧ time ≤ front.when := by
  have harmed : x.Armed :=
    hx ▸ run_invariant Armed (fun _ _ h hundisturbed => h.step hundisturbed) armed_init hundisturbed
  obtain ⟨time, htimer, htime⟩ := harmed.armed hidle (by rw [hqueue]; exact List.cons_ne_nil _ _)
  exact ⟨time, htimer, htime front (by rw [hqueue]; exact List.mem_cons_self)⟩

/-- Two timeouts; a callback schedules itself again, and before the pass sets the timer, the other
timeout is put off. -/
def punctual : List TimedEvent :=
  [.allocate 0, .allocate 1, .schedule 0 0, .schedule 1 (milliseconds 200), .expire,
    .enter 0 (milliseconds 20), .schedule 0 (milliseconds 50), .resume 0,
    .schedule 1 (milliseconds 300), .update 0]

theorem timer_armed_punctual :
    ∃ time, (run step {} punctual).timer = some time ∧ time ≤ milliseconds 60 :=
  timer_armed punctual (by decide +kernel) _ rfl (by decide +kernel)
    ⟨0, milliseconds 60, milliseconds 50⟩ [⟨1, milliseconds 310, milliseconds 300⟩]
    (by decide +kernel)

/-- Before the pass sets the timer, a timeout is scheduled that is due first. -/
def disturbed : List TimedEvent :=
  [.allocate 0, .allocate 1, .schedule 0 0, .schedule 1 (milliseconds 200), .expire,
    .enter 0 (milliseconds 20), .resume 0, .schedule 0 (milliseconds 50), .update 0]

/-- **A timeout is late**: nothing is in progress, but the timer is set to a time after the front of
the queue. -/
theorem timer_late :
    (run step {} disturbed).passes = [] ∧
      (run step {} disturbed).scheduler.queue.head?.map Node.when = some (milliseconds 60) ∧
      (run step {} disturbed).timer = some (milliseconds 210) := by
  decide +kernel

end Timed
end MrUDP
