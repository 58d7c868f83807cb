import MrUDP.Lib.Ordered
import MrUDP.Lib.Run
import MrUDP.Types

/-!
# The scheduler

`mrudp/Scheduler.cpp`.  Every timeout owns a node.  While it is scheduled, the node is in a queue
that is ordered by time; otherwise the timeout holds it in its handle.  A pass of the scheduler takes
out the nodes that are due, one after the other, and runs their callbacks, which may schedule any
timeouts again.

Time points are 64 bits wide.

## Main definitions

* `Scheduler`, `Scheduler.schedule_`, `Scheduler.takeFront`: the scheduler and its operations.
* `Scheduler.dueTime`: when a timeout is due that is requested for some time.
* `Scheduler.Consistent`, `Scheduler.Valid`: the invariants.
* `Scheduler.schedule_eq`, `Scheduler.takeFront_eq`: what the operations do.
* `Scheduler.valid_run`: the invariant holds at all times.
-/

namespace MrUDP
open Machine

namespace Timepoint

/-- `Timepoint::min()`. -/
def min : ℤ := -2 ^ 63

/-- The last time point to which ten milliseconds can be added. -/
def latest : ℤ := 2 ^ 63 - 1 - milliseconds 10

end Timepoint

/-- A `Timeout`, by its address. -/
abbrev TimeoutID := ℕ

/-- `Node`.  `requested` is the time it was last scheduled for. -/
structure Node where
  parent : TimeoutID
  when : Timepoint := 0
  requested : Timepoint := 0
  deriving DecidableEq

/-- `Timeout`.  An iterator is named by the timeout whose node it points at, or is `end()`. -/
structure Timeout where
  where_ : Option TimeoutID := none
  handle : Option Node := none
  deriving DecidableEq

/-- `Scheduler`, and the timeouts that have been allocated. -/
structure Scheduler where
  queue : List Node := []
  last : Timepoint := Timepoint.min
  timeouts : TimeoutID → Option Timeout := fun _ => none

namespace Scheduler

/-- `queue.extract`: the node at an iterator, and the others. -/
def extract (queue : List Node) (where_ : Option TimeoutID) : Option Node × List Node :=
  (queue.find? fun node => some node.parent = where_,
    queue.filter fun node => some node.parent ≠ where_)

/-- `Scheduler::allocate`.  A timeout is allocated once. -/
def allocate (s : Scheduler) (id : TimeoutID) : Scheduler :=
  if (s.timeouts id).isSome then s
  else { s with timeouts := Function.update s.timeouts id (some ⟨none, some { parent := id }⟩) }

/-- `Scheduler::free`. -/
def free (s : Scheduler) (id : TimeoutID) : Scheduler :=
  match s.timeouts id with
  | none => s
  | some timeout =>
      { s with
        queue := if timeout.handle.isNone then (extract s.queue timeout.where_).2 else s.queue
        timeouts := Function.update s.timeouts id none }

/-- When a timeout is due that is requested for some time: at least a millisecond after the last
pass, and later by up to ten milliseconds.  The number of milliseconds has 64 bits and no sign. -/
def dueTime (last then_ : ℤ) : ℤ :=
  let ensureRuns : ℤ := if then_ ≤ last then 1 else 0
  let start := if then_ ≤ last then last else then_
  let count : ℕ := ((start.tdiv 1000000 + ensureRuns) % 2 ^ 64).toNat
  let roundAmount : ℕ := 10 - count % 10
  (start + milliseconds roundAmount).bmod (2 ^ 64)

/-- `Scheduler::schedule_`, of a timeout that has been allocated: whether the front of the queue has
changed, and when it is due. -/
def schedule_ (s : Scheduler) (id : TimeoutID) (then_ : Timepoint) :
    (Bool × Option Timepoint) × Scheduler :=
  match s.timeouts id with
  | none => ((false, none), s)
  | some timeout =>
      let wasFront : Bool :=
        timeout.handle.isNone && s.queue.head?.map Node.parent = timeout.where_
      let (handle, queue) :=
        match timeout.handle with
        | some node => (some node, s.queue)
        | none => extract s.queue timeout.where_
      match handle with
      | none => ((false, none), s)
      | some node =>
          let node := { node with when := dueTime s.last then_, requested := then_ }
          let queue := Ordered.insert Node.when node queue
          let isFront : Bool := queue.head?.map Node.parent = some node.parent
          ((wasFront || isFront, queue.head?.map Node.when),
            { s with
              queue := queue
              timeouts := Function.update s.timeouts id (some ⟨some node.parent, none⟩) })

/-- The body of the loop of `process_`, up to the callback: take out the front of the queue, if it
is due. -/
def takeFront (s : Scheduler) (now : Timepoint) : Option Node × Scheduler :=
  match s.queue with
  | [] => (none, s)
  | front :: _ =>
      if now ≤ front.when then (none, s)
      else
        match s.timeouts front.parent with
        | none => (none, s)
        | some timeout =>
            let (handle, queue) := extract s.queue timeout.where_
            (some front, { s with
              queue := queue
              timeouts := Function.update s.timeouts front.parent
                (some { timeout with handle := handle }) })

/-! ## When a timeout is due -/

/-- A timeout is due after the time it is requested for, and after the last pass. -/
theorem lt_dueTime {last then_ : ℤ} (hmin : Timepoint.min ≤ last)
    (hlast : last ≤ Timepoint.latest) (hthen : then_ ≤ Timepoint.latest) :
    last < dueTime last then_ ∧ then_ < dueTime last then_ := by
  rw [dueTime]
  generalize hstart : (if then_ ≤ last then last else then_) = start
  generalize ((start.tdiv 1000000 + if then_ ≤ last then (1 : ℤ) else 0) % 2 ^ 64).toNat = count
  have hround : 10 - count % 10 ≤ 10 ∧ 1 ≤ 10 - count % 10 := by omega
  generalize 10 - count % 10 = roundAmount at hround
  have hbounds : last ≤ start ∧ then_ ≤ start ∧ start ≤ Timepoint.latest := by
    rw [← hstart]
    split
    next h => exact ⟨le_rfl, h, hlast⟩
    next h => exact ⟨(not_le.mp h).le, le_rfl, hthen⟩
  rw [Timepoint.min] at hmin
  rw [Timepoint.latest] at hbounds
  simp only [milliseconds] at hbounds ⊢
  rw [Int.bmod_eq_of_le (by omega) (by omega)]
  omega

/-! ## The invariant -/

/-- The queue is in order, every node in it is the only one of its timeout, and every timeout holds
its node or has it in the queue. -/
structure Consistent (s : Scheduler) : Prop where
  sorted : Ordered.Sorted Node.when s.queue
  parents : (s.queue.map Node.parent).Nodup
  queued : ∀ node ∈ s.queue, s.timeouts node.parent = some ⟨some node.parent, none⟩
  held : ∀ id timeout, s.timeouts id = some timeout →
    (∃ node, timeout.handle = some node ∧ node.parent = id) ∨
      timeout.handle = none ∧ id ∈ s.queue.map Node.parent

/-- Moreover no rounding has overflown. -/
structure Valid (s : Scheduler) : Prop extends Consistent s where
  late : ∀ node ∈ s.queue, node.requested < node.when
  min_le : Timepoint.min ≤ s.last
  le_latest : s.last ≤ Timepoint.latest

theorem consistent_init : Consistent {} where
  sorted := .nil
  parents := .nil
  queued := by simp
  held := by simp

theorem valid_init : Valid {} where
  toConsistent := consistent_init
  late := by simp
  min_le := le_rfl
  le_latest := by decide

variable {s : Scheduler}

namespace Consistent

theorem eq_of_parent (h : s.Consistent) {node node' : Node} (hnode : node ∈ s.queue)
    (hnode' : node' ∈ s.queue) (hparent : node'.parent = node.parent) : node' = node :=
  List.inj_on_of_nodup_map h.parents hnode' hnode hparent

/-- The node of a timeout is taken out of the queue. -/
theorem extract_eq (h : s.Consistent) {node : Node} (hnode : node ∈ s.queue) :
    extract s.queue (some node.parent) =
      (some node, s.queue.filter fun n => n.parent ≠ node.parent) := by
  have hfind : s.queue.find? (fun n => some n.parent = some node.parent) = some node := by
    obtain ⟨found, hfound⟩ := Option.isSome_iff_exists.mp
      (List.find?_isSome.mpr ⟨node, hnode, by simp⟩ :
        (s.queue.find? fun n => some n.parent = some node.parent).isSome)
    have hparent : found.parent = node.parent := by simpa using List.find?_some hfound
    rw [hfound, h.eq_of_parent hnode (List.mem_of_find?_eq_some hfound) hparent]
  rw [extract, hfind]
  simp

/-- A timeout that holds its node has none in the queue. -/
theorem notMem_of_handle (h : s.Consistent) {id : TimeoutID} {timeout : Timeout}
    (hid : s.timeouts id = some timeout) {node : Node} (hnode : timeout.handle = some node) :
    id ∉ s.queue.map Node.parent := by
  intro hmem
  obtain ⟨queued, hqueued, rfl⟩ := List.mem_map.mp hmem
  rw [h.queued queued hqueued] at hid
  rw [← Option.some.inj hid] at hnode
  cases hnode

end Consistent

variable {id : TimeoutID} {timeout : Timeout} {now : Timepoint}

theorem filter_parent_of_notMem {queue : List Node} (h : id ∉ queue.map Node.parent) :
    queue.filter (fun n => n.parent ≠ id) = queue := by
  rw [List.filter_eq_self]
  intro n hn
  have hne : n.parent ≠ id := fun heq => h (heq ▸ List.mem_map_of_mem hn)
  simpa using hne

/-! ## Scheduling -/

/-- The scheduler after a timeout has been scheduled. -/
def scheduled (s : Scheduler) (id : TimeoutID) (then_ : Timepoint) : Scheduler :=
  { s with
    queue := Ordered.insert Node.when ⟨id, dueTime s.last then_, then_⟩
      (s.queue.filter fun n => n.parent ≠ id)
    timeouts := Function.update s.timeouts id (some ⟨some id, none⟩) }

/-- **What `schedule_` does**: the node of the timeout moves to where it belongs. -/
theorem schedule_eq (h : s.Consistent) (hid : s.timeouts id = some timeout) (then_ : Timepoint) :
    s.schedule_ id then_ =
      ((decide (s.queue.head?.map Node.parent = some id) ||
          decide ((s.scheduled id then_).queue.head?.map Node.parent = some id),
        (s.scheduled id then_).queue.head?.map Node.when), s.scheduled id then_) := by
  rw [schedule_, hid]
  rcases h.held id timeout hid with ⟨node, hnode, rfl⟩ | ⟨hnone, hmem⟩
  · -- The timeout holds its node.
    have hnotMem := h.notMem_of_handle hid hnode
    have hhead : s.queue.head?.map Node.parent ≠ some node.parent := by
      intro heq
      obtain ⟨front, hfront, hparent⟩ := Option.map_eq_some_iff.mp heq
      exact hnotMem (hparent ▸ List.mem_map_of_mem (List.mem_of_mem_head? hfront))
    dsimp only
    rw [hnode, decide_eq_false hhead, scheduled, filter_parent_of_notMem hnotMem]
    rfl
  · -- It is in the queue.
    obtain ⟨node, hnode, rfl⟩ := List.mem_map.mp hmem
    have htimeout : timeout = ⟨some node.parent, none⟩ :=
      Option.some.inj (hid.symm.trans (h.queued node hnode))
    subst htimeout
    dsimp only
    rw [h.extract_eq hnode]
    rfl

/-- If the front is not reported to have changed, it has not. -/
theorem head?_scheduled {then_ : Timepoint} (hbefore : s.queue.head?.map Node.parent ≠ some id)
    (hafter : (s.scheduled id then_).queue.head?.map Node.parent ≠ some id) :
    (s.scheduled id then_).queue.head? = s.queue.head? := by
  rcases @Ordered.head?_insert _ _ _ Node.when ⟨id, dueTime s.last then_, then_⟩
    (s.queue.filter fun n => n.parent ≠ id) with hhead | hhead
  · exact absurd (by rw [scheduled, hhead]; rfl) hafter
  · rw [scheduled, hhead]
    cases hqueue : s.queue with
    | nil => rfl
    | cons front rest =>
        rw [hqueue] at hbefore
        rw [List.filter_cons_of_pos (by simpa using hbefore), List.head?_cons, List.head?_cons]

theorem Consistent.scheduled (h : s.Consistent) (id : TimeoutID) (then_ : Timepoint) :
    (s.scheduled id then_).Consistent where
  sorted := (h.sorted.filter _).insert _
  parents := by
    rw [Scheduler.scheduled, ((Ordered.perm_insert _ _).map _).nodup_iff, List.map_cons,
      List.nodup_cons]
    refine ⟨?_, h.parents.sublist (List.filter_sublist.map _)⟩
    simp
  queued := by
    intro node hnode
    dsimp only [Scheduler.scheduled] at hnode ⊢
    rcases Ordered.mem_insert.mp hnode with rfl | hnode
    · exact Function.update_self ..
    · obtain ⟨hqueue, hne⟩ := List.mem_filter.mp hnode
      rw [Function.update_of_ne (by simpa using hne), h.queued node hqueue]
  held := by
    intro id' timeout' hid'
    dsimp only [Scheduler.scheduled] at hid' ⊢
    rw [((Ordered.perm_insert _ _).map _).mem_iff, List.map_cons, List.mem_cons]
    by_cases heq : id' = id
    · subst heq
      rw [Function.update_self] at hid'
      rw [← Option.some.inj hid']
      exact .inr ⟨rfl, .inl rfl⟩
    · rw [Function.update_of_ne heq] at hid'
      refine (h.held id' timeout' hid').imp_right fun ⟨hnone, hmem⟩ => ⟨hnone, .inr ?_⟩
      obtain ⟨node, hnode, rfl⟩ := List.mem_map.mp hmem
      exact List.mem_map_of_mem (List.mem_filter.mpr ⟨hnode, by simpa using heq⟩)

/-! ## Taking out -/

/-- The scheduler after the front has been taken out. -/
def tookOut (s : Scheduler) (front : Node) (rest : List Node) : Scheduler :=
  { s with
    queue := rest
    timeouts := Function.update s.timeouts front.parent
      (some ⟨some front.parent, some front⟩) }

/-- **What `takeFront` does**, if the front is due. -/
theorem takeFront_eq (h : s.Consistent) {front : Node} {rest : List Node}
    (hqueue : s.queue = front :: rest) (hdue : front.when < now) :
    s.takeFront now = (some front, s.tookOut front rest) := by
  have hmem : front ∈ s.queue := hqueue ▸ List.mem_cons_self
  have hparents := h.parents
  rw [hqueue, List.map_cons, List.nodup_cons] at hparents
  have hrest : s.queue.filter (fun n => n.parent ≠ front.parent) = rest := by
    rw [hqueue, List.filter_cons_of_neg (by simp), filter_parent_of_notMem hparents.1]
  rw [takeFront, hqueue]
  dsimp only
  rw [if_neg (not_le.mpr hdue), h.queued front hmem]
  dsimp only
  rw [← hqueue, h.extract_eq hmem, hrest]
  rfl

theorem takeFront_eq_none (h : ∀ front ∈ s.queue.head?, now ≤ front.when) :
    s.takeFront now = (none, s) := by
  rw [takeFront]
  split
  · rfl
  next front rest hqueue => rw [if_pos (h front (by rw [hqueue]; rfl))]

theorem Consistent.tookOut (h : s.Consistent) {front : Node} {rest : List Node}
    (hqueue : s.queue = front :: rest) : (s.tookOut front rest).Consistent := by
  obtain ⟨hsorted, hparents, hqueued, hheld⟩ := h
  rw [hqueue] at hsorted hparents hqueued hheld
  rw [List.map_cons, List.nodup_cons] at hparents
  refine ⟨(List.pairwise_cons.mp hsorted).2, hparents.2, ?_, ?_⟩
  · intro node hnode
    have hne : node.parent ≠ front.parent := by
      intro heq
      exact hparents.1 (heq ▸ List.mem_map_of_mem hnode)
    dsimp only [Scheduler.tookOut]
    rw [Function.update_of_ne hne]
    exact hqueued node (List.mem_cons_of_mem _ hnode)
  · intro id timeout hid
    dsimp only [Scheduler.tookOut] at hid ⊢
    by_cases heq : id = front.parent
    · subst heq
      rw [Function.update_self] at hid
      rw [← Option.some.inj hid]
      exact .inl ⟨front, rfl, rfl⟩
    · rw [Function.update_of_ne heq] at hid
      refine (hheld id timeout hid).imp_right fun ⟨hnone, hmem⟩ => ⟨hnone, ?_⟩
      exact (List.mem_cons.mp hmem).resolve_left heq

theorem Consistent.takeFront (h : s.Consistent) (now : Timepoint) :
    (s.takeFront now).2.Consistent := by
  cases hqueue : s.queue with
  | nil =>
      rw [takeFront_eq_none (by simp [hqueue])]
      exact h
  | cons front rest =>
      by_cases hdue : front.when < now
      · rw [takeFront_eq h hqueue hdue]
        exact h.tookOut hqueue
      · rw [takeFront_eq_none (by simpa [hqueue] using hdue)]
        exact h

/-- Nothing enters the queue when the front is taken out. -/
theorem mem_of_mem_takeFront {node : Node} (hnode : node ∈ (s.takeFront now).2.queue) :
    node ∈ s.queue := by
  rw [Scheduler.takeFront] at hnode
  split at hnode
  · exact hnode
  · split at hnode
    · exact hnode
    · split at hnode
      · exact hnode
      · exact List.mem_of_mem_filter hnode

theorem last_takeFront (s : Scheduler) (now : Timepoint) : (s.takeFront now).2.last = s.last := by
  rw [Scheduler.takeFront]
  split
  · rfl
  · split
    · rfl
    · split <;> rfl

/-! ## Allocating and freeing -/

theorem Consistent.allocate (h : s.Consistent) (id : TimeoutID) : (s.allocate id).Consistent := by
  rw [Scheduler.allocate]
  split
  · exact h
  next hfree =>
    have hnone : s.timeouts id = none := by simpa using hfree
    refine ⟨h.sorted, h.parents, ?_, ?_⟩
    · intro node hnode
      have hqueued := h.queued node hnode
      have hne : node.parent ≠ id := by
        rintro rfl
        rw [hnone] at hqueued
        cases hqueued
      dsimp only
      rw [Function.update_of_ne hne, hqueued]
    · intro id' timeout hid
      dsimp only at hid
      by_cases heq : id' = id
      · subst heq
        rw [Function.update_self] at hid
        rw [← Option.some.inj hid]
        exact .inl ⟨_, rfl, rfl⟩
      · rw [Function.update_of_ne heq] at hid
        exact h.held id' timeout hid

/-- **What `free` does**: the node of the timeout is gone. -/
theorem free_eq (h : s.Consistent) (hid : s.timeouts id = some timeout) :
    s.free id = { s with
      queue := s.queue.filter fun n => n.parent ≠ id
      timeouts := Function.update s.timeouts id none } := by
  rw [free, hid]
  dsimp only
  rcases h.held id timeout hid with ⟨node, hnode, rfl⟩ | ⟨hnone, hmem⟩
  · rw [hnode, if_neg (by simp), filter_parent_of_notMem (h.notMem_of_handle hid hnode)]
  · obtain ⟨node, hnode, rfl⟩ := List.mem_map.mp hmem
    obtain rfl := Option.some.inj (hid.symm.trans (h.queued node hnode))
    dsimp only
    rw [if_pos Option.isNone_none, h.extract_eq hnode]

theorem Consistent.free (h : s.Consistent) (id : TimeoutID) : (s.free id).Consistent := by
  cases hid : s.timeouts id with
  | none =>
      rw [Scheduler.free, hid]
      exact h
  | some timeout =>
      rw [free_eq h hid]
      refine ⟨h.sorted.filter _, h.parents.sublist (List.filter_sublist.map _), ?_, ?_⟩
      · intro node hnode
        obtain ⟨hqueue, hne⟩ := List.mem_filter.mp hnode
        dsimp only
        rw [Function.update_of_ne (by simpa using hne), h.queued node hqueue]
      · intro id' timeout' hid'
        dsimp only at hid' ⊢
        have hne : id' ≠ id := by
          rintro rfl
          rw [Function.update_self] at hid'
          cases hid'
        rw [Function.update_of_ne hne] at hid'
        refine (h.held id' timeout' hid').imp_right fun ⟨hnone, hmem⟩ => ⟨hnone, ?_⟩
        obtain ⟨node, hnode, rfl⟩ := List.mem_map.mp hmem
        exact List.mem_map_of_mem (List.mem_filter.mpr ⟨hnode, by simpa using hne⟩)

theorem mem_of_mem_free {node : Node} (hnode : node ∈ (s.free id).queue) : node ∈ s.queue := by
  rw [Scheduler.free] at hnode
  split at hnode
  · exact hnode
  · dsimp only at hnode
    split at hnode
    · exact List.mem_of_mem_filter hnode
    · exact hnode

/-! ## At all times -/

/-- What happens to the scheduler while its mutex is locked. -/
inductive Section
  /-- `Scheduler::allocate`. -/
  | allocate (id : TimeoutID)
  /-- `Scheduler::free`. -/
  | free (id : TimeoutID)
  /-- `Scheduler::schedule_`. -/
  | schedule (id : TimeoutID) (then_ : Timepoint)
  /-- The beginning of `Scheduler::process_`. -/
  | start (now : Timepoint)
  /-- The body of its loop. -/
  | takeFront (now : Timepoint)

/-- The scheduler after a section. -/
def step (s : Scheduler) : Section → Scheduler
  | .allocate id => s.allocate id
  | .free id => s.free id
  | .schedule id then_ => (s.schedule_ id then_).2
  | .start now => { s with last := now }
  | .takeFront now => (s.takeFront now).2

/-- The times of a section leave room for the rounding. -/
def Timely : Section → Prop
  | .schedule _ then_ => then_ ≤ Timepoint.latest
  | .start now => Timepoint.min ≤ now ∧ now ≤ Timepoint.latest
  | .allocate _ | .free _ | .takeFront _ => True

instance : DecidablePred Timely
  | .schedule _ then_ => inferInstanceAs (Decidable (then_ ≤ Timepoint.latest))
  | .start now => inferInstanceAs (Decidable (Timepoint.min ≤ now ∧ now ≤ Timepoint.latest))
  | .allocate _ | .free _ | .takeFront _ => .isTrue trivial

theorem Valid.schedule_ (h : s.Valid) (id : TimeoutID) {then_ : Timepoint}
    (hthen : then_ ≤ Timepoint.latest) : (s.schedule_ id then_).2.Valid := by
  cases hid : s.timeouts id with
  | none =>
      rw [Scheduler.schedule_, hid]
      exact h
  | some timeout =>
      rw [schedule_eq h.toConsistent hid]
      refine ⟨h.toConsistent.scheduled id then_, fun node hnode => ?_, h.min_le, h.le_latest⟩
      rcases Ordered.mem_insert.mp hnode with rfl | hnode
      · exact (lt_dueTime h.min_le h.le_latest hthen).2
      · exact h.late node (List.mem_of_mem_filter hnode)

theorem Valid.takeFront (h : s.Valid) (now : Timepoint) : (s.takeFront now).2.Valid where
  toConsistent := h.toConsistent.takeFront now
  late node hnode := h.late node (mem_of_mem_takeFront hnode)
  min_le := by rw [last_takeFront]; exact h.min_le
  le_latest := by rw [last_takeFront]; exact h.le_latest

theorem Valid.step (h : s.Valid) {section_ : Section} (htimely : Timely section_) :
    (s.step section_).Valid := by
  cases section_ with
  | allocate id =>
      refine ⟨h.toConsistent.allocate id, ?_, ?_, ?_⟩ <;> rw [Scheduler.step, Scheduler.allocate] <;>
        split
      exacts [h.late, h.late, h.min_le, h.min_le, h.le_latest, h.le_latest]
  | free id =>
      refine ⟨h.toConsistent.free id, fun node hnode => h.late node (mem_of_mem_free hnode), ?_, ?_⟩
        <;> rw [Scheduler.step, Scheduler.free] <;> split
      exacts [h.min_le, h.min_le, h.le_latest, h.le_latest]
  | schedule id then_ => exact h.schedule_ id htimely
  | start now =>
      exact ⟨{ h with }, h.late, htimely.1, htimely.2⟩
  | takeFront now => exact h.takeFront now

/-- **The invariant holds at all times.** -/
theorem valid_run (h : s.Valid) {sections : List Section}
    (htimely : Along step (fun _ => Timely) s sections) : (run step s sections).Valid :=
  run_invariant Valid (fun _ _ h htimely => h.step htimely) h htimely

/-- A timeout holds its node, which is not in the queue then, or has it there once, and knows
where. -/
def Places (s : Scheduler) (id : TimeoutID) (timeout : Timeout) : Prop :=
  (∃ node, timeout.handle = some node ∧ node.parent = id) ∧
      (s.queue.map Node.parent).count id = 0 ∨
    timeout.handle = none ∧ timeout.where_ = some id ∧ (s.queue.map Node.parent).count id = 1

theorem Consistent.places (h : s.Consistent) (hid : s.timeouts id = some timeout) :
    s.Places id timeout := by
  rcases h.held id timeout hid with ⟨node, hnode, hparent⟩ | ⟨hnone, hmem⟩
  · exact .inl ⟨⟨node, hnode, hparent⟩, List.count_eq_zero.mpr (h.notMem_of_handle hid hnode)⟩
  · refine .inr ⟨hnone, ?_, List.count_eq_one_of_mem h.parents hmem⟩
    obtain ⟨node, hnode, rfl⟩ := List.mem_map.mp hmem
    obtain rfl := Option.some.inj (hid.symm.trans (h.queued node hnode))
    rfl

end Scheduler
end MrUDP
