import MrUDP.Lib.Run
import MrUDP.Sender.Calls

/-!
# Threads in the sender

The methods of the sender run on the threads of the user and of the service.  Here
a thread inside `Sender::enqueue`, `Sender::scheduleDataQueueProcessing` or
`Sender::processSchedule` is a `Task`: what it still has to do, up to the next
section that holds a lock.  Threads take their sections in any order, between
acknowledgements, retry timeouts, expiring timers and whatever else reaches the
sender.

The clock is read at every section anew and nothing is assumed of it, nor of how
long a timer takes to expire.  The options are read anew as well.  `canSend`
becomes true during the handshake, before it opens the sender.

A thread that is not interrupted does what the functions of `MrUDP.Sender.Sender`
do, so those are runs of this machine.

## Main definitions

* `Task`, `Task.advance`: where a thread is, and its next section.
* `Threads.step`: one section of one thread, or something from outside.
* `Threads.Quiescent`: no thread is at work but in a pass that is marked as running.
* `Task.Alone`: the sections of a thread that is not interrupted.
-/

namespace MrUDP
open Machine

/-! ## Threads and their sections -/

/-- Where a thread is in `Sender::processReliableDataQueue`. -/
inductive ReliableStage
  | entered
  | counting
  | dequeuing
  | sending (packet : Packet)
  deriving DecidableEq, Repr

/-- Where a thread is in `Sender::processUnreliableDataQueue`. -/
inductive UnreliableStage
  | entered
  | acking
  | dequeuing
  | sending (packet : Packet)
  deriving DecidableEq, Repr

/-- What a thread has still to do.  A pass is `scheduled` if `processSchedule` made it. -/
inductive Task
  /-- `enqueue` after the queue's lock is released. -/
  | enqueued (reliability : Reliability)
  /-- `scheduleDataQueueProcessing` from the beginning. -/
  | scheduling (reliability : Reliability) (immediate : Bool)
  /-- `scheduleDataQueueProcessing` before the schedule's lock. -/
  | arming (reliability : Reliability) (soon : Timepoint)
  /-- `processSchedule` from the beginning, called by the expired timer. -/
  | expired (reliability : Reliability)
  | reliablePass (scheduled : Bool) (stage : ReliableStage)
  | unreliablePass (scheduled : Bool) (stage : UnreliableStage)
  /-- `processSchedule` after the pass. -/
  | finishing (reliability : Reliability)
  deriving DecidableEq, Repr

namespace Task

/-- A thread that enters `processDataQueue`. -/
def process (scheduled : Bool) : Reliability → Task
  | .reliable => .reliablePass scheduled .entered
  | .unreliable => .unreliablePass scheduled .entered

/-- A thread that returns from `processDataQueue`. -/
def leave (scheduled : Bool) (reliability : Reliability) : List Task :=
  if scheduled then [.finishing reliability] else []

/-- The next section of a thread: the sender after it, and what is left to do. -/
def advance (e : Env) (s : Sender) : Task → Sender × List Task
  | .enqueued reliability =>
      (s, if s.isReadyToSend e then [.scheduling reliability false] else [])
  | .scheduling reliability immediate =>
      let options := e.options.coalesce reliability
      if options.mode = .none then (s, [process false reliability])
      else
        (s, [.arming reliability
          (e.now + milliseconds (if immediate then 0 else options.delayMS))])
  | .arming reliability soon =>
      let schedule := s.schedule reliability
      if schedule.when.all (soon < ·) then
        let schedule := { schedule with when := some soon }
        (s.setSchedule
          (if schedule.running then schedule else { schedule with timeout := some soon })
          reliability, [])
      else (s, [])
  | .expired reliability =>
      let schedule := s.schedule reliability
      if schedule.running then (s, [])
      else
        (s.setSchedule { schedule with when := none, running := true } reliability,
          [process true reliability])
  | .reliablePass scheduled .entered =>
      (s, if s.isReadyToSend e then [.reliablePass scheduled .counting]
        else leave scheduled .reliable)
  | .reliablePass scheduled .counting =>
      (s, if s.retrier.numUnacked < s.windowSize.size then [.reliablePass scheduled .dequeuing]
        else leave scheduled .reliable)
  | .reliablePass scheduled .dequeuing =>
      match s.dataQueue.dequeue e.zlib e.options.coalesceReliable.compressionLevel with
      | (none, q) => ({ s with dataQueue := q }, leave scheduled .reliable)
      | (some packet, q) =>
          ({ s with dataQueue := q },
            [.reliablePass scheduled
              (.sending { packet with header := { packet.header with type := .dataReliable } })])
  | .reliablePass scheduled (.sending packet) =>
      (s.sendReliably e.now packet, [.reliablePass scheduled .counting])
  | .unreliablePass scheduled .entered =>
      if s.isReadyToSend e then (s, [.unreliablePass scheduled .acking])
      else
        ({ s with unreliableDataQueue := s.unreliableDataQueue.clear },
          leave scheduled .unreliable)
  | .unreliablePass scheduled .acking =>
      (s.queueDelayedAcks e, [.unreliablePass scheduled .dequeuing])
  | .unreliablePass scheduled .dequeuing =>
      match s.unreliableDataQueue.dequeue e.zlib
          e.options.coalesceUnreliable.compressionLevel with
      | (none, q) => ({ s with unreliableDataQueue := q }, leave scheduled .unreliable)
      | (some packet, q) =>
          ({ s with unreliableDataQueue := q },
            [.unreliablePass scheduled
              (.sending { packet with header := { packet.header with type := .dataUnreliable } })])
  | .unreliablePass scheduled (.sending packet) =>
      ({ s with outbox := s.outbox ++ [⟨packet, none, false⟩] },
        [.unreliablePass scheduled .dequeuing])
  | .finishing reliability =>
      let schedule := { s.schedule reliability with running := false }
      (s.setSchedule
        (match schedule.when with
          | none => schedule
          | some soon => { schedule with timeout := some soon })
        reliability, [])

/-- The task holds the flag `running` of a schedule. -/
def holds (reliability : Reliability) : Task → Bool
  | .reliablePass scheduled _ => scheduled && reliability = .reliable
  | .unreliablePass scheduled _ => scheduled && reliability = .unreliable
  | .finishing reliability' => reliability = reliability'
  | _ => false

/-- The task will look at the reliable queue, or see to it that it is looked at. -/
def attends : Task → Bool
  | .enqueued reliability | .scheduling reliability _ | .arming reliability _ =>
      reliability = .reliable
  | .reliablePass _ _ => true
  | _ => false

end Task

/-! ## The machine -/

/-- A sender and the threads in it. -/
structure Threads where
  sender : Sender := {}
  tasks : List Task := []
  canSend : Bool := false
  opened : Bool := false
  failed : Bool := false

/-- What the code reads when a section runs. -/
structure Moment where
  options : ConnectionOptions
  now : Timepoint

namespace Threads

/-- A section of a thread, or something that reaches the sender from outside. -/
inductive Action
  | run (task : Task)
  | expire (reliability : Reliability)
  | enqueue (type : FrameTypeID) (data : Bytes) (reliability : Reliability) (mode : CoalesceMode)
  | sendReliably (paths : MultiPacketPath) (priority : Bool)
  | ack (packetID : PacketID)
  | onAck (ack : Ack)
  | retryTimeout
  | canSend
  | open
  | close
  | fail

variable (z : Zlib)

/-- The environment a section runs in. -/
def env (x : Threads) (m : Moment) : Env := ⟨z, x.canSend, m.options, m.now⟩

/-- One action.  A retry timeout that fails the connection is followed by `fail`;
`Sender::close` is `enqueue`, followed by `close`. -/
def step (x : Threads) : Moment × Action → Threads
  | (m, .run task) =>
      if task ∈ x.tasks then
        let next := task.advance (x.env z m) x.sender
        { x with sender := next.1, tasks := next.2 ++ x.tasks.erase task }
      else x
  | (_, .expire reliability) =>
      let schedule := x.sender.schedule reliability
      if schedule.timeout.isSome then
        { x with
          sender := x.sender.setSchedule { schedule with timeout := none } reliability
          tasks := .expired reliability :: x.tasks }
      else x
  | (_, .enqueue type data reliability mode) =>
      { x with
        sender := x.sender.push type data mode reliability
        tasks := .enqueued reliability :: x.tasks }
  | (m, .sendReliably paths priority) =>
      { x with sender := x.sender.sendReliablyMultipath m.now paths priority }
  | (m, .ack packetID) =>
      { x with
        sender := { x.sender with delayedAcks := x.sender.delayedAcks ++ [⟨packetID, m.now⟩] }
        tasks := .scheduling .unreliable false :: x.tasks }
  | (m, .onAck ack) =>
      { x with
        sender := x.sender.acknowledge m.now ack
        tasks := .scheduling .reliable true :: x.tasks }
  | (m, .retryTimeout) => { x with sender := (x.sender.onRetryTimeout (x.env z m)).2 }
  | (_, .canSend) => if x.opened then x else { x with canSend := true }
  | (_, .open) =>
      { x with
        sender :=
          if x.sender.status = .uninitialized then { x.sender with status := .open }
          else x.sender
        tasks := .scheduling .reliable false :: .scheduling .unreliable false :: x.tasks
        opened := true }
  | (_, .close) => { x with sender := { x.sender with status := .closed } }
  | (_, .fail) => { x with sender := x.sender.fail, failed := true }

/-- No thread is at work, except in a pass that is marked as running. -/
def Quiescent (x : Threads) : Prop :=
  ∀ task ∈ x.tasks, task.holds .reliable = true ∨ task.holds .unreliable = true

instance (x : Threads) : Decidable x.Quiescent := by unfold Quiescent; infer_instance

/-- A timer is armed no later than a deadline. -/
def Armed (schedule : Schedule) (soon : Timepoint) : Prop :=
  ∃ t, schedule.timeout = some t ∧ t ≤ soon

end Threads

/-! ## A thread that is not interrupted -/

namespace Task

open Relation (ReflTransGen)

/-- The only thread takes its next section. -/
inductive Alone (e : Env) : Sender × List Task → Sender × List Task → Prop
  | advance (s : Sender) (task : Task) : Alone e (s, [task]) (task.advance e s)

variable {e : Env}

theorem Alone.of_eq {s : Sender} {task : Task} {next : Sender × List Task}
    (h : task.advance e s = next) : Alone e (s, [task]) next :=
  h ▸ .advance s task

/-- The loop over the reliable queue, section by section. -/
theorem alone_processReliableLoop (scheduled : Bool) (fuel : ℕ) (s : Sender)
    (hfuel : s.dataQueue.depth e.zlib e.options.coalesceReliable.compressionLevel < fuel) :
    ReflTransGen (Alone e) (s, [.reliablePass scheduled .counting])
      (s.processReliableLoop e fuel, leave scheduled .reliable) := by
  induction fuel generalizing s with
  | zero => omega
  | succ fuel ih =>
      have hcount := Alone.advance (e := e) s (.reliablePass scheduled .counting)
      simp only [advance] at hcount
      rw [Sender.processReliableLoop, Sender.transmitNext]
      by_cases hroom : s.retrier.numUnacked < s.windowSize.size
      · rw [if_pos hroom] at hcount ⊢
        have hdequeue := Alone.advance (e := e) s (.reliablePass scheduled .dequeuing)
        rcases hq : s.dataQueue.dequeue e.zlib e.options.coalesceReliable.compressionLevel
          with ⟨_ | packet, q⟩
        · simp only [advance, hq] at hdequeue
          exact .head hcount (.single hdequeue)
        · simp only [advance, hq] at hdequeue
          refine .head hcount (.head hdequeue (.head (.advance _ _) (ih _ ?_)))
          exact Nat.lt_of_lt_of_le (SendQueue.depth_dequeue hq) (Nat.lt_succ_iff.mp hfuel)
      · rw [if_neg hroom] at hcount ⊢
        exact .single hcount

/-- The loop over the unreliable queue, section by section. -/
theorem alone_processUnreliableLoop (scheduled : Bool) (fuel : ℕ) (s : Sender)
    (hfuel :
      s.unreliableDataQueue.depth e.zlib e.options.coalesceUnreliable.compressionLevel < fuel) :
    ReflTransGen (Alone e) (s, [.unreliablePass scheduled .dequeuing])
      (s.processUnreliableLoop e fuel, leave scheduled .unreliable) := by
  induction fuel generalizing s with
  | zero => omega
  | succ fuel ih =>
      have hdequeue := Alone.advance (e := e) s (.unreliablePass scheduled .dequeuing)
      rw [Sender.processUnreliableLoop]
      rcases hq : s.unreliableDataQueue.dequeue e.zlib
        e.options.coalesceUnreliable.compressionLevel with ⟨_ | packet, q⟩
      · simp only [advance, hq] at hdequeue
        exact .single hdequeue
      · simp only [advance, hq] at hdequeue
        refine .head hdequeue (.head (.advance _ _) (ih _ ?_))
        exact Nat.lt_of_lt_of_le (SendQueue.depth_dequeue hq) (Nat.lt_succ_iff.mp hfuel)

/-- A pass that is not interrupted is `Sender.processDataQueue`. -/
theorem alone_processDataQueue (scheduled : Bool) (s : Sender) (reliability : Reliability) :
    ReflTransGen (Alone e) (s, [process scheduled reliability])
      (s.processDataQueue e reliability, leave scheduled reliability) := by
  cases reliability with
  | reliable =>
      show ReflTransGen _ _ (s.processReliableDataQueue e, _)
      rw [Sender.processReliableDataQueue]
      split
      next hready =>
        refine .head (.of_eq (by rw [process, advance, if_pos hready])) ?_
        exact alone_processReliableLoop scheduled _ s (Nat.lt_succ_self _)
      next hready => exact .single (.of_eq (by rw [process, advance, if_neg hready]))
  | unreliable =>
      show ReflTransGen _ _ (s.processUnreliableDataQueue e, _)
      rw [Sender.processUnreliableDataQueue]
      split
      next hready =>
        refine .head (.of_eq (by rw [process, advance, if_pos hready])) (.head (.advance _ _) ?_)
        exact alone_processUnreliableLoop scheduled _ _ (Nat.lt_succ_self _)
      next hready => exact .single (.of_eq (by rw [process, advance, if_neg hready]))

theorem alone_scheduleDataQueueProcessing (s : Sender) (reliability : Reliability)
    (immediate : Bool) :
    ReflTransGen (Alone e) (s, [.scheduling reliability immediate])
      (s.scheduleDataQueueProcessing e reliability immediate, []) := by
  rw [Sender.scheduleDataQueueProcessing]
  dsimp only
  split
  next hmode =>
    refine .head (.of_eq (if_pos hmode)) ?_
    exact alone_processDataQueue false s reliability
  next hmode =>
    refine .head (.of_eq (if_neg hmode)) (.single (.of_eq ?_))
    generalize e.now + milliseconds _ = soon
    split
    next hsoon => exact if_pos hsoon
    next hsoon => exact if_neg hsoon

theorem alone_processSchedule (s : Sender) (reliability : Reliability) :
    ReflTransGen (Alone e) (s, [.expired reliability]) (s.processSchedule e reliability, []) := by
  rw [Sender.processSchedule]
  dsimp only
  split
  next hrunning => exact .single (.of_eq (if_pos hrunning))
  next hrunning =>
    refine .head (.of_eq (if_neg hrunning)) ?_
    exact (alone_processDataQueue true _ reliability).tail (.advance _ _)

end Task

namespace Threads

variable (z : Zlib) {x : Threads} {m : Moment}

/-- **Sequential code is a run of the machine.**  A thread that is alone and not interrupted
does what `scheduleDataQueueProcessing`, or `processSchedule`, does in one step. -/
theorem exists_run_alone {s : Sender} {tasks : List Task}
    (h : Relation.ReflTransGen (Task.Alone (x.env z m)) (x.sender, x.tasks) (s, tasks)) :
    ∃ actions, run (step z) x actions = { x with sender := s, tasks := tasks } := by
  generalize hto : (s, tasks) = state at h
  induction h generalizing s tasks with
  | refl =>
      cases hto
      exact ⟨[], rfl⟩
  | tail _ halone ih =>
      cases halone with
      | advance s' task =>
          obtain ⟨actions, hrun⟩ := ih rfl
          refine ⟨actions ++ [(m, .run task)], ?_⟩
          rw [run_append, hrun, run_cons, run_nil]
          have hs : (task.advance (x.env z m) s').1 = s := by rw [← hto]
          have htasks : (task.advance (x.env z m) s').2 = tasks := by rw [← hto]
          simp [step, env, ← hs, ← htasks]

theorem exists_run_scheduleDataQueueProcessing (reliability : Reliability) (immediate : Bool) :
    ∃ actions, run (step z) { x with tasks := [.scheduling reliability immediate] } actions =
      { x with
        sender := x.sender.scheduleDataQueueProcessing (x.env z m) reliability immediate
        tasks := [] } :=
  exists_run_alone (x := { x with tasks := [.scheduling reliability immediate] }) z (m := m)
    (Task.alone_scheduleDataQueueProcessing _ _ _)

theorem exists_run_processSchedule (reliability : Reliability) :
    ∃ actions, run (step z) { x with tasks := [.expired reliability] } actions =
      { x with sender := x.sender.processSchedule (x.env z m) reliability, tasks := [] } :=
  exists_run_alone (x := { x with tasks := [.expired reliability] }) z (m := m)
    (Task.alone_processSchedule _ _)

end Threads
end MrUDP
