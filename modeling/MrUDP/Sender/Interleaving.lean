import MrUDP.Sender.Threads

/-!
# Nothing stalls in the send queue

A pass over a queue is deferred by a hand-written protocol: a deadline, a timer and
a flag that says that a pass is running.  A deadline set during a pass gets its
timer when the pass ends, and a timer that expires during a pass does nothing.  No
interleaving of the threads loses a deadline that way, and no packet is left in the
reliable queue without a pass to come, unless the window is full: then the
acknowledgement that makes room asks for a pass.

## Main definitions

* `Threads.Sound`: a deadline has a timer, and packets that wait are attended to.
* `Sender.Estimated`: the window size goes with the round trip time, so that a retry
  makes no room.
-/

namespace MrUDP
open Machine

/-! ## What the sections leave alone -/

namespace Sender

variable (s : Sender)

theorem schedule_setSchedule (schedule : Schedule) (reliability reliability' : Reliability) :
    (s.setSchedule schedule reliability).schedule reliability' =
      if reliability' = reliability then schedule else s.schedule reliability' := by
  cases reliability <;> cases reliability' <;> rfl

/-- A schedule is all that is replaced. -/
theorem setSchedule_frame (schedule : Schedule) (reliability : Reliability) :
    (s.setSchedule schedule reliability).dataQueue = s.dataQueue ∧
      (s.setSchedule schedule reliability).retrier = s.retrier ∧
      (s.setSchedule schedule reliability).rtt = s.rtt ∧
      (s.setSchedule schedule reliability).windowSize = s.windowSize ∧
      (s.setSchedule schedule reliability).status = s.status := by
  cases reliability <;> simp [setSchedule]

theorem schedule_acknowledge (now : Timepoint) (ack : Ack) (reliability : Reliability) :
    (s.acknowledge now ack).schedule reliability = s.schedule reliability := by
  unfold acknowledge
  dsimp only
  split <;> cases reliability <;> rfl

theorem schedule_onRetryTimeout (e : Env) (reliability : Reliability) :
    (s.onRetryTimeout e).2.schedule reliability = s.schedule reliability := by
  unfold onRetryTimeout
  split <;> cases reliability <;> rfl

theorem onRetryTimeout_frame (e : Env) :
    (s.onRetryTimeout e).2.dataQueue = s.dataQueue ∧
      (s.onRetryTimeout e).2.status = s.status := by
  unfold onRetryTimeout
  split <;> exact ⟨rfl, rfl⟩

theorem schedule_push (type : FrameTypeID) (data : Bytes) (mode : CoalesceMode)
    (reliability reliability' : Reliability) :
    (s.push type data mode reliability).schedule reliability' = s.schedule reliability' := by
  cases reliability <;> cases reliability' <;> rfl

end Sender

/-! ## The estimates -/

namespace RTT

theorem a_eq : a = 15099494 / 2 ^ 24 := by decide +kernel

theorem b_eq : b = 1677722 / 2 ^ 24 := by decide +kernel

/-- An estimate: a `float` between the bounds. -/
structure Valid (duration : ℚ) : Prop where
  single : Format.binary32.Mem duration
  minimum : RTT.minimum ≤ duration
  maximum : duration ≤ RTT.maximum

theorem valid_maximum : Valid maximum where
  single := ⟨1, 0, by decide, by decide, by norm_num [maximum]⟩
  minimum := by decide +kernel
  maximum := le_refl _

theorem valid_calculate (duration sample : ℚ) : Valid (calculate duration sample) where
  single := by
    rw [calculate]
    rcases min_choice maximum (max minimum _) with h | h <;> rw [h]
    · exact valid_maximum.single
    · rcases max_choice minimum _ with h | h <;> rw [h]
      all_goals exact Format.mem_round (by decide) _
  minimum := le_min valid_maximum.minimum (le_max_left _ _)
  maximum := min_le_left _ _

theorem Valid.pos {duration : ℚ} (h : Valid duration) : 0 < duration :=
  lt_of_lt_of_le (by decide +kernel) h.minimum

/-- The part of the old estimate loses no more by rounding than the sample adds. -/
theorem Valid.sub_b_le {duration : ℚ} (h : Valid duration) :
    duration - b ≤ Format.binary32.round (a * duration) := by
  have hmax : duration ≤ 1 := h.maximum
  have hmin : 1 ≤ a * duration * 2 ^ 24 := by
    have hleast : 1 ≤ a * RTT.minimum * 2 ^ 24 := by decide +kernel
    have := h.minimum
    rw [a_eq] at hleast ⊢
    linarith
  -- A multiple of the last place of the numbers below one lies between the two sides.
  suffices hgrid : ∃ n : ℤ, 0 < n ∧ duration - b ≤ n * 2 ^ (-24 : ℤ) ∧
      n * 2 ^ (-24 : ℤ) ≤ a * duration by
    obtain ⟨n, hpos, hlower, hupper⟩ := hgrid
    have hn : (n : ℚ) < 2 ^ 24 := by
      rw [a_eq] at hupper
      norm_num at hupper ⊢
      linarith
    have hmem : Format.binary32.Mem (n * 2 ^ (-24 : ℤ)) := by
      refine ⟨n, -24, ?_, by decide, rfl⟩
      rw [abs_of_pos hpos]
      exact_mod_cast hn
    calc duration - b ≤ n * 2 ^ (-24 : ℤ) := hlower
      _ = Format.binary32.round (n * 2 ^ (-24 : ℤ)) := (Format.round_of_mem hmem).symm
      _ ≤ Format.binary32.round (a * duration) :=
          Format.round_mono (by decide) (by positivity) hupper
  obtain ⟨n, hle, hlt⟩ : ∃ n : ℤ, (n : ℚ) ≤ a * duration * 2 ^ 24 ∧
      a * duration * 2 ^ 24 < n + 1 := ⟨_, Int.floor_le _, Int.lt_floor_add_one _⟩
  refine ⟨n, ?_, ?_, by norm_num at hle ⊢; linarith⟩
  · have hn : (1 : ℚ) < n + 1 := hmin.trans_lt hlt
    exact Int.lt_add_one_iff.mp (by exact_mod_cast hn)
  · rcases le_or_gt (1 / 2) duration with hhalf | hhalf
    · -- The left side is such a multiple itself.
      obtain ⟨k, hk⟩ := h.single.exists_mul (j := -24) (by norm_num [Format.binary32]; linarith)
      have hk' : (k - 1677722 : ℚ) < n + 1 := by
        rw [a_eq] at hlt
        norm_num at hk hlt
        linarith
      have hcast : (k - 1677722 : ℚ) ≤ n := by
        exact_mod_cast Int.le_of_lt_add_one (by exact_mod_cast hk')
      rw [b_eq]
      norm_num at hk ⊢
      linarith
    · rw [a_eq] at hlt
      rw [b_eq]
      norm_num at hlt ⊢
      linarith

/-- A packet that is not acknowledged in time makes the estimate no shorter. -/
theorem le_onAckFailure {r : RTT} (h : Valid r.duration) :
    r.duration ≤ r.onAckFailure.duration := by
  have hb : Format.binary32.round (b * maximum) = b := by decide +kernel
  refine le_min h.maximum (le_max_of_le_right ?_)
  calc r.duration = Format.binary32.round r.duration := (Format.round_of_mem h.single).symm
    _ ≤ Format.binary32.round (Format.binary32.round (a * r.duration) +
          Format.binary32.round (b * maximum)) := by
        refine Format.round_mono (by decide) h.pos ?_
        rw [hb]
        linarith [h.sub_b_le]

end RTT

/-- A longer round trip makes a window no larger. -/
theorem WindowSize.onSample_anti (w : WindowSize) {rtt rtt' : ℚ} (hpos : 0 < rtt)
    (h : rtt ≤ rtt') : (w.onSample rtt').size ≤ (w.onSample rtt).size := by
  have hdiv : 2 / rtt' ≤ 2 / rtt := div_le_div_of_nonneg_left (by norm_num) hpos h
  have hround : Format.binary32.round (2 / rtt') ≤ Format.binary32.round (2 / rtt) :=
    Format.round_mono (by decide) (div_pos two_pos (hpos.trans_le h)) hdiv
  have hfloor := Int.toNat_le_toNat (Rat.floor_monotone hround)
  simp only [onSample, Arithmetic.ieee]
  omega

namespace Retrier

variable (r : Retrier) (rtt : RTT) (now : Timepoint)

@[simp] theorem numUnacked_recalculateRetryTimeout :
    (r.recalculateRetryTimeout rtt).numUnacked = r.numUnacked := by
  unfold recalculateRetryTimeout
  split
  · rfl
  next id retry h =>
    have hmem : id ∈ r.window := by
      simp [Std.ExtTreeMap.mem_iff_isSome_getElem?, r.window_of_getNextRetry h]
    simp [numUnacked, Std.ExtTreeMap.size_insert, hmem]

theorem numUnacked_le_insert (paths : MultiPacketPath) (priority : Bool) (serial : ℕ) :
    r.numUnacked ≤ (r.insert rtt paths now priority serial).numUnacked := by
  unfold insert
  split
  · rfl
  · dsimp only
    have hsize : ∀ (id : PacketID) (retry : Retry),
        r.window.size ≤ (r.window.insertIfNew id retry).size := by
      intro id retry
      rw [Std.ExtTreeMap.size_insertIfNew]
      split <;> omega
    split
    · rw [numUnacked_recalculateRetryTimeout]
      exact hsize _ _
    · exact hsize _ _

end Retrier

namespace Sender

/-- The window size goes with the round trip time. -/
structure Estimated (s : Sender) : Prop where
  valid : RTT.Valid s.rtt.duration
  size : s.windowSize = s.windowSize.onSample s.rtt.duration

namespace Estimated

variable {s : Sender}

theorem init : Estimated {} where
  valid := RTT.valid_maximum
  size := by decide +kernel

theorem congr (h : s.Estimated) {s' : Sender} (hrtt : s'.rtt = s.rtt)
    (hsize : s'.windowSize = s.windowSize) : s'.Estimated := by
  obtain ⟨hvalid, heq⟩ := h
  exact ⟨hrtt ▸ hvalid, by rw [hrtt, hsize, ← heq]⟩

theorem sampled (rtt : RTT) (w : WindowSize) (sample : ℚ) {s' : Sender}
    (hrtt : s'.rtt = rtt.onSample sample)
    (hsize : s'.windowSize = w.onSample (rtt.onSample sample).duration) : s'.Estimated := by
  refine ⟨hrtt ▸ RTT.valid_calculate rtt.duration sample, ?_⟩
  rw [hrtt, hsize]
  rfl

theorem acknowledge (h : s.Estimated) (now : Timepoint) (ack : Ack) :
    (s.acknowledge now ack).Estimated := by
  unfold Sender.acknowledge
  dsimp only
  split
  · exact sampled s.rtt s.windowSize _ rfl rfl
  · exact h.congr rfl rfl

theorem onRetryTimeout (h : s.Estimated) (e : Env) : (s.onRetryTimeout e).2.Estimated := by
  unfold Sender.onRetryTimeout
  split
  · exact h
  · exact sampled s.rtt s.windowSize _ rfl rfl
  · exact h.congr rfl rfl

end Estimated

/-- A retry timeout leaves the number of packets in the window, which does not grow. -/
theorem full_onRetryTimeout {s : Sender} (h : s.Estimated)
    (hfull : s.windowSize.size ≤ s.retrier.numUnacked) (e : Env) :
    (s.onRetryTimeout e).2.windowSize.size ≤ (s.onRetryTimeout e).2.retrier.numUnacked := by
  unfold onRetryTimeout
  split
  · exact hfull
  next id retry hdue =>
    have hmem : id ∈ s.retrier.window := by
      simp [Std.ExtTreeMap.mem_iff_isSome_getElem?, s.retrier.window_of_onRetryTimeout e.now hdue]
    have hcount : (s.resend e.now id retry).retrier.numUnacked = s.retrier.numUnacked := by
      rw [resend]
      dsimp only
      rw [Retrier.numUnacked_recalculateRetryTimeout]
      simp [Retrier.numUnacked, Std.ExtTreeMap.size_insert, hmem]
    have hsize := s.windowSize.onSample_anti h.valid.pos (RTT.le_onAckFailure h.valid)
    rw [← h.size] at hsize
    rw [hcount]
    exact hsize.trans hfull
  · rw [Retrier.numUnacked_recalculateRetryTimeout]
    exact hfull

end Sender

/-! ## The invariant -/

namespace Threads

/-- Packets wait in the reliable queue of a sender that can send them. -/
structure Waiting (x : Threads) : Prop where
  opened : x.opened = true
  canSend : x.canSend = true
  failed : x.failed = false
  queue : x.sender.dataQueue.empty = false

/-- The reliable queue is going to be processed, or the window is full. -/
def Attended (x : Threads) : Prop :=
  (x.sender.schedule .reliable).when.isSome = true ∨ (∃ task ∈ x.tasks, task.attends = true) ∨
    x.sender.windowSize.size ≤ x.sender.retrier.numUnacked

/-- What holds whatever the threads are doing. -/
structure Sound (x : Threads) : Prop where
  /-- A deadline has a pass that will see it, or a timer. -/
  timer : ∀ r soon, (x.sender.schedule r).when = some soon →
    (x.sender.schedule r).running = true ∨ Armed (x.sender.schedule r) soon ∨
      Task.expired r ∈ x.tasks
  /-- One thread at a time is in a scheduled pass. -/
  holder : ∀ r, x.tasks.countP (Task.holds r) = if (x.sender.schedule r).running then 1 else 0
  queue : x.failed = false → x.sender.dataQueue.status = .open
  ready : x.opened = true → x.sender.status ≠ .uninitialized
  estimated : x.sender.Estimated
  work : x.Waiting → x.Attended

/-- The threads after a section of one of them. -/
def after (x : Threads) (e : Env) (task : Task) (rest : List Task) : Threads :=
  { x with sender := (task.advance e x.sender).1, tasks := (task.advance e x.sender).2 ++ rest }

variable (z : Zlib) {x : Threads} {task : Task} {rest : List Task}

namespace Sound

theorem init : Sound {} where
  timer r soon h := by cases r <;> cases h
  holder r := by cases r <;> rfl
  queue _ := rfl
  ready h := nomatch h
  estimated := .init
  work h := nomatch h.opened

/-- The threads are in no order. -/
theorem perm (h : x.Sound) {tasks : List Task} (hp : x.tasks.Perm tasks) :
    Sound { x with tasks := tasks } where
  __ := h
  timer r soon hw := (h.timer r soon hw).imp_right fun h => h.imp_right hp.mem_iff.mp
  holder r := (hp.countP_eq _).symm.trans (h.holder r)
  work hw := by
    rcases h.work { hw with } with hwhen | ⟨t, ht, ha⟩ | hfull
    · exact .inl hwhen
    · exact .inr (.inl ⟨t, hp.mem_iff.mp ht, ha⟩)
    · exact .inr (.inr hfull)

variable {next : List Task}

/-- What waited before a section waits for the same threads after it, if the thread of the
section was not one of them. -/
theorem attended_of_not_attends (h : Sound { x with tasks := task :: rest })
    (hattends : task.attends = false) {s : Sender} (hqueue : s.dataQueue = x.sender.dataQueue)
    (hwhen : (s.schedule .reliable).when = (x.sender.schedule .reliable).when)
    (hsize : s.windowSize = x.sender.windowSize) (hretrier : s.retrier = x.sender.retrier)
    (hw : Waiting { x with sender := s, tasks := next ++ rest }) :
    Attended { x with sender := s, tasks := next ++ rest } := by
  have hold := h.work { hw with queue := hqueue ▸ hw.queue }
  rcases hold with hsome | ⟨t, ht, ha⟩ | hfull
  · exact .inl ((congrArg Option.isSome hwhen).trans hsome)
  · rcases List.mem_cons.mp ht with rfl | ht
    · simp [hattends] at ha
    · exact .inr (.inl ⟨t, List.mem_append_right _ ht, ha⟩)
  · refine .inr (.inr ?_)
    show s.windowSize.size ≤ s.retrier.numUnacked
    rw [hsize, hretrier]
    exact hfull

/-- A section that leaves the schedules alone. -/
theorem section_of_schedule (h : Sound { x with tasks := task :: rest }) {s : Sender}
    (hexpired : ∀ r, task ≠ .expired r)
    (hholds : ∀ r, next.countP (Task.holds r) = [task].countP (Task.holds r))
    (hschedule : ∀ r, s.schedule r = x.sender.schedule r)
    (hqueue : s.dataQueue.status = x.sender.dataQueue.status) (hstatus : s.status = x.sender.status)
    (hestimated : s.Estimated)
    (hwork : Waiting { x with sender := s, tasks := next ++ rest } →
      Attended { x with sender := s, tasks := next ++ rest }) :
    Sound { x with sender := s, tasks := next ++ rest } where
  timer r soon hw := by
    rw [hschedule r] at hw ⊢
    rcases h.timer r soon hw with hrun | harmed | hmem
    · exact .inl hrun
    · exact .inr (.inl harmed)
    · rcases List.mem_cons.mp hmem with heq | hmem
      · exact absurd heq.symm (hexpired r)
      · exact .inr (.inr (List.mem_append_right _ hmem))
  holder r := by
    rw [List.countP_append, hholds r, hschedule r, ← List.countP_append]
    exact h.holder r
  queue hfailed := hqueue.trans (h.queue hfailed)
  ready hopened := hstatus ▸ h.ready hopened
  estimated := hestimated
  work := hwork

/-- A section that replaces one schedule and nothing else. -/
theorem section_of_setSchedule (h : Sound { x with tasks := task :: rest }) {schedule : Schedule}
    {r : Reliability} (hexpired : ∀ r', task = .expired r' → r' = r)
    (htimer : ∀ soon, schedule.when = some soon → schedule.running = true ∨ Armed schedule soon)
    (hholds : ∀ r' ≠ r, next.countP (Task.holds r') = [task].countP (Task.holds r'))
    (hholder : (next ++ rest).countP (Task.holds r) = if schedule.running then 1 else 0)
    (hwork : Waiting { x with sender := x.sender.setSchedule schedule r, tasks := next ++ rest } →
      Attended { x with sender := x.sender.setSchedule schedule r, tasks := next ++ rest }) :
    Sound { x with sender := x.sender.setSchedule schedule r, tasks := next ++ rest } := by
  obtain ⟨hqueue, hretrier, hrtt, hsize, hstatus⟩ := x.sender.setSchedule_frame schedule r
  refine ⟨fun r' soon hw => ?_, fun r' => ?_, fun hfailed => ?_, fun hopened => ?_,
    h.estimated.congr hrtt hsize, hwork⟩
  · rw [Sender.schedule_setSchedule] at hw ⊢
    by_cases hr : r' = r
    · rw [if_pos hr] at hw ⊢
      exact (htimer soon hw).imp_right .inl
    · rw [if_neg hr] at hw ⊢
      rcases h.timer r' soon hw with hrun | harmed | hmem
      · exact .inl hrun
      · exact .inr (.inl harmed)
      · rcases List.mem_cons.mp hmem with heq | hmem
        · exact absurd (hexpired r' heq.symm) hr
        · exact .inr (.inr (List.mem_append_right _ hmem))
  · rw [Sender.schedule_setSchedule]
    by_cases hr : r' = r
    · rw [if_pos hr, hr]
      exact hholder
    · rw [if_neg hr, List.countP_append, hholds r' hr, ← List.countP_append]
      exact h.holder r'
  · exact (congrArg SendQueue.status hqueue).trans (h.queue hfailed)
  · exact hstatus ▸ h.ready hopened

/-! ## The sections of the threads -/

section Advance

variable (e : Env)

/-- A sender whose packets wait is ready. -/
theorem isReadyToSend {tasks : List Task} (h : Sound { x with tasks := task :: rest })
    (he : e.canSend = x.canSend) (hw : Waiting { x with tasks := tasks }) :
    x.sender.isReadyToSend e = true := by
  have hstatus := h.ready hw.opened
  have hcan : e.canSend = true := he.trans hw.canSend
  simp_all [Sender.isReadyToSend]

theorem attended_of_mem {tasks : List Task} {t : Task} (ht : t ∈ tasks) (ha : t.attends = true) :
    Attended { x with tasks := tasks } := .inr (.inl ⟨t, ht, ha⟩)

variable {r : Reliability}

theorem enqueued (h : Sound { x with tasks := .enqueued r :: rest }) (he : e.canSend = x.canSend) :
    Sound (x.after e (.enqueued r) rest) := by
  refine h.section_of_schedule (by simp) (fun r' => ?_) (fun _ => rfl) rfl rfl h.estimated
    fun hw => ?_
  · simp only [Task.advance]
    split <;> rfl
  · cases r with
    | reliable =>
        have hready := h.isReadyToSend e he hw
        refine attended_of_mem (t := .scheduling .reliable false) ?_ rfl
        simp [Task.advance, hready]
    | unreliable => exact h.attended_of_not_attends rfl rfl rfl rfl rfl hw

theorem scheduling {immediate : Bool}
    (h : Sound { x with tasks := .scheduling r immediate :: rest }) :
    Sound (x.after e (.scheduling r immediate) rest) := by
  simp only [after, Task.advance]
  split
  · refine h.section_of_schedule (by simp) (fun r' => ?_) (fun _ => rfl) rfl rfl h.estimated
      fun hw => ?_
    · cases r <;> rfl
    · cases r with
      | reliable => exact attended_of_mem List.mem_cons_self rfl
      | unreliable => exact h.attended_of_not_attends rfl rfl rfl rfl rfl hw
  · refine h.section_of_schedule (by simp) (fun r' => rfl) (fun _ => rfl) rfl rfl h.estimated
      fun hw => ?_
    cases r with
    | reliable => exact attended_of_mem List.mem_cons_self rfl
    | unreliable => exact h.attended_of_not_attends rfl rfl rfl rfl rfl hw

/-- The deadline that is set has a timer unless a pass is running. -/
theorem arming {soon : Timepoint} (h : Sound { x with tasks := .arming r soon :: rest }) :
    Sound (x.after e (.arming r soon) rest) := by
  have hholder := h.holder r
  simp only [List.countP_cons, Task.holds] at hholder
  simp only [after, Task.advance]
  split
  · refine h.section_of_setSchedule (by simp) (fun soon' hsoon => ?_) (fun _ _ => rfl) ?_
      fun hw => ?_
    · split at hsoon
      next hrun => exact .inl (by simp [hrun])
      next hrun =>
        cases hsoon
        exact .inr ⟨soon, by simp [hrun]⟩
    · split <;> next hrun => simpa [hrun] using hholder
    · cases r with
      | reliable =>
          left
          rw [Sender.schedule_setSchedule, if_pos rfl]
          split <;> rfl
      | unreliable =>
          obtain ⟨hqueue, hretrier, -, hsize, -⟩ := x.sender.setSchedule_frame _ .unreliable
          exact h.attended_of_not_attends rfl hqueue rfl hsize hretrier hw
  next hlater =>
    refine h.section_of_schedule (by simp) (fun _ => rfl) (fun _ => rfl) rfl rfl h.estimated
      fun hw => ?_
    cases r with
    | reliable =>
        -- The deadline that is there is not later.
        left
        cases hwhen : (x.sender.schedule .reliable).when with
        | none => simp [hwhen] at hlater
        | some _ => rfl
    | unreliable => exact h.attended_of_not_attends rfl rfl rfl rfl rfl hw

/-- A timer that expires during a pass is of no use: the pass itself sees the deadline. -/
theorem expired (h : Sound { x with tasks := .expired r :: rest }) :
    Sound (x.after e (.expired r) rest) := by
  have hholder := h.holder r
  simp only [List.countP_cons, Task.holds] at hholder
  simp only [after, Task.advance]
  split
  next hrun =>
    have hself : x.sender.setSchedule (x.sender.schedule r) r = x.sender := by cases r <;> rfl
    suffices hsound : Sound
        { x with sender := x.sender.setSchedule (x.sender.schedule r) r, tasks := [] ++ rest } by
      rwa [hself] at hsound
    refine h.section_of_setSchedule (by simp) (fun _ _ => .inl hrun) (fun _ _ => rfl)
      (by simpa using hholder) fun hw => ?_
    rw [hself] at hw ⊢
    exact h.attended_of_not_attends rfl rfl rfl rfl rfl hw
  next hrun =>
    refine h.section_of_setSchedule (by simp) (by simp) (fun r' hr => ?_) ?_ fun hw => ?_
    · cases r <;> cases r' <;> first | rfl | exact absurd rfl hr
    · cases r <;> simpa [Task.process, Task.holds, List.countP_cons, hrun] using hholder
    · cases r with
      | reliable => exact .inr (.inl ⟨_, List.mem_cons_self, rfl⟩)
      | unreliable =>
          obtain ⟨hqueue, hretrier, -, hsize, -⟩ := x.sender.setSchedule_frame _ .unreliable
          exact h.attended_of_not_attends rfl hqueue rfl hsize hretrier hw

/-- The deadline set during a pass gets its timer when the pass ends. -/
theorem finishing (h : Sound { x with tasks := .finishing r :: rest }) :
    Sound (x.after e (.finishing r) rest) := by
  have hholder := h.holder r
  simp only [after, Task.advance]
  refine h.section_of_setSchedule (by simp) (fun soon hsoon => ?_) (fun r' hr => ?_) ?_
    fun hw => ?_
  · right
    split at hsoon
    next hnone => simp [hnone] at hsoon
    next soon' hsome =>
      refine ⟨soon', rfl, ?_⟩
      have : some soon' = some soon := hsome.symm.trans hsoon
      simp_all
  · simp [Task.holds, hr]
  · have hnone : rest.countP (Task.holds r) = 0 := by
      simp only [List.countP_cons, Task.holds, decide_true, if_true] at hholder
      split at hholder <;> omega
    split <;> simpa using hnone
  · cases r with
    | reliable =>
        obtain ⟨hqueue, hretrier, -, hsize, -⟩ := x.sender.setSchedule_frame _ .reliable
        refine h.attended_of_not_attends rfl hqueue ?_ hsize hretrier hw
        rw [Sender.schedule_setSchedule, if_pos rfl]
        split <;> rfl
    | unreliable =>
        obtain ⟨hqueue, hretrier, -, hsize, -⟩ := x.sender.setSchedule_frame _ .unreliable
        exact h.attended_of_not_attends rfl hqueue rfl hsize hretrier hw

/-- A pass leaves the reliable queue when the window is full or the queue is empty. -/
theorem reliablePass {scheduled : Bool} {stage : ReliableStage}
    (h : Sound { x with tasks := .reliablePass scheduled stage :: rest })
    (he : e.canSend = x.canSend) :
    Sound (x.after e (.reliablePass scheduled stage) rest) := by
  have hleave : ∀ r, (Task.leave scheduled .reliable).countP (Task.holds r) =
      [Task.reliablePass scheduled stage].countP (Task.holds r) := by
    intro r
    cases scheduled <;> cases r <;> rfl
  cases stage with
  | entered =>
      refine h.section_of_schedule (by simp) (fun r => ?_) (fun _ => rfl) rfl rfl h.estimated
        fun hw => ?_
      · simp only [Task.advance]
        split
        · rfl
        · exact hleave r
      · have hready := h.isReadyToSend e he hw
        refine attended_of_mem (t := .reliablePass scheduled .counting) ?_ rfl
        simp [Task.advance, hready]
  | counting =>
      refine h.section_of_schedule (by simp) (fun r => ?_) (fun _ => rfl) rfl rfl h.estimated
        fun hw => ?_
      · simp only [Task.advance]
        split
        · rfl
        · exact hleave r
      · by_cases hroom : x.sender.retrier.numUnacked < x.sender.windowSize.size
        · refine attended_of_mem (t := .reliablePass scheduled .dequeuing) ?_ rfl
          simp [Task.advance, hroom]
        · exact .inr (.inr (not_lt.mp hroom))
  | dequeuing =>
      have hstatus := x.sender.dataQueue.status_dequeue e.zlib
        e.options.coalesceReliable.compressionLevel
      simp only [after, Task.advance]
      split
      next q hq =>
        obtain ⟨rfl, hempty⟩ := SendQueue.dequeue_eq_none hq
        refine h.section_of_schedule (by simp) hleave (fun r => by cases r <;> rfl) rfl rfl
          (h.estimated.congr rfl rfl) fun hw => ?_
        rcases hempty with hclosed | ⟨hqueue, hbuffer⟩
        · exact absurd ((h.queue hw.failed).symm.trans hclosed) (by simp)
        · have hwaits := hw.queue
          simp [SendQueue.empty, hqueue, hbuffer] at hwaits
      next packet q hq =>
        rw [hq] at hstatus
        refine h.section_of_schedule (by simp) (fun r => rfl) (fun r => by cases r <;> rfl)
          hstatus rfl (h.estimated.congr rfl rfl) fun _ => ?_
        exact attended_of_mem (x := { x with sender := { x.sender with dataQueue := q } })
          List.mem_cons_self rfl
  | sending packet =>
      refine h.section_of_schedule (by simp) (fun r => rfl) (fun r => by cases r <;> rfl) rfl rfl
        (h.estimated.congr rfl rfl) fun _ => ?_
      exact attended_of_mem (x := { x with sender := x.sender.sendReliably e.now packet })
        List.mem_cons_self rfl

/-- A pass over the other queue has nothing to do with the reliable one. -/
theorem unreliablePass {scheduled : Bool} {stage : UnreliableStage}
    (h : Sound { x with tasks := .unreliablePass scheduled stage :: rest }) :
    Sound (x.after e (.unreliablePass scheduled stage) rest) := by
  have hleave : ∀ r, (Task.leave scheduled .unreliable).countP (Task.holds r) =
      [Task.unreliablePass scheduled stage].countP (Task.holds r) := by
    intro r
    cases scheduled <;> cases r <;> rfl
  -- Whatever the section does, it changes only the unreliable queue and what is sent.
  have hsection : ∀ {s : Sender} {next : List Task},
      (∀ r, next.countP (Task.holds r) =
        [Task.unreliablePass scheduled stage].countP (Task.holds r)) →
      (∀ r, s.schedule r = x.sender.schedule r) → s.dataQueue = x.sender.dataQueue →
      s.status = x.sender.status → s.rtt = x.sender.rtt → s.windowSize = x.sender.windowSize →
      s.retrier = x.sender.retrier → Sound { x with sender := s, tasks := next ++ rest } := by
    intro s next hholds hschedule hqueue hstatus hrtt hsize hretrier
    exact h.section_of_schedule (by simp) hholds hschedule (congrArg SendQueue.status hqueue)
      hstatus (h.estimated.congr hrtt hsize) fun hw =>
        h.attended_of_not_attends rfl hqueue (congrArg Schedule.when (hschedule .reliable)) hsize
          hretrier hw
  cases stage with
  | entered =>
      simp only [after, Task.advance]
      split
      · exact hsection (fun r => rfl) (fun r => rfl) rfl rfl rfl rfl rfl
      · exact hsection hleave (fun r => by cases r <;> rfl) rfl rfl rfl rfl rfl
  | acking => exact hsection (fun r => rfl) (fun r => by cases r <;> rfl) rfl rfl rfl rfl rfl
  | dequeuing =>
      simp only [after, Task.advance]
      split
      · exact hsection hleave (fun r => by cases r <;> rfl) rfl rfl rfl rfl rfl
      · exact hsection (fun r => rfl) (fun r => by cases r <;> rfl) rfl rfl rfl rfl rfl
  | sending packet =>
      exact hsection (fun r => rfl) (fun r => by cases r <;> rfl) rfl rfl rfl rfl rfl

end Advance

/-- **One section of one thread.** -/
theorem advance (h : Sound { x with tasks := task :: rest }) {e : Env}
    (he : e.canSend = x.canSend) :
    Sound (x.after e task rest) := by
  cases task with
  | enqueued r => exact h.enqueued e he
  | scheduling r immediate => exact h.scheduling e
  | arming r soon => exact h.arming e
  | expired r => exact h.expired e
  | reliablePass scheduled stage => exact h.reliablePass e he
  | unreliablePass scheduled stage => exact h.unreliablePass e
  | finishing r => exact h.finishing e

/-! ## What reaches the sender from outside -/

/-- Something that leaves the schedules alone, starts threads that hold no flag, and after which
packets that wait are attended to. -/
theorem outside (h : x.Sound) {y : Threads} (new : List Task) (htasks : y.tasks = new ++ x.tasks)
    (hholds : ∀ r, new.countP (Task.holds r) = 0)
    (hschedule : ∀ r, y.sender.schedule r = x.sender.schedule r)
    (hqueue : y.failed = false → y.sender.dataQueue.status = .open)
    (hready : y.opened = true → y.sender.status ≠ .uninitialized)
    (hestimated : y.sender.Estimated) (hwork : y.Waiting → y.Attended) : y.Sound where
  timer r soon hw := by
    rw [hschedule r] at hw ⊢
    exact (h.timer r soon hw).imp_right fun hor => hor.imp_right fun hmem =>
      htasks ▸ List.mem_append_right _ hmem
  holder r := by
    rw [htasks, List.countP_append, hholds r, hschedule r, Nat.zero_add]
    exact h.holder r
  queue := hqueue
  ready := hready
  estimated := hestimated
  work := hwork

/-- Packets that waited before are attended to if nothing was taken away. -/
theorem attended_mono (h : x.Sound) {y : Threads} (hopened : y.opened = x.opened)
    (hcan : y.canSend = x.canSend) (hfailed : y.failed = x.failed)
    (hqueue : y.sender.dataQueue = x.sender.dataQueue)
    (hwhen : (y.sender.schedule .reliable).when = (x.sender.schedule .reliable).when)
    (htasks : ∀ t ∈ x.tasks, t ∈ y.tasks)
    (hfull : x.sender.windowSize.size ≤ x.sender.retrier.numUnacked →
      y.sender.windowSize.size ≤ y.sender.retrier.numUnacked) (hw : y.Waiting) : y.Attended := by
  have hold := h.work ⟨hopened ▸ hw.opened, hcan ▸ hw.canSend, hfailed ▸ hw.failed,
    hqueue ▸ hw.queue⟩
  rcases hold with hsome | ⟨t, ht, ha⟩ | hold
  · exact .inl ((congrArg Option.isSome hwhen).trans hsome)
  · exact .inr (.inl ⟨t, htasks t ht, ha⟩)
  · exact .inr (.inr (hfull hold))

/-- A timer expires: a thread is under way instead. -/
theorem expire (h : x.Sound) (m : Moment) (r : Reliability) :
    (x.step z (m, .expire r)).Sound := by
  simp only [step]
  split
  · obtain ⟨hqueue, hretrier, hrtt, hsize, hstatus⟩ :=
      x.sender.setSchedule_frame { x.sender.schedule r with timeout := none } r
    refine ⟨fun r' soon hw => ?_, fun r' => ?_, fun hfailed => ?_, fun hopened => ?_,
      h.estimated.congr hrtt hsize, ?_⟩
    · rw [Sender.schedule_setSchedule] at hw ⊢
      by_cases hr : r' = r
      · subst hr
        exact .inr (.inr List.mem_cons_self)
      · rw [if_neg hr] at hw ⊢
        exact (h.timer r' soon hw).imp_right fun hor => hor.imp_right (List.mem_cons_of_mem _)
    · rw [Sender.schedule_setSchedule, List.countP_cons_of_neg (by simp [Task.holds]), h.holder r']
      by_cases hr : r' = r
      · rw [if_pos hr, hr]
      · rw [if_neg hr]
    · exact (congrArg SendQueue.status hqueue).trans (h.queue hfailed)
    · exact hstatus ▸ h.ready hopened
    · refine h.attended_mono rfl rfl rfl hqueue ?_ (fun _ => List.mem_cons_of_mem _) ?_
      · cases r <;> rfl
      · show _ → (x.sender.setSchedule _ r).windowSize.size ≤
          (x.sender.setSchedule _ r).retrier.numUnacked
        rw [hretrier, hsize]
        exact id
  · exact h

/-- **One action.** -/
theorem step (h : x.Sound) (a : Moment × Action) : (x.step z a).Sound := by
  obtain ⟨m, action⟩ := a
  cases action with
  | run task =>
      simp only [Threads.step]
      split
      next hmem =>
        exact (h.perm (List.perm_cons_erase hmem)).advance (e := x.env z m) rfl
      · exact h
  | expire r => exact h.expire z m r
  | enqueue type data r mode =>
      refine h.outside [.enqueued r] rfl (fun r' => rfl)
        (fun r' => x.sender.schedule_push type data mode r r') (fun hfailed => ?_)
        (fun hopened => ?_) ?_ fun hw => ?_
      · cases r with
        | reliable => exact (SendQueue.status_enqueue _ _ _ _).trans (h.queue hfailed)
        | unreliable => exact h.queue hfailed
      · cases r <;> exact h.ready hopened
      · cases r <;> exact h.estimated.congr rfl rfl
      · cases r with
        | reliable => exact .inr (.inl ⟨_, List.mem_cons_self, rfl⟩)
        | unreliable =>
            exact h.attended_mono rfl rfl rfl rfl rfl (fun _ => List.mem_cons_of_mem _) id hw
  | sendReliably paths priority =>
      refine h.outside [] rfl (fun r => rfl) (fun r => by cases r <;> rfl) h.queue h.ready
        (h.estimated.congr rfl rfl) (h.attended_mono rfl rfl rfl rfl rfl (fun _ => id) ?_)
      exact fun hfull => hfull.trans (x.sender.retrier.numUnacked_le_insert _ _ _ _ _)
  | ack packetID =>
      exact h.outside [.scheduling .unreliable false] rfl (fun r => rfl)
        (fun r => by cases r <;> rfl) h.queue h.ready (h.estimated.congr rfl rfl)
        (h.attended_mono rfl rfl rfl rfl rfl (fun _ => List.mem_cons_of_mem _) id)
  | onAck ack =>
      obtain ⟨hqueue, -, -, -⟩ := Sender.acknowledge_frame (s := x.sender) m.now ack
      refine h.outside [.scheduling .reliable true] rfl (fun r => rfl)
        (x.sender.schedule_acknowledge m.now ack) (fun hfailed => ?_) (fun hopened => ?_)
        (h.estimated.acknowledge m.now ack) fun _ => .inr (.inl ⟨_, List.mem_cons_self, rfl⟩)
      · exact (congrArg SendQueue.status hqueue).trans (h.queue hfailed)
      · exact fun hstatus => h.ready hopened
          ((Sender.acknowledge_unreliable m.now ack).2.1.symm.trans hstatus)
  | retryTimeout =>
      obtain ⟨hqueue, hstatus⟩ := x.sender.onRetryTimeout_frame (x.env z m)
      refine h.outside [] rfl (fun r => rfl)
        (x.sender.schedule_onRetryTimeout (x.env z m)) (fun hfailed => ?_) (fun hopened => ?_)
        (h.estimated.onRetryTimeout _) (h.attended_mono rfl rfl rfl hqueue ?_ (fun _ => id) ?_)
      · exact (congrArg SendQueue.status hqueue).trans (h.queue hfailed)
      · exact fun hnone => h.ready hopened (hstatus.symm.trans hnone)
      · exact congrArg Schedule.when (x.sender.schedule_onRetryTimeout (x.env z m) .reliable)
      · exact fun hfull => Sender.full_onRetryTimeout h.estimated hfull _
  | canSend =>
      simp only [Threads.step]
      split
      · exact h
      next hclosed =>
        exact h.outside [] rfl (fun r => rfl) (fun r => rfl) h.queue h.ready h.estimated
          fun hw => absurd hw.opened hclosed
  | «open» =>
      refine h.outside [.scheduling .reliable false, .scheduling .unreliable false] rfl
        (fun r => rfl) (fun r => ?_) (fun hfailed => ?_) (fun _ => ?_) ?_
        fun _ => .inr (.inl ⟨_, List.mem_cons_self, rfl⟩)
      · simp only [Threads.step]
        split <;> cases r <;> rfl
      · simp only [Threads.step]
        split <;> exact h.queue hfailed
      · simp only [Threads.step]
        split
        · simp
        next hstatus => exact hstatus
      · simp only [Threads.step]
        split
        · exact h.estimated.congr rfl rfl
        · exact h.estimated
  | close =>
      exact h.outside [] rfl (fun r => rfl) (fun r => by cases r <;> rfl) h.queue
        (fun _ => by simp [Threads.step]) (h.estimated.congr rfl rfl)
        (h.attended_mono rfl rfl rfl rfl rfl (fun _ => id) id)
  | fail =>
      exact h.outside [] rfl (fun r => rfl) (fun r => by cases r <;> rfl)
        (by simp [Threads.step]) (fun _ => by simp [Threads.step, Sender.fail])
        (h.estimated.congr rfl rfl)
        fun hw => absurd hw.failed (by simp [Threads.step])

end Sound

/-! ## Nothing stalls -/

/-- A thread in a scheduled pass has the flag of its schedule. -/
theorem Sound.running (h : x.Sound) (hmem : task ∈ x.tasks) {r : Reliability}
    (hholds : task.holds r = true) : (x.sender.schedule r).running = true := by
  have hpos : 0 < x.tasks.countP (Task.holds r) := List.countP_pos_iff.mpr ⟨task, hmem, hholds⟩
  rw [h.holder r] at hpos
  by_contra hrun
  simp [hrun] at hpos

/-- **No stalled send queue.**  After any actions in any order, in a quiescent state of a sender
that was opened, has not failed and can send: a schedule with a deadline is running, or its
timer is armed no later; and while packets wait in the reliable queue, a pass is pending in that
sense or running, or the window is full and not empty. -/
theorem not_stalled {actions : List (Moment × Action)}
    (hquiescent : (run (step z) {} actions).Quiescent)
    (hopened : (run (step z) {} actions).opened = true)
    (hfailed : (run (step z) {} actions).failed = false)
    (hcan : (run (step z) {} actions).canSend = true) :
    let s := (run (step z) {} actions).sender
    (∀ r soon, (s.schedule r).when = some soon →
      (s.schedule r).running = true ∨ Armed (s.schedule r) soon) ∧
    (s.dataQueue.empty = false →
      (∃ soon, (s.schedule .reliable).when = some soon ∧ Armed (s.schedule .reliable) soon) ∨
      (s.schedule .reliable).running = true ∨
      s.windowSize.size ≤ s.retrier.numUnacked ∧ s.retrier.empty = false) := by
  have h : (run (step z) {} actions).Sound :=
    run_invariant_of_step Sound (fun _ a hx => hx.step z a) Sound.init actions
  generalize run (step z) {} actions = x at h hquiescent hopened hfailed hcan
  intro s
  have htimer : ∀ r soon, (s.schedule r).when = some soon →
      (s.schedule r).running = true ∨ Armed (s.schedule r) soon := by
    intro r soon hw
    rcases h.timer r soon hw with hrun | harmed | hmem
    · exact .inl hrun
    · exact .inr harmed
    · rcases hquiescent _ hmem with hholds | hholds <;> cases hholds
  refine ⟨htimer, fun hqueue => ?_⟩
  rcases h.work ⟨hopened, hcan, hfailed, hqueue⟩ with hwhen | ⟨task, hmem, ha⟩ | hfull
  · obtain ⟨soon, hsoon⟩ := Option.isSome_iff_exists.mp hwhen
    rcases htimer .reliable soon hsoon with hrun | harmed
    · exact .inr (.inl hrun)
    · exact .inl ⟨soon, hsoon, harmed⟩
  · right
    left
    rcases hquiescent _ hmem with hholds | hholds
    · exact h.running hmem hholds
    · cases task <;> simp_all [Task.holds, Task.attends]
  · right
    right
    refine ⟨hfull, ?_⟩
    have hpos : WindowSize.minimum ≤ s.windowSize.size := by
      rw [h.estimated.size]
      exact s.windowSize.minimum_le_onSample _
    by_contra hempty
    have hzero : s.retrier.window.size = 0 := by
      have : s.retrier.window.isEmpty = true := Bool.of_not_eq_false hempty
      rw [Std.ExtTreeMap.isEmpty_eq_size_beq_zero] at this
      exact beq_iff_eq.mp this
    have hnone : s.windowSize.size ≤ 0 := hfull.trans_eq hzero
    simp only [WindowSize.minimum] at hpos
    omega

/-- Coalescing with a delay of ten milliseconds. -/
def coalescing : ConnectionOptions where
  coalesceReliable := ⟨.packet, 10, 0⟩
  coalesceUnreliable := ⟨.packet, 10, 0⟩
  probeDelayMS := 0
  maximumRetryAttempts := 5

/-- The sender is opened, and a message is enqueued before the threads are done. -/
def waking : List (Moment × Action) :=
  [(⟨coalescing, 0⟩, .canSend), (⟨coalescing, 0⟩, .open),
   (⟨coalescing, 0⟩, .enqueue FrameTypeID.data [7] .reliable .packet),
   (⟨coalescing, 1⟩, .run (.enqueued .reliable)),
   (⟨coalescing, 2⟩, .run (.scheduling .reliable false)),
   (⟨coalescing, 3⟩, .run (.scheduling .reliable false)),
   (⟨coalescing, 3⟩, .run (.arming .reliable 10000003)),
   (⟨coalescing, 3⟩, .run (.arming .reliable 10000002)),
   (⟨coalescing, 4⟩, .run (.scheduling .unreliable false)),
   (⟨coalescing, 4⟩, .run (.arming .unreliable 10000004))]

/-- The timer for the message is armed. -/
theorem not_stalled_waking :
    let x := run (step ⟨fun _ _ _ => none, fun _ _ => []⟩) {} waking
    x.Quiescent ∧ x.opened = true ∧ x.failed = false ∧ x.canSend = true ∧
      x.sender.dataQueue.empty = false ∧
      ((∃ soon, (x.sender.schedule .reliable).when = some soon ∧
          Armed (x.sender.schedule .reliable) soon) ∨
        (x.sender.schedule .reliable).running = true ∨
        x.sender.windowSize.size ≤ x.sender.retrier.numUnacked ∧
          x.sender.retrier.empty = false) :=
  ⟨by decide +kernel, by decide +kernel, by decide +kernel, by decide +kernel, by decide +kernel,
    (not_stalled _ (by decide +kernel) (by decide +kernel) (by decide +kernel)
      (by decide +kernel)).2 (by decide +kernel)⟩
end Threads
end MrUDP
