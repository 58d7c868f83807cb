import MrUDP.Sender.RetryOrder

/-!
# The retry timer

The timer of the retrier is armed for the next retry, by `Retrier::recalculateRetryTimeout`, which
also computes when that retry is due.  It is called when the next retry may have changed: when a
packet enters an empty window or has priority, when the first packet or one with priority is
acknowledged, and when the timer expires.

A packet that enters a window which is not empty is taken to come last.  Across the end of a turn of
the identifiers it comes first, and is then retried although nothing was computed for it.

The identifiers of the packets are arbitrary here.

## Main definitions

* `TimerInput`, `RetryTimer.step`: what happens to the retrier, with a record of what was computed.
* `RetryTimer.Distinct`, `RetryTimer.InOrder`: what is asked of the identifiers.
* `RetryTimer.Armed`, `RetryTimer.Disciplined`: what the timer is for.
-/

namespace MrUDP
open Std (ExtTreeMap ExtTreeSet)
open Machine

/-- What happens to an open retrier. -/
inductive TimerInput
  /-- `Retrier::insert`. -/
  | insert (paths : MultiPacketPath) (priority : Bool)
  /-- `Sender::onAck`. -/
  | ack (ack : Ack)
  /-- The timer expires. -/
  | expire (maximumAttempts : BitVec 16)
  /-- The round trip time changes. -/
  | sample (rtt : ℚ)

/-- The sender, and for every identifier from which `sentAt` and with which round trip time
`retryAt` was computed since the packet was last sent. -/
structure RetryTimer where
  sender : Sender := {}
  computed : PacketID → Option (Timepoint × ℚ) := fun _ => none

namespace RetryTimer

/-- The record after `Retrier::recalculateRetryTimeout`. -/
def noted (computed : PacketID → Option (Timepoint × ℚ)) (s : Sender) :
    PacketID → Option (Timepoint × ℚ) :=
  match s.retrier.getNextRetry with
  | none => computed
  | some (id, retry) => Function.update computed id (some (retry.sentAt, s.rtt.duration))

/-- `Retrier::onRetryTimeout`.  A connection that fails closes the retrier. -/
def onRetryTimeout (computed : PacketID → Option (Timepoint × ℚ)) (s : Sender) (now : Timepoint)
    (maximumAttempts : BitVec 16) : RetryTimer :=
  match s.retrier.onRetryTimeout now maximumAttempts with
  | .wait =>
      let s := { s with retrier := s.retrier.recalculateRetryTimeout s.rtt }
      ⟨s, noted computed s⟩
  | .resend id retry =>
      let s := s.resend now id retry
      ⟨s, noted computed s⟩
  | .fail => ⟨{ s with retrier := s.retrier.close }, computed⟩

/-- Something happens.  The timer is not armed any more when it expires. -/
def step (t : RetryTimer) : Timepoint × TimerInput → RetryTimer
  | (now, .insert paths priority) =>
      let r := t.sender.retrier
      let s := { t.sender with
        retrier := r.insert t.sender.rtt paths now priority t.sender.packetIDGenerator.issued }
      let computed := Function.update t.computed paths.front.packet.header.id none
      ⟨s, if r.status = .open ∧ (r.window.isEmpty = true ∨ priority = true) then noted computed s
          else computed⟩
  | (now, .ack ack) =>
      let s := t.sender.acknowledge now ack
      let result := (t.sender.retrier.ack ack.packetID now ack.delayedMS).1
      ⟨s, if result.needsRetryTimeoutRecalculation then noted t.computed s else t.computed⟩
  | (now, .expire maximumAttempts) =>
      if t.sender.retrier.timeout = none then t
      else
        onRetryTimeout t.computed
          { t.sender with retrier := { t.sender.retrier with timeout := none } } now maximumAttempts
  | (_, .sample rtt) => ⟨{ t.sender with rtt := t.sender.rtt.onSample rtt }, t.computed⟩

/-- The identifier of a packet that is inserted is free. -/
def Distinct (t : RetryTimer) : Timepoint × TimerInput → Prop
  | (_, .insert paths _) => t.sender.retrier.window[paths.front.packet.header.id]? = none
  | _ => True

/-- A packet without priority does not come first among others without priority. -/
def InOrder (t : RetryTimer) : Timepoint × TimerInput → Prop
  | (_, .insert paths false) =>
      t.sender.retrier.priority.toList = [] →
        ∀ entry ∈ t.sender.retrier.window.toList, entry.1 < paths.front.packet.header.id
  | _ => True

instance (t : RetryTimer) : ∀ input, Decidable (t.Distinct input)
  | (_, .insert paths _) =>
      inferInstanceAs (Decidable (t.sender.retrier.window[paths.front.packet.header.id]? = none))
  | (_, .ack _) | (_, .expire _) | (_, .sample _) => .isTrue trivial

instance (t : RetryTimer) : ∀ input, Decidable (t.InOrder input)
  | (_, .insert paths false) =>
      inferInstanceAs (Decidable (t.sender.retrier.priority.toList = [] →
        ∀ entry ∈ t.sender.retrier.window.toList, entry.1 < paths.front.packet.header.id))
  | (_, .insert _ true) | (_, .ack _) | (_, .expire _) | (_, .sample _) => .isTrue trivial

/-- The timer is armed as long as a packet waits. -/
def Armed (t : RetryTimer) : Prop :=
  t.sender.retrier.window.isEmpty = false → t.sender.retrier.timeout.isSome = true

/-- When the retry of a packet is due was computed since the packet was last sent. -/
def Computed (t : RetryTimer) (id : PacketID) (retry : Retry) : Prop :=
  ∃ rtt, t.computed id = some (retry.sentAt, rtt) ∧
    retry.retryAt =
      retry.sentAt + milliseconds (toDuration (Retrier.calculateRetryDuration rtt))

/-- A packet is only sent again later than the interval in force when its retry was computed, after
it was last sent. -/
def Disciplined (t : RetryTimer) : Prop :=
  ∀ now maximumAttempts id retry,
    t.sender.retrier.onRetryTimeout now maximumAttempts = .resend id retry →
      t.Computed id retry ∧ retry.retryAt < now

end RetryTimer

/-! ## The next retry -/

namespace Retrier

variable {r r' : Retrier} {id : PacketID} {retry retry' : Retry}

/-- Without priorities the next retry comes first. -/
theorem not_lt_of_getNextRetry (h : r.getNextRetry = some (id, retry))
    (hpriority : r.priority.toList = []) {k : PacketID} {entry : Retry}
    (hk : r.window[k]? = some entry) : ¬ k < id := by
  have hhead : r.window.toList.head? = some (id, retry) := by
    rw [getNextRetry, hpriority] at h
    split at h
    · cases h
    · exact h
  have hmem := ExtTreeMap.mem_toList_iff_getElem?_eq_some.mpr hk
  intro hlt
  rcases Ordered.eq_or_before_of_head? ExtTreeMap.ordered_keys_toList hhead hmem with heq | hbefore
  · rw [(Prod.mk.inj heq).1] at hlt
    exact BitVec.lt_irrefl _ hlt
  · exact BitVec.lt_asymm hlt ((compare_lt_iff _ _).mp hbefore)

/-- The next retry stays the next one as long as its entry is there, the priorities do not change,
and without priorities nothing comes before it. -/
theorem getNextRetry_of_window (h : r.getNextRetry = some (id, retry))
    (hpriority : r'.priority = r.priority) (hid : r'.window[id]? = some retry')
    (hleast : r.priority.toList = [] → ∀ k entry, r'.window[k]? = some entry → ¬ k < id) :
    r'.getNextRetry = some (id, retry') := by
  have hne : r'.window.isEmpty = false := by
    by_contra hempty
    rw [Bool.not_eq_false, ExtTreeMap.isEmpty_iff] at hempty
    rw [hempty] at hid
    simp at hid
  rw [getNextRetry] at h ⊢
  rw [hne, hpriority]
  split at h
  · cases h
  cases hhead : r.priority.toList.head? with
  | some k =>
      rw [hhead] at h
      obtain ⟨found, -, heq⟩ := Option.map_eq_some_iff.mp h
      obtain rfl : k = id := (Prod.mk.inj heq).1
      rw [if_neg (by simp)]
      dsimp only
      rw [hid]
      rfl
  | none =>
      rw [if_neg (by simp)]
      dsimp only
      refine Ordered.head?_eq_some_of_least ExtTreeMap.ordered_keys_toList
        (ExtTreeMap.mem_toList_iff_getElem?_eq_some.mpr hid) fun entry hentry hlt => ?_
      exact hleast (List.head?_eq_none_iff.mp hhead) entry.1 entry.2
        (ExtTreeMap.mem_toList_iff_getElem?_eq_some.mp hentry) ((compare_lt_iff _ _).mp hlt)

/-- Writing back the entry of the next retry. -/
theorem getNextRetry_update (h : r.getNextRetry = some (id, retry)) (new : Retry)
    (timeout : Option Timepoint) :
    getNextRetry { r with window := r.window.insert id new, timeout := timeout } =
      some (id, new) := by
  refine getNextRetry_of_window h rfl (by simp) fun hpriority k entry hk => ?_
  simp only [ExtTreeMap.getElem?_insert, Std.LawfulEqCmp.compare_eq_iff_eq] at hk
  split at hk
  next heq =>
    rw [heq]
    exact BitVec.lt_irrefl _
  · exact not_lt_of_getNextRetry h hpriority hk

theorem window_ne_empty (h : r.getNextRetry = some (id, retry)) : r.window.isEmpty = false := by
  rw [getNextRetry] at h
  split at h
  · cases h
  next hne => simpa using hne

/-- A window that is not empty has a next retry. -/
theorem exists_getNextRetry (hagrees : r.PriorityAgrees) (hne : r.window.isEmpty = false) :
    ∃ next, r.getNextRetry = some next := by
  rw [getNextRetry_eq hagrees]
  exact Option.isSome_iff_exists.mp (List.isSome_head?.mpr (candidates_ne_nil hne))

theorem getNextRetry_of_isEmpty (h : r.window.isEmpty = true) : r.getNextRetry = none := by
  rw [getNextRetry, if_pos h]

/-- The next retry after it was recalculated. -/
theorem getNextRetry_recalculateRetryTimeout (h : r.getNextRetry = some (id, retry)) (rtt : RTT) :
    (r.recalculateRetryTimeout rtt).getNextRetry =
      some (id, { retry with
        retryAt := retry.sentAt +
          milliseconds (toDuration (calculateRetryDuration rtt.duration)) }) := by
  rw [recalculateRetryTimeout, h]
  exact getNextRetry_update h _ _

theorem recalculateRetryTimeout_of_none (h : r.getNextRetry = none) (rtt : RTT) :
    r.recalculateRetryTimeout rtt = r := by
  rw [recalculateRetryTimeout, h]

theorem PriorityAgrees.of_recalculate {rtt : RTT}
    (h : (r.recalculateRetryTimeout rtt).PriorityAgrees) : r.PriorityAgrees := by
  intro k
  have hk := h k
  rwa [priority_recalculateRetryTimeout,
    r.map_window_recalculateRetryTimeout rtt Retry.priority (fun _ _ => rfl)] at hk

/-- Recalculating arms the timer, if there is anything in the window. -/
theorem armed_recalculateRetryTimeout (rtt : RTT) (hagrees : r.PriorityAgrees)
    (hne : (r.recalculateRetryTimeout rtt).window.isEmpty = false) :
    (r.recalculateRetryTimeout rtt).timeout.isSome = true := by
  cases hnext : r.getNextRetry with
  | none =>
      rw [recalculateRetryTimeout_of_none hnext] at hne
      obtain ⟨next, hsome⟩ := exists_getNextRetry hagrees hne
      rw [hnext] at hsome
      cases hsome
  | some next =>
      rw [recalculateRetryTimeout, hnext]
      rfl

/-- The retrier when a packet has entered its window. -/
def entered (r : Retrier) (paths : MultiPacketPath) (now : Timepoint) (priority : Bool)
    (serial : ℕ) : Retrier :=
  { r with
    window := r.window.insertIfNew paths.front.packet.header.id
      { paths := paths, sentAt := now, priority := priority, serial := serial }
    priority := if priority then r.priority.insert paths.front.packet.header.id else r.priority }

theorem insert_eq (hopen : r.status = .open) (rtt : RTT) (paths : MultiPacketPath) (now : Timepoint)
    (priority : Bool) (serial : ℕ) :
    r.insert rtt paths now priority serial =
      if r.window.isEmpty = true ∨ priority = true then
        (r.entered paths now priority serial).recalculateRetryTimeout rtt
      else r.entered paths now priority serial := by
  have hclosed : ¬ r.status = .closed := by simp [hopen]
  rw [insert, if_neg hclosed]
  simp only [Bool.or_eq_true]
  rfl

/-- An entry of the window after a packet has entered it. -/
theorem window_entered {paths : MultiPacketPath} {now : Timepoint} {priority : Bool} {serial : ℕ}
    (hfree : r.window[paths.front.packet.header.id]? = none) (k : PacketID) :
    (r.entered paths now priority serial).window[k]? =
      if k = paths.front.packet.header.id then
        some { paths := paths, sentAt := now, priority := priority, serial := serial }
      else r.window[k]? := by
  have hnot : paths.front.packet.header.id ∉ r.window := by
    rw [ExtTreeMap.mem_iff_isSome_getElem?, hfree]
    exact Bool.false_ne_true
  simp only [entered, ExtTreeMap.getElem?_insertIfNew, Std.LawfulEqCmp.compare_eq_iff_eq, hnot,
    not_false_eq_true, and_true]
  exact if_congr eq_comm rfl rfl

/-- A packet that comes neither first nor before the priorities does not change the next retry. -/
theorem getNextRetry_entered (h : r.getNextRetry = some (id, retry)) {paths : MultiPacketPath}
    {now : Timepoint} {serial : ℕ} (hfree : r.window[paths.front.packet.header.id]? = none)
    (horder : r.priority.toList = [] →
      ∀ entry ∈ r.window.toList, entry.1 < paths.front.packet.header.id) :
    (r.entered paths now false serial).getNextRetry = some (id, retry) := by
  have hid := r.window_of_getNextRetry h
  have hne : ¬ id = paths.front.packet.header.id := by
    rintro rfl
    rw [hid] at hfree
    cases hfree
  refine getNextRetry_of_window h rfl ?_ fun hpriority k entry hk => ?_
  · rw [window_entered hfree, if_neg hne, hid]
  · rw [window_entered hfree] at hk
    split at hk
    next heq =>
      rw [heq]
      exact BitVec.lt_asymm
        (horder hpriority _ (ExtTreeMap.mem_toList_iff_getElem?_eq_some.mpr hid))
    · exact not_lt_of_getNextRetry h hpriority hk

/-- An acknowledgement that asks for no recalculation does not change the next retry. -/
theorem getNextRetry_ack (hagrees : r.PriorityAgrees) (h : r.getNextRetry = some (id, retry))
    {packetID : PacketID} {now : Timepoint} {delayedMS : BitVec 16}
    (hneeds : (r.ack packetID now delayedMS).1.needsRetryTimeoutRecalculation = false) :
    (r.ack packetID now delayedMS).2.getNextRetry = some (id, retry) := by
  have hid := r.window_of_getNextRetry h
  cases hw : r.window[packetID]? with
  | none =>
      rw [ack, hw]
      exact h
  | some acked =>
      rw [ack, hw] at hneeds
      obtain ⟨hfirst, hflag⟩ := Bool.or_eq_false_iff.mp hneeds
      have hflag' : r.window[packetID]?.map Retry.priority ≠ some true := by
        rw [hw, Option.map_some, hflag]
        simp
      -- The packet is neither the first one nor has it priority.
      have hne : ¬ id = packetID := by
        rintro rfl
        rw [getNextRetry, window_ne_empty h, if_neg (by simp)] at h
        cases hhead : r.priority.toList.head? with
        | some k =>
            rw [hhead] at h
            obtain ⟨found, -, heq⟩ := Option.map_eq_some_iff.mp h
            obtain rfl : k = id := (Prod.mk.inj heq).1
            exact hflag' ((hagrees k).mp (ExtTreeSet.mem_toList.mp (List.mem_of_head? hhead)))
        | none =>
            rw [hhead] at h
            dsimp only at h
            rw [h] at hfirst
            simp at hfirst
      refine getNextRetry_of_window h (priority_ack now hflag' delayedMS) ?_
        fun hpriority k entry hk => ?_
      · rw [window_ack, if_neg hne, hid]
      · rw [window_ack] at hk
        split at hk
        · cases hk
        · exact not_lt_of_getNextRetry h hpriority hk

end Retrier

namespace Sender

/-- The retrier after an acknowledgement. -/
theorem retrier_acknowledge (s : Sender) (now : Timepoint) (ack : Ack) :
    (s.acknowledge now ack).retrier =
      if (s.retrier.ack ack.packetID now ack.delayedMS).1.needsRetryTimeoutRecalculation = true then
        (s.retrier.ack ack.packetID now ack.delayedMS).2.recalculateRetryTimeout
          (s.acknowledge now ack).rtt
      else (s.retrier.ack ack.packetID now ack.delayedMS).2 := by
  rw [acknowledge]
  cases hw : s.retrier.window[ack.packetID]? with
  | none =>
      rw [Retrier.ack, hw]
      rfl
  | some retry =>
      rw [Retrier.ack, hw]
      rfl

end Sender

namespace RetryTimer

variable {t : RetryTimer}

/-! ## The invariant -/

/-- What holds of the window and the timer. -/
structure Kept (t : RetryTimer) : Prop where
  agrees : t.sender.retrier.status = .open → t.sender.retrier.PriorityAgrees
  closed : t.sender.retrier.status = .closed → t.sender.retrier.window.isEmpty = true
  armed : t.Armed

/-- The next retry is computed. -/
def NextComputed (t : RetryTimer) : Prop :=
  ∀ id retry, t.sender.retrier.getNextRetry = some (id, retry) → t.Computed id retry

/-- What `Retrier::recalculateRetryTimeout` does is noted. -/
theorem nextComputed_recalculate {s : Sender} {r : Retrier}
    (h : s.retrier = r.recalculateRetryTimeout s.rtt)
    (computed : PacketID → Option (Timepoint × ℚ)) : NextComputed ⟨s, noted computed s⟩ := by
  intro id retry hnext
  change s.retrier.getNextRetry = some (id, retry) at hnext
  have hnoted : noted computed s id = some (retry.sentAt, s.rtt.duration) := by
    rw [noted, hnext]
    dsimp only
    rw [Function.update_self]
  rw [h] at hnext
  cases hold : r.getNextRetry with
  | none =>
      rw [Retrier.recalculateRetryTimeout_of_none hold, hold] at hnext
      cases hnext
  | some next =>
      rw [Retrier.getNextRetry_recalculateRetryTimeout hold] at hnext
      cases hnext
      exact ⟨s.rtt.duration, hnoted, rfl⟩

theorem nextComputed_of_isEmpty (h : t.sender.retrier.window.isEmpty = true) :
    t.NextComputed := by
  intro id retry hnext
  rw [Retrier.getNextRetry_of_isEmpty h] at hnext
  cases hnext

/-- From the retrier before and after it is recalculated. -/
theorem Kept.of_recalculate {r : Retrier} (hagrees : r.PriorityAgrees)
    (hopen : r.status = .open) (h : t.sender.retrier = r.recalculateRetryTimeout t.sender.rtt) :
    t.Kept where
  agrees _ := by
    rw [h]
    exact hagrees.recalculateRetryTimeout _
  closed hclosed := by
    rw [h, Retrier.status_recalculateRetryTimeout, hopen] at hclosed
    cases hclosed
  armed := by
    rw [Armed, h]
    exact Retrier.armed_recalculateRetryTimeout _ hagrees

/-- Nothing happens to the retrier. -/
theorem Kept.of_retrier_eq (h : t.Kept) {t' : RetryTimer}
    (hretrier : t'.sender.retrier = t.sender.retrier) : t'.Kept where
  agrees := by
    rw [hretrier]
    exact h.agrees
  closed := by
    rw [hretrier]
    exact h.closed
  armed := by
    rw [Armed, hretrier]
    exact h.armed

/-- Nothing happens to the retrier, and nothing is computed. -/
theorem Kept.of_eq (h : t.Kept) {t' : RetryTimer} (hretrier : t'.sender.retrier = t.sender.retrier)
    (hcomputed : t'.computed = t.computed) : t'.Kept ∧ (t.NextComputed → t'.NextComputed) := by
  refine ⟨h.of_retrier_eq hretrier, fun hnext id retry hid => ?_⟩
  rw [hretrier] at hid
  rw [Computed, hcomputed]
  exact hnext id retry hid

/-- A timer that is armed stays so. -/
theorem Kept.of_timeout_eq (h : t.Kept) (hne : t.sender.retrier.window.isEmpty = false)
    {t' : RetryTimer} (hagrees : t'.sender.retrier.PriorityAgrees)
    (hopen : t'.sender.retrier.status = .open)
    (htimeout : t'.sender.retrier.timeout = t.sender.retrier.timeout) : t'.Kept where
  agrees _ := hagrees
  closed hclosed := by
    rw [hopen] at hclosed
    cases hclosed
  armed _ := by
    rw [htimeout]
    exact h.armed hne

/-- A retrier whose window is not empty is open. -/
theorem Kept.open_of_window (h : t.Kept) (hne : t.sender.retrier.window.isEmpty = false) :
    t.sender.retrier.status = .open := by
  cases hstatus : t.sender.retrier.status with
  | «open» => rfl
  | closed =>
      rw [h.closed hstatus] at hne
      cases hne

/-! ## What happens -/

/-- A packet is inserted. -/
theorem Kept.insert (h : t.Kept) {now : Timepoint} {paths : MultiPacketPath} {priority : Bool}
    (hfree : t.Distinct (now, .insert paths priority)) :
    (t.step (now, .insert paths priority)).Kept ∧
      (t.NextComputed → t.InOrder (now, .insert paths priority) →
        (t.step (now, .insert paths priority)).NextComputed) := by
  change t.sender.retrier.window[paths.front.packet.header.id]? = none at hfree
  cases hstatus : t.sender.retrier.status with
  | closed =>
      have hsame : (t.step (now, .insert paths priority)).sender.retrier = t.sender.retrier := by
        show t.sender.retrier.insert _ _ _ _ _ = _
        rw [Retrier.insert, if_pos hstatus]
      exact ⟨h.of_retrier_eq hsame,
        fun _ _ => nextComputed_of_isEmpty (by rw [hsame, h.closed hstatus])⟩
  | «open» =>
      have hinsert := t.sender.retrier.insert_eq hstatus t.sender.rtt paths now priority
        t.sender.packetIDGenerator.issued
      have hagrees := (h.agrees hstatus).insert t.sender.rtt now priority
        t.sender.packetIDGenerator.issued hfree
      by_cases hrecalculate : t.sender.retrier.window.isEmpty = true ∨ priority = true
      · rw [if_pos hrecalculate] at hinsert
        rw [hinsert] at hagrees
        refine ⟨.of_recalculate (.of_recalculate hagrees) hstatus hinsert, fun _ _ => ?_⟩
        rw [step]
        dsimp only
        rw [if_pos ⟨hstatus, hrecalculate⟩]
        exact nextComputed_recalculate hinsert _
      · rw [if_neg hrecalculate] at hinsert
        rw [hinsert] at hagrees
        obtain ⟨hne, hplain⟩ := not_or.mp hrecalculate
        rw [Bool.not_eq_true] at hne hplain
        subst hplain
        obtain ⟨⟨id, retry⟩, hnext⟩ := Retrier.exists_getNextRetry (h.agrees hstatus) hne
        have hretrier : (t.step (now, .insert paths false)).sender.retrier =
            t.sender.retrier.entered paths now false t.sender.packetIDGenerator.issued := hinsert
        refine ⟨h.of_timeout_eq hne (hretrier ▸ hagrees) (hretrier ▸ hstatus) (by rw [hretrier]; rfl),
          fun hcomputed horder id' retry' hnext' => ?_⟩
        rw [hretrier, Retrier.getNextRetry_entered hnext hfree horder] at hnext'
        cases hnext'
        -- The next retry is that of another packet, about which nothing new is noted.
        have hother : id ≠ paths.front.packet.header.id := by
          rintro rfl
          rw [t.sender.retrier.window_of_getNextRetry hnext] at hfree
          cases hfree
        obtain ⟨rtt, hrtt, hdue⟩ := hcomputed id retry hnext
        refine ⟨rtt, ?_, hdue⟩
        rw [step]
        dsimp only
        rw [if_neg fun hall => hrecalculate hall.2, Function.update_of_ne hother, hrtt]

/-- A packet is acknowledged. -/
theorem Kept.ack (h : t.Kept) (now : Timepoint) (ack : Ack) :
    (t.step (now, .ack ack)).Kept ∧
      (t.NextComputed → (t.step (now, .ack ack)).NextComputed) := by
  have hretrier : (t.step (now, .ack ack)).sender.retrier = _ :=
    t.sender.retrier_acknowledge now ack
  cases hw : t.sender.retrier.window[ack.packetID]? with
  | none =>
      have hack : t.sender.retrier.ack ack.packetID now ack.delayedMS =
          (⟨false, false, 0⟩, t.sender.retrier) := by rw [Retrier.ack, hw]
      rw [hack] at hretrier
      refine h.of_eq hretrier ?_
      rw [step, hack]
      rfl
  | some acked =>
      have hne : t.sender.retrier.window.isEmpty = false := by
        by_contra hempty
        rw [Bool.not_eq_false, ExtTreeMap.isEmpty_iff] at hempty
        rw [hempty] at hw
        simp at hw
      have hopen := h.open_of_window hne
      have hagrees := (h.agrees hopen).ack now ack.packetID ack.delayedMS
      have hstatus := (t.sender.retrier.status_ack now ack.packetID ack.delayedMS).trans hopen
      have htimeout : (t.sender.retrier.ack ack.packetID now ack.delayedMS).2.timeout =
          t.sender.retrier.timeout := by rw [Retrier.ack, hw]
      by_cases hneeds : (t.sender.retrier.ack ack.packetID now
          ack.delayedMS).1.needsRetryTimeoutRecalculation = true
      · rw [if_pos hneeds] at hretrier
        refine ⟨.of_recalculate hagrees hstatus hretrier, fun _ => ?_⟩
        rw [step]
        rw [if_pos hneeds]
        exact nextComputed_recalculate hretrier _
      · rw [if_neg hneeds] at hretrier
        obtain ⟨⟨id, retry⟩, hnext⟩ := Retrier.exists_getNextRetry (h.agrees hopen) hne
        refine ⟨h.of_timeout_eq hne (hretrier ▸ hagrees) (hretrier ▸ hstatus)
          ((congrArg Retrier.timeout hretrier).trans htimeout),
          fun hcomputed id' retry' hnext' => ?_⟩
        rw [hretrier, Retrier.getNextRetry_ack (h.agrees hopen) hnext (by simpa using hneeds)]
          at hnext'
        cases hnext'
        have hsame : (t.step (now, .ack ack)).computed = t.computed := by
          rw [step]
          exact if_neg hneeds
        rw [Computed, hsame]
        exact hcomputed id retry hnext

/-- `Retrier::onRetryTimeout` arms the timer and computes the next retry. -/
theorem kept_onRetryTimeout (computed : PacketID → Option (Timepoint × ℚ)) {s : Sender}
    (hagrees : s.retrier.status = .open → s.retrier.PriorityAgrees)
    (hclosed : s.retrier.status = .closed → s.retrier.window.isEmpty = true) (now : Timepoint)
    (maximumAttempts : BitVec 16) :
    (onRetryTimeout computed s now maximumAttempts).Kept ∧
      (onRetryTimeout computed s now maximumAttempts).NextComputed := by
  -- Nothing is armed for an empty window, and nothing is next in it.
  have hdone : ∀ {t : RetryTimer}, t.sender.retrier.status = .closed →
      t.sender.retrier.window.isEmpty = true → t.Kept ∧ t.NextComputed := by
    intro t hstatus hempty
    refine ⟨⟨fun hopen => ?_, fun _ => hempty, fun hne => ?_⟩, nextComputed_of_isEmpty hempty⟩
    · rw [hstatus] at hopen
      cases hopen
    · rw [hempty] at hne
      cases hne
  rw [onRetryTimeout]
  by_cases hopen : s.retrier.status = .open
  · split
    · exact ⟨.of_recalculate (hagrees hopen) hopen rfl, nextComputed_recalculate rfl _⟩
    next id retry hdue =>
      have hw := s.retrier.window_of_onRetryTimeout now hdue
      have hagain : Retrier.PriorityAgrees
          { s.retrier with window := s.retrier.window.insert id (retry.again now) } := by
        intro k
        rw [Retrier.map_window_update s.retrier Retry.priority hw (by rfl)]
        exact hagrees hopen k
      exact ⟨.of_recalculate hagain hopen rfl, nextComputed_recalculate rfl _⟩
    · refine hdone (s.retrier.status_close) ?_
      rw [Retrier.close, if_pos (by simp [hopen])]
      rfl
  · have hstatus : s.retrier.status = .closed := by
      cases hs : s.retrier.status with
      | «open» => exact absurd hs hopen
      | closed => rfl
    have hnone := Retrier.getNextRetry_of_isEmpty (hclosed hstatus)
    rw [Retrier.onRetryTimeout, hnone]
    dsimp only
    rw [Retrier.recalculateRetryTimeout_of_none hnone]
    exact hdone hstatus (hclosed hstatus)

/-- The timer expires. -/
theorem Kept.expire (h : t.Kept) (now : Timepoint) (maximumAttempts : BitVec 16) :
    (t.step (now, .expire maximumAttempts)).Kept ∧
      (t.NextComputed → (t.step (now, .expire maximumAttempts)).NextComputed) := by
  rw [step]
  split
  · exact ⟨h, id⟩
  · obtain ⟨hkept, hcomputed⟩ := @kept_onRetryTimeout t.computed
      { t.sender with retrier := { t.sender.retrier with timeout := none } } h.agrees h.closed now
      maximumAttempts
    exact ⟨hkept, fun _ => hcomputed⟩

/-- One step keeps the window and the timer, and as long as the packets come in order also what was
computed. -/
theorem Kept.step (h : t.Kept) {input : Timepoint × TimerInput} (hdistinct : t.Distinct input) :
    (t.step input).Kept ∧
      (t.NextComputed → t.InOrder input → (t.step input).NextComputed) := by
  obtain ⟨now, input⟩ := input
  cases input with
  | insert paths priority => exact h.insert hdistinct
  | ack ack =>
      obtain ⟨hkept, hcomputed⟩ := h.ack now ack
      exact ⟨hkept, fun hnext _ => hcomputed hnext⟩
  | expire maximumAttempts =>
      obtain ⟨hkept, hcomputed⟩ := h.expire now maximumAttempts
      exact ⟨hkept, fun hnext _ => hcomputed hnext⟩
  | sample rtt =>
      obtain ⟨hkept, hcomputed⟩ := @Kept.of_eq t h (t.step (now, .sample rtt)) rfl rfl
      exact ⟨hkept, fun hnext _ => hcomputed hnext⟩

theorem kept_init : Kept {} where
  agrees := by
    intro _ k
    simp
  closed := fun h => nomatch h
  armed := fun h => nomatch h

/-- What is sent again is the next retry, and it is due. -/
theorem disciplined_of_nextComputed (h : t.NextComputed) : t.Disciplined := by
  intro now maximumAttempts id retry hresend
  rw [Retrier.onRetryTimeout] at hresend
  split at hresend
  · cases hresend
  next hnext =>
    split at hresend
    next hdue =>
      split at hresend
      · cases hresend
      · cases hresend
        exact ⟨h id retry hnext, hdue⟩
    · cases hresend

/-- **The discipline of the retry timer.**  In every run with distinct identifiers the timer is
armed as long as a packet waits; and if no packet without priority comes first among others without
priority when it is inserted, a packet is only sent again later than the interval in force when its
retry was computed from when it was last sent. -/
theorem timer_discipline {inputs : List (Timepoint × TimerInput)}
    (hdistinct : Along step Distinct {} inputs) :
    (run step {} inputs).Armed ∧
      (Along step InOrder {} inputs → (run step {} inputs).Disciplined) := by
  refine ⟨(run_invariant Kept (fun _ _ h hd => (h.step hd).1) kept_init hdistinct).armed,
    fun horder => ?_⟩
  have hboth := run_invariant (fun t : RetryTimer => t.Kept ∧ t.NextComputed)
    (fun _ _ h hok => ⟨(h.1.step hok.1).1, (h.1.step hok.1).2 h.2 hok.2⟩)
    ⟨kept_init, nextComputed_of_isEmpty rfl⟩ (hdistinct.and horder)
  exact disciplined_of_nextComputed hboth.2

/-- A packet with some identifier, sent on the established path. -/
def packet (id : PacketID) : MultiPacketPath := Sender.probing.setID id

/-- Three packets, one of them with priority and one acknowledged, and an expiry. -/
def orderly : List (Timepoint × TimerInput) :=
  [(0, .insert (packet 5) false), (milliseconds 10, .insert (packet 6) false),
    (milliseconds 20, .insert (packet 7) true), (milliseconds 30, .ack ⟨7, 0⟩),
    (milliseconds 40, .sample (1 / 10)), (milliseconds 2100, .expire 5)]

theorem timer_discipline_orderly :
    Along step Distinct {} orderly ∧ Along step InOrder {} orderly ∧
      (run step {} orderly).Armed ∧ (run step {} orderly).Disciplined := by
  have hdistinct : Along step Distinct {} orderly := by decide +kernel
  have horder : Along step InOrder {} orderly := by decide +kernel
  exact ⟨hdistinct, horder, (timer_discipline hdistinct).1, (timer_discipline hdistinct).2 horder⟩

/-- The last packet of a turn of the identifiers, and a second later the first one of the next
turn. -/
def wrapping : List (Timepoint × TimerInput) :=
  [(0, .insert (packet 65535) false), (milliseconds 1000, .insert (packet 0) false)]

/-- **A packet that is sent again too early.**  The timer expires for the first packet, after 2030
milliseconds; the second one is sent again, 1031 milliseconds after it was sent, although nothing
was computed for it. -/
theorem undisciplined_wrapping :
    Along step Distinct {} wrapping ∧
      (run step {} wrapping).sender.retrier.timeout = some (milliseconds 2030) ∧
      (run step {} wrapping).sender.retrier.onRetryTimeout (milliseconds 2031) 5 =
        .resend 0 { paths := packet 0, sentAt := milliseconds 1000, retryAt := 0 } ∧
      (run step {} wrapping).computed 0 = none ∧ ¬ (run step {} wrapping).Disciplined := by
  have hresend : (run step {} wrapping).sender.retrier.onRetryTimeout (milliseconds 2031) 5 =
      .resend 0 { paths := packet 0, sentAt := milliseconds 1000, retryAt := 0 } := by
    decide +kernel
  have hnone : (run step {} wrapping).computed 0 = none := by decide +kernel
  refine ⟨by decide +kernel, by decide +kernel, hresend, hnone, fun h => ?_⟩
  obtain ⟨⟨rtt, hcomputed, -⟩, -⟩ := h _ _ _ _ hresend
  rw [hnone] at hcomputed
  cases hcomputed

end RetryTimer
end MrUDP
