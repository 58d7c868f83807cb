import MrUDP.Packet

/-!
# Round trip time, window size and retries

`mrudp/sender/RTT.h`, `mrudp/sender/WindowSize.h` and `mrudp/sender/Retrier.cpp`.
Every packet sent reliably waits in the retrier's window, under its identifier,
until it is acknowledged.

A `float` is a rational number, and the result of every operation on it is rounded to
single precision: whether a retry is due when its duration says depends on it.  A timeout
is modelled by the time it is armed for.

`serial` is a ghost of a `Retry`: the number of packets sent reliably before it.

## Main definitions

* `RTT`, `WindowSize`: the estimates and their updates.
* `Retrier.insert`, `Retrier.ack`: entering and leaving the window.
* `Retrier.getNextRetry`, `Retrier.recalculateRetryTimeout`: which packet to retry,
  and when.
-/

namespace MrUDP
open Std (ExtTreeMap ExtTreeSet)

/-! ## Round trip time and window size -/

/-- `RTTSimple`. -/
structure RTT where
  duration : ℚ := 1
  deriving DecidableEq, Repr

namespace RTT

def a (fp : Arithmetic := .ieee) : ℚ := fp.single (9 / 10)
def b (fp : Arithmetic := .ieee) : ℚ := fp.single (1 - a fp)
def maximum : ℚ := 1
def minimum (fp : Arithmetic := .ieee) : ℚ := fp.single (5 / 1000)

/-- `RTTSimple::calculate`. -/
def calculate (duration sample : ℚ) (fp : Arithmetic := .ieee) : ℚ :=
  min maximum (max (minimum fp)
    (fp.single (fp.single (a fp * duration) + fp.single (b fp * sample))))

/-- `RTTSimple::onSample`. -/
def onSample (r : RTT) (sample : ℚ) (fp : Arithmetic := .ieee) : RTT :=
  ⟨calculate r.duration sample fp⟩

/-- `RTTSimple::onAckFailure`. -/
def onAckFailure (r : RTT) (fp : Arithmetic := .ieee) : RTT := r.onSample maximum fp

end RTT

/-- `WindowSizeSimple`. -/
structure WindowSize where
  size : ℕ := 3
  deriving DecidableEq, Repr

namespace WindowSize

def minimum : ℕ := 3
def maximum : ℕ := 1024

/-- `WindowSizeSimple::onSample`. -/
def onSample (_ : WindowSize) (rtt : ℚ) (fp : Arithmetic := .ieee) : WindowSize :=
  ⟨min maximum (max minimum (fp.single (2 / rtt)).floor.toNat)⟩

/-- The window always admits a packet beside two that are not acknowledged. -/
theorem minimum_le_onSample (w : WindowSize) (rtt : ℚ) : minimum ≤ (w.onSample rtt).size := by
  have : minimum ≤ maximum := by decide
  simp only [onSample]
  omega

end WindowSize

/-! ## The retrier -/

/-- `PacketPath`: a packet and, if it is not the established one, its address. -/
structure PacketPath where
  packet : Packet
  address : Option Address := none
  deriving DecidableEq, Repr

/-- `MultiPacketPath`: one path, or two. -/
structure MultiPacketPath where
  front : PacketPath
  back : Option PacketPath := none
  deriving DecidableEq, Repr

namespace MultiPacketPath

def toList (m : MultiPacketPath) : List PacketPath := m.front :: m.back.toList

/-- Write a packet identifier into the header of every packet. -/
def setID (m : MultiPacketPath) (id : PacketID) : MultiPacketPath :=
  let set (p : PacketPath) : PacketPath :=
    { p with packet := { p.packet with header := { p.packet.header with id := id } } }
  ⟨set m.front, m.back.map set⟩

theorem toList_setID (m : MultiPacketPath) (id : PacketID) :
    (m.setID id).toList = m.toList.map fun p =>
      { p with packet := { p.packet with header := { p.packet.header with id := id } } } := by
  obtain ⟨front, back⟩ := m
  cases back <;> rfl

variable {P : PacketPath → Prop} {front back : PacketPath}

theorem forall_front (h : P front) : ∀ path ∈ toList ⟨front, none⟩, P path :=
  List.forall_mem_singleton.mpr h

theorem forall_both (h : P front) (h' : P back) : ∀ path ∈ toList ⟨front, some back⟩, P path :=
  List.forall_mem_cons.mpr ⟨h, forall_front h'⟩

end MultiPacketPath

/-- `Retry`. -/
structure Retry where
  paths : MultiPacketPath
  sentAt : Timepoint
  retryAt : Timepoint := 0
  attempts : ℕ := 0
  priority : Bool := false
  serial : ℕ := 0
  deriving DecidableEq, Repr

/-- The retry that has fallen due is sent again: the entry as it is afterwards. -/
def Retry.again (retry : Retry) (now : Timepoint) : Retry :=
  { retry with attempts := retry.attempts + 1, sentAt := now }

/-- `Retrier`. -/
structure Retrier where
  status : OpenStatus := .open
  timeout : Option Timepoint := none
  window : ExtTreeMap PacketID Retry := ∅
  priority : ExtTreeSet PacketID := ∅

/-- `Retrier::AckResult`. -/
structure AckResult where
  contained : Bool
  needsRetryTimeoutRecalculation : Bool
  rtt : ℚ
  deriving DecidableEq, Repr

namespace Retrier

/-- `Retrier::close`. -/
def close (r : Retrier) : Retrier :=
  if r.status ≠ .closed then { r with status := .closed, window := ∅ } else r

/-- `Retrier::getNextRetry`: the first packet with priority, or else the first
packet, in the order of the identifiers. -/
def getNextRetry (r : Retrier) : Option (PacketID × Retry) :=
  if r.window.isEmpty then none
  else match r.priority.toList.head? with
    | some id => r.window[id]?.map (id, ·)
    | none => r.window.toList.head?

/-- `Retrier::numUnacked`. -/
def numUnacked (r : Retrier) : ℕ := r.window.size

/-- `Retrier::empty`. -/
def empty (r : Retrier) : Bool := r.window.isEmpty

/-- `Retrier::calculateRetryDuration`. -/
def calculateRetryDuration (rtt : ℚ) (fp : Arithmetic := .ieee) : ℚ :=
  let delayedAckContribution := fp.single (30 / 1000)
  fp.single (fp.single (2 * rtt) + delayedAckContribution)

/-- `Retrier::recalculateRetryTimeout`. -/
def recalculateRetryTimeout (r : Retrier) (rtt : RTT) : Retrier :=
  match r.getNextRetry with
  | none => r
  | some (id, retry) =>
      let interval := toDuration (calculateRetryDuration rtt.duration)
      let retryAt := retry.sentAt + milliseconds interval
      { r with window := r.window.insert id { retry with retryAt := retryAt }
               timeout := some retryAt }

/-- `Retrier::insert`.  `try_emplace` keeps an entry that is already there. -/
def insert (r : Retrier) (rtt : RTT) (paths : MultiPacketPath) (now : Timepoint)
    (priority : Bool) (serial : ℕ) : Retrier :=
  if r.status = .closed then r
  else
    let wasEmpty := r.window.isEmpty
    let id := paths.front.packet.header.id
    let retry : Retry :=
      { paths := paths, sentAt := now, priority := priority, serial := serial }
    let r := { r with window := r.window.insertIfNew id retry
                      priority := if priority then r.priority.insert id else r.priority }
    if wasEmpty || priority then r.recalculateRetryTimeout rtt else r

/-- `Retrier::ack`.  `duration_cast` divides the nanoseconds, as a `float`, by those of a
second. -/
def ack (r : Retrier) (packetID : PacketID) (now : Timepoint) (delayedMS : BitVec 16)
    (fp : Arithmetic := .ieee) : AckResult × Retrier :=
  match r.window[packetID]? with
  | none => (⟨false, false, 0⟩, r)
  | some retry =>
      let wasFirst := decide (r.window.toList.head?.map Prod.fst = some packetID)
      let duration := now - retry.sentAt - milliseconds delayedMS.toNat
      (⟨true, wasFirst || retry.priority, fp.single (fp.single duration / 1000000000)⟩,
        { r with window := r.window.erase packetID
                 priority := if retry.priority then r.priority.erase packetID else r.priority })

/-- What `Retrier::onRetryTimeout` decides. -/
inductive Decision
  | wait
  | fail
  | resend (id : PacketID) (retry : Retry)
  deriving DecidableEq, Repr

/-- The decision of `Retrier::onRetryTimeout`.  The attempts are compared with
`maximumAttempts` as `size_t`, so a negative limit is a very large one. -/
def onRetryTimeout (r : Retrier) (now : Timepoint) (maximumAttempts : BitVec 16) : Decision :=
  match r.getNextRetry with
  | none => .wait
  | some (id, retry) =>
      if retry.retryAt < now then
        if (maximumAttempts.toInt % 2 ^ 64).toNat ≤ retry.attempts then .fail
        else .resend id retry
      else .wait

/-! ## What the operations do to the window

`outstanding` forgets the times of an entry.  Only `insert`, `ack` and `close` change it.
-/

variable (r : Retrier) (rtt : RTT) (now : Timepoint)

/-- The paths waiting under an identifier, and the number they were sent as. -/
def outstanding (k : PacketID) : Option (MultiPacketPath × ℕ) :=
  r.window[k]?.map fun retry => (retry.paths, retry.serial)

theorem outstanding_eq_some {k : PacketID} {paths : MultiPacketPath} {serial : ℕ} :
    r.outstanding k = some (paths, serial) ↔
      ∃ retry, r.window[k]? = some retry ∧ retry.paths = paths ∧ retry.serial = serial := by
  simp [outstanding]

/-- The next retry is an entry of the window. -/
theorem window_of_getNextRetry {id : PacketID} {retry : Retry}
    (h : r.getNextRetry = some (id, retry)) : r.window[id]? = some retry := by
  unfold getNextRetry at h
  split at h
  · cases h
  · split at h
    · obtain ⟨t, ht, hid⟩ := Option.map_eq_some_iff.mp h
      cases hid
      exact ht
    · exact ExtTreeMap.mem_toList_iff_getElem?_eq_some.mp (List.mem_of_head? h)

/-- A packet that is sent again is an entry of the window. -/
theorem window_of_onRetryTimeout {maximumAttempts : BitVec 16} {id : PacketID} {retry : Retry}
    (h : r.onRetryTimeout now maximumAttempts = .resend id retry) :
    r.window[id]? = some retry := by
  unfold onRetryTimeout at h
  split at h
  · cases h
  next hnext =>
    split at h
    · split at h
      · cases h
      · cases h
        exact r.window_of_getNextRetry hnext
    · cases h

/-- Writing back an entry changes nothing of what the two entries agree in. -/
theorem map_window_update {α : Type*} (f : Retry → α) {id : PacketID} {old new : Retry}
    (hold : r.window[id]? = some old) (hf : f new = f old) (k : PacketID) :
    (r.window.insert id new)[k]?.map f = r.window[k]?.map f := by
  simp only [ExtTreeMap.getElem?_insert, Std.LawfulEqCmp.compare_eq_iff_eq]
  split
  next hk =>
    subst hk
    simp [hold, hf]
  next => rfl

/-- Writing back an entry with the same paths and number changes nothing outstanding. -/
theorem outstanding_update {id : PacketID} {old new : Retry} {timeout : Option Timepoint}
    (hold : r.window[id]? = some old) (hpaths : new.paths = old.paths)
    (hserial : new.serial = old.serial) (k : PacketID) :
    outstanding { r with window := r.window.insert id new, timeout := timeout } k =
      r.outstanding k :=
  r.map_window_update (fun retry => (retry.paths, retry.serial)) hold
    (Prod.ext hpaths hserial) k

/-- Only the time of the next retry is rewritten when the timeout is recalculated. -/
theorem map_window_recalculateRetryTimeout {α : Type*} (f : Retry → α)
    (hf : ∀ retry retryAt, f { retry with retryAt := retryAt } = f retry) (k : PacketID) :
    (r.recalculateRetryTimeout rtt).window[k]?.map f = r.window[k]?.map f := by
  unfold recalculateRetryTimeout
  split
  · rfl
  next id retry h => exact r.map_window_update f (r.window_of_getNextRetry h) (hf _ _) k

@[simp] theorem outstanding_recalculateRetryTimeout (k : PacketID) :
    (r.recalculateRetryTimeout rtt).outstanding k = r.outstanding k :=
  r.map_window_recalculateRetryTimeout rtt _ (fun _ _ => rfl) k

@[simp] theorem status_recalculateRetryTimeout :
    (r.recalculateRetryTimeout rtt).status = r.status := by
  unfold recalculateRetryTimeout
  split <;> rfl

/-- A packet enters an open window unless its identifier is taken. -/
theorem map_window_insert {α : Type*} (f : Retry → α)
    (hf : ∀ retry retryAt, f { retry with retryAt := retryAt } = f retry)
    (hopen : r.status = .open) (paths : MultiPacketPath) (priority : Bool) (serial : ℕ)
    (k : PacketID) :
    (r.insert rtt paths now priority serial).window[k]?.map f =
      if k = paths.front.packet.header.id then
        (r.window[k]?.map f).or (some (f { paths := paths, sentAt := now, priority := priority,
                                           serial := serial }))
      else r.window[k]?.map f := by
  have hwindow : ∀ retry : Retry,
      (r.window.insertIfNew paths.front.packet.header.id retry)[k]?.map f =
      if k = paths.front.packet.header.id then (r.window[k]?.map f).or (some (f retry))
      else r.window[k]?.map f := by
    intro retry
    simp only [ExtTreeMap.getElem?_insertIfNew, Std.LawfulEqCmp.compare_eq_iff_eq,
      ExtTreeMap.mem_iff_isSome_getElem?]
    by_cases hk : k = paths.front.packet.header.id
    · subst hk
      cases r.window[paths.front.packet.header.id]? <;> simp
    · simp [hk, Ne.symm hk]
  have hclosed : ¬ r.status = .closed := by simp [hopen]
  unfold insert
  rw [if_neg hclosed]
  dsimp only
  split
  · rw [map_window_recalculateRetryTimeout _ _ f hf, hwindow]
  · rw [hwindow]

theorem outstanding_insert (hopen : r.status = .open) (paths : MultiPacketPath)
    (priority : Bool) (serial : ℕ) (k : PacketID) :
    (r.insert rtt paths now priority serial).outstanding k =
      if k = paths.front.packet.header.id then (r.outstanding k).or (some (paths, serial))
      else r.outstanding k :=
  r.map_window_insert rtt now _ (fun _ _ => rfl) hopen paths priority serial k

/-- What is outstanding after an insertion was so before, or is the new entry. -/
theorem outstanding_of_insert {paths : MultiPacketPath} {priority : Bool} {serial : ℕ}
    {k : PacketID} {entry : MultiPacketPath × ℕ}
    (h : (r.insert rtt paths now priority serial).outstanding k = some entry) :
    r.outstanding k = some entry ∨
      k = paths.front.packet.header.id ∧ entry = (paths, serial) := by
  cases hstatus : r.status with
  | closed =>
      rw [insert, if_pos hstatus] at h
      exact .inl h
  | «open» =>
      rw [outstanding_insert _ _ _ hstatus] at h
      split at h
      next hk =>
        cases hold : r.outstanding k with
        | none =>
            rw [hold] at h
            cases h
            exact .inr ⟨hk, rfl⟩
        | some old =>
            rw [hold] at h
            exact .inl h
      · exact .inl h

@[simp] theorem status_insert (paths : MultiPacketPath) (priority : Bool) (serial : ℕ) :
    (r.insert rtt paths now priority serial).status = r.status := by
  unfold insert
  split
  · rfl
  · dsimp only
    split
    · rw [status_recalculateRetryTimeout]
    · rfl

/-- An acknowledgement takes its own identifier out of the window, and no other. -/
theorem window_ack (id : PacketID) (delayedMS : BitVec 16) (k : PacketID) :
    (r.ack id now delayedMS).2.window[k]? = if k = id then none else r.window[k]? := by
  unfold ack
  split
  next h =>
    split
    next hk => exact hk ▸ h
    next => rfl
  next retry h =>
    simp only [ExtTreeMap.getElem?_erase, Std.LawfulEqCmp.compare_eq_iff_eq]
    by_cases hk : k = id
    · simp [hk]
    · simp [hk, Ne.symm hk]

/-- Closing clears the window. -/
theorem outstanding_close (k : PacketID) :
    r.close.outstanding k = if r.status = .closed then r.outstanding k else none := by
  by_cases h : r.status = .closed
  · rw [close, if_neg (not_not.mpr h), if_pos h]
  · rw [close, if_pos h, if_neg h]
    simp [outstanding]

theorem outstanding_of_close {k : PacketID} {entry : MultiPacketPath × ℕ}
    (h : r.close.outstanding k = some entry) : r.outstanding k = some entry := by
  rw [outstanding_close] at h
  split at h
  · exact h
  · cases h

theorem status_close : r.close.status = .closed := by
  rw [close]
  split
  · rfl
  next h => exact not_not.mp h

/-- The window is empty when nothing is outstanding. -/
theorem empty_iff : r.empty = true ↔ ∀ k, r.outstanding k = none := by
  rw [empty, ExtTreeMap.isEmpty_iff]
  constructor
  · intro h k
    simp [outstanding, h]
  · intro h
    ext k retry
    have hk := h k
    rw [outstanding, Option.map_eq_none_iff] at hk
    simp [hk]

@[simp] theorem status_ack (id : PacketID) (delayedMS : BitVec 16) :
    (r.ack id now delayedMS).2.status = r.status := by
  unfold ack
  split <;> rfl

end Retrier
end MrUDP
