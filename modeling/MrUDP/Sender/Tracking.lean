import MrUDP.Lib.Run
import MrUDP.Sender.Sender

/-!
# Packets sent reliably stay tracked

The window is a map from 16-bit identifiers, and the identifiers of the packets
with priority are kept beside it, in a set of their own.  Here the sender runs
under every sequence of packets sent reliably, acknowledgements, retry timeouts
and `Retrier::close`, and the two are compared.

The identifiers come from a wrapping counter.  As long as no entry of the window
is a full turn of the counter old, every packet gets an entry of its own and the
set names exactly the entries with priority.  The code does not see to that: a
packet that stays unacknowledged for a full turn meets its own identifier again.

## Main definitions

* `RetryInput`, `Sender.track`: what reaches the retrier, and what it does.
* `Retrier.PriorityAgrees`: the set and the entries of the window agree.
* `Sender.Recent`: no entry is a full turn older than the packet being sent.
-/

namespace MrUDP
open Std (ExtTreeMap ExtTreeSet)
open Machine

/-! ## The packets with priority -/

namespace Retrier

variable {r : Retrier} (rtt : RTT) (now : Timepoint)

@[simp] theorem priority_recalculateRetryTimeout :
    (r.recalculateRetryTimeout rtt).priority = r.priority := by
  unfold recalculateRetryTimeout
  split <;> rfl

theorem priority_insert (hopen : r.status = .open) (paths : MultiPacketPath) (priority : Bool)
    (serial : ℕ) :
    (r.insert rtt paths now priority serial).priority =
      if priority then r.priority.insert paths.front.packet.header.id else r.priority := by
  have hclosed : ¬ r.status = .closed := by simp [hopen]
  unfold insert
  rw [if_neg hclosed]
  dsimp only
  split <;> simp

/-- Acknowledging an entry without priority leaves the set as it is. -/
theorem priority_ack {id : PacketID} (hflag : r.window[id]?.map Retry.priority ≠ some true)
    (delayedMS : BitVec 16) : (r.ack id now delayedMS).2.priority = r.priority := by
  unfold ack
  split
  · rfl
  next retry hsome =>
    have hfalse : ¬ retry.priority = true := by simpa [hsome] using hflag
    simp [hfalse]

/-- The set holds the identifiers of the entries with priority. -/
def PriorityAgrees (r : Retrier) : Prop :=
  ∀ k, k ∈ r.priority ↔ r.window[k]?.map Retry.priority = some true

namespace PriorityAgrees

theorem recalculateRetryTimeout (h : r.PriorityAgrees) :
    (r.recalculateRetryTimeout rtt).PriorityAgrees := by
  intro k
  rw [priority_recalculateRetryTimeout,
    map_window_recalculateRetryTimeout r rtt Retry.priority (fun _ _ => rfl)]
  exact h k

/-- Inserting keeps the set and the window together if the identifier is free. -/
theorem insert (h : r.PriorityAgrees) {paths : MultiPacketPath} (priority : Bool) (serial : ℕ)
    (hfree : r.window[paths.front.packet.header.id]? = none) :
    (r.insert rtt paths now priority serial).PriorityAgrees := by
  by_cases hclosed : r.status = .closed
  · rw [Retrier.insert, if_pos hclosed]
    exact h
  have hopen : r.status = .open := by cases hs : r.status <;> simp_all
  intro k
  rw [priority_insert rtt now hopen, map_window_insert r rtt now Retry.priority (fun _ _ => rfl) hopen]
  by_cases hk : k = paths.front.packet.header.id
  · subst hk
    have hnot := (h paths.front.packet.header.id).not.mpr (by simp [hfree])
    cases priority <;> simp [hfree, hnot]
  · have hne : ¬ paths.front.packet.header.id = k := Ne.symm hk
    rw [if_neg hk, ← h k]
    cases priority <;> simp [hne]

/-- An acknowledgement takes an identifier out of both. -/
theorem ack (h : r.PriorityAgrees) (id : PacketID) (delayedMS : BitVec 16) :
    (r.ack id now delayedMS).2.PriorityAgrees := by
  intro k
  rw [window_ack]
  unfold Retrier.ack
  split
  next hnone =>
    by_cases hk : k = id
    · simp [hk, h id, hnone]
    · simp [hk, h k]
  next retry hsome =>
    by_cases hk : k = id
    · subst hk
      have hid := h k
      rw [hsome] at hid
      cases hp : retry.priority <;> simp_all
    · have hne : ¬ id = k := Ne.symm hk
      cases hp : retry.priority <;> simp [hk, hne, h k]

/-- **The next retry is there.**  The first identifier with priority is looked up in the window
and found. -/
theorem isSome_window (h : r.PriorityAgrees) {k : PacketID}
    (hk : r.priority.toList.head? = some k) : r.window[k]?.isSome = true := by
  have hmem := ExtTreeSet.mem_toList.mp (List.mem_of_head? hk)
  have hflag := (h k).mp hmem
  cases hw : r.window[k]? with
  | none => simp [hw] at hflag
  | some retry => rfl

end PriorityAgrees
end Retrier

/-! ## The sender as the retrier sees it -/

/-- What reaches the retrier of a sender. -/
inductive RetryInput
  | send (paths : MultiPacketPath) (priority : Bool)
  | ack (ack : Ack)
  | close
  | timeout (maximumAttempts : BitVec 16)

namespace Sender

/-- One input at a time.  A retry timeout that finds no attempts left fails the connection, which
closes the retrier: that is an input of its own. -/
def track (s : Sender) : Timepoint × RetryInput → Sender
  | (now, .send paths priority) => s.sendReliablyMultipath now paths priority
  | (now, .ack ack) => s.acknowledge now ack
  | (_, .close) => { s with retrier := s.retrier.close }
  | (now, .timeout maximumAttempts) =>
      match s.retrier.onRetryTimeout now maximumAttempts with
      | .wait => { s with retrier := s.retrier.recalculateRetryTimeout s.rtt }
      | .resend id retry => s.resend now id retry
      | .fail => s

/-- Nothing waits in the window for a full turn of the identifiers when a packet is sent. -/
def Recent (s : Sender) : Timepoint × RetryInput → Prop
  | (_, .send _ _) =>
      ∀ entry ∈ s.retrier.window.toList, s.packetIDGenerator.issued < entry.2.serial + 2 ^ 16
  | _ => True

instance (s : Sender) : ∀ input, Decidable (s.Recent input)
  | (_, .send _ _) => by unfold Recent; infer_instance
  | (_, .ack _) | (_, .close) | (_, .timeout _) => isTrue trivial

variable {s : Sender}

/-- What a packet sent reliably does to the window. -/
theorem outstanding_send (hopen : s.retrier.status = .open) (now : Timepoint)
    (paths : MultiPacketPath) (priority : Bool) (k : PacketID) :
    (s.track (now, .send paths priority)).retrier.outstanding k =
      if k = s.packetIDGenerator.id then
        (s.retrier.outstanding k).or
          (some (paths.setID s.packetIDGenerator.id, s.packetIDGenerator.issued))
      else s.retrier.outstanding k :=
  s.retrier.outstanding_insert s.rtt now hopen _ priority _ k

/-- A retry timeout leaves the window outstanding as it was. -/
theorem outstanding_timeout (now : Timepoint) (maximumAttempts : BitVec 16) (k : PacketID) :
    (s.track (now, .timeout maximumAttempts)).retrier.outstanding k =
      s.retrier.outstanding k := by
  rw [track]
  split
  · exact s.retrier.outstanding_recalculateRetryTimeout s.rtt k
  next h => exact outstanding_resend (s.retrier.window_of_onRetryTimeout now h) now k
  · rfl

/-- **An entry leaves the window when it is acknowledged or the retrier closes.** -/
theorem outstanding_track {k : PacketID} {entry : MultiPacketPath × ℕ}
    (h : s.retrier.outstanding k = some entry) (input : Timepoint × RetryInput) :
    (s.track input).retrier.outstanding k = some entry ∨
      (∃ now ack, input = (now, .ack ack) ∧ ack.packetID = k) ∨ ∃ now, input = (now, .close) := by
  obtain ⟨now, input⟩ := input
  cases input with
  | send paths priority =>
      left
      cases hs : s.retrier.status with
      | «open» =>
          rw [outstanding_send hs, h]
          split <;> rfl
      | closed =>
          show (s.retrier.insert _ _ _ _ _).outstanding k = _
          rw [Retrier.insert, if_pos hs, h]
  | ack ack =>
      by_cases hk : ack.packetID = k
      · exact .inr (.inl ⟨now, ack, rfl, hk⟩)
      · left
        rw [track, outstanding_acknowledge, if_neg (Ne.symm hk), h]
  | close => exact .inr (.inr ⟨now, rfl⟩)
  | timeout maximumAttempts =>
      left
      rw [outstanding_timeout, h]

/-! ## The invariant -/

/-- What holds of the window as long as no entry grows a full turn old. -/
structure Tracked (s : Sender) : Prop where
  /-- An entry is stored under the name of its number, and the number was given out. -/
  serial : ∀ k paths n, s.retrier.outstanding k = some (paths, n) →
    k = serial 16 n ∧ n < s.packetIDGenerator.issued
  priority : s.retrier.status = .open → s.retrier.PriorityAgrees
  closed : s.retrier.status = .closed → s.retrier.window.isEmpty = true

namespace Tracked

theorem init : Tracked {} where
  serial := by
    intro k paths n h
    simp [Retrier.outstanding] at h
  priority := by
    intro _ k
    simp
  closed := fun h => nomatch h

/-- The identifier of the next packet is free unless an entry is a full turn old. -/
theorem free (h : s.Tracked) {now : Timepoint} {paths : MultiPacketPath} {priority : Bool}
    (hrecent : s.Recent (now, .send paths priority)) :
    s.retrier.window[s.packetIDGenerator.id]? = none := by
  cases hw : s.retrier.window[s.packetIDGenerator.id]? with
  | none => rfl
  | some retry =>
      exfalso
      have hout : s.retrier.outstanding s.packetIDGenerator.id =
          some (retry.paths, retry.serial) := by
        simp [Retrier.outstanding, hw]
      obtain ⟨hname, hlt⟩ := h.serial _ _ _ hout
      have hage := hrecent _ (ExtTreeMap.mem_toList_iff_getElem?_eq_some.mpr hw)
      have heq := serial_inj hname (by dsimp only at hage; omega) (by omega)
      omega

/-- A change that leaves the numbers given out, the status and everything outstanding. -/
theorem of_outstanding (h : s.Tracked) {s' : Sender}
    (hissued : s'.packetIDGenerator = s.packetIDGenerator)
    (hstatus : s'.retrier.status = s.retrier.status)
    (hout : ∀ k entry, s'.retrier.outstanding k = some entry →
      s.retrier.outstanding k = some entry)
    (hpriority : s.retrier.PriorityAgrees → s'.retrier.PriorityAgrees) : s'.Tracked where
  serial k paths n hk := by
    rw [hissued]
    exact h.serial k paths n (hout k _ hk)
  priority hopen := hpriority (h.priority (hstatus ▸ hopen))
  closed hclosed := by
    have hempty := s.retrier.empty_iff.mp (h.closed (hstatus ▸ hclosed))
    refine s'.retrier.empty_iff.mpr fun k => ?_
    cases hk : s'.retrier.outstanding k with
    | none => rfl
    | some entry => exact absurd (hout k entry hk) (by simp [hempty k])

theorem send (h : s.Tracked) {now : Timepoint} {paths : MultiPacketPath} {priority : Bool}
    (hrecent : s.Recent (now, .send paths priority)) :
    (s.track (now, .send paths priority)).Tracked := by
  have hfree := h.free hrecent
  have hstatus : (s.track (now, .send paths priority)).retrier.status = s.retrier.status :=
    s.retrier.status_insert s.rtt now _ _ _
  refine ⟨fun k paths' n hk => ?_, fun hopen => ?_, fun hclosed => ?_⟩
  · show k = _ ∧ n < s.packetIDGenerator.issued + 1
    rcases Retrier.outstanding_of_insert _ _ _ hk with hk | ⟨hkid, hk⟩
    · obtain ⟨hname, hlt⟩ := h.serial _ _ _ hk
      exact ⟨hname, Nat.lt_succ_of_lt hlt⟩
    · cases hk
      exact ⟨hkid, Nat.lt_succ_self _⟩
  · exact (h.priority (hstatus ▸ hopen)).insert s.rtt now priority _ hfree
  · have hs : s.retrier.status = .closed := hstatus ▸ hclosed
    show (s.retrier.insert _ _ _ _ _).window.isEmpty = true
    rw [Retrier.insert, if_pos hs]
    exact h.closed hs

theorem acknowledge (h : s.Tracked) (now : Timepoint) (ack : Ack) :
    (s.acknowledge now ack).Tracked := by
  obtain ⟨-, -, hissued, hstatus⟩ := acknowledge_frame (s := s) now ack
  refine h.of_outstanding hissued hstatus (fun k entry => outstanding_of_acknowledge)
    fun hagrees => ?_
  have hack := hagrees.ack now ack.packetID ack.delayedMS
  unfold Sender.acknowledge
  dsimp only
  split
  · dsimp only
    split
    · exact hack.recalculateRetryTimeout _
    · exact hack
  · exact hack

theorem close (h : s.Tracked) : Tracked { s with retrier := s.retrier.close } where
  serial k paths n hk := h.serial k paths n (Retrier.outstanding_of_close _ hk)
  priority hopen := by
    rw [Retrier.status_close] at hopen
    cases hopen
  closed _ := by
    rw [Retrier.close]
    split
    · simp
    next hs => exact h.closed (not_not.mp hs)

theorem resend (h : s.Tracked) (now : Timepoint) {id : PacketID} {retry : Retry}
    (hw : s.retrier.window[id]? = some retry) : (s.resend now id retry).Tracked := by
  refine h.of_outstanding rfl ?_ (fun k entry hk => ?_) fun hagrees => ?_
  · simp [Sender.resend]
  · rwa [outstanding_resend hw] at hk
  · refine Retrier.PriorityAgrees.recalculateRetryTimeout _ fun k => ?_
    rw [Retrier.map_window_update s.retrier Retry.priority hw (by rfl)]
    exact hagrees k

/-- One step of the retrier. -/
theorem track (h : s.Tracked) {input : Timepoint × RetryInput} (hrecent : s.Recent input) :
    (s.track input).Tracked := by
  obtain ⟨now, input⟩ := input
  cases input with
  | send paths priority => exact h.send hrecent
  | ack ack => exact h.acknowledge now ack
  | close => exact h.close
  | timeout maximumAttempts =>
      rw [Sender.track]
      split
      · exact h.of_outstanding rfl (by simp) (fun k entry hk => by simpa using hk)
          fun hagrees => hagrees.recalculateRetryTimeout _
      next hdue => exact h.resend now (s.retrier.window_of_onRetryTimeout now hdue)
      · exact h

end Tracked

/-- **Packets sent reliably stay tracked.**  In every run in which no entry of the window is a
full turn of the identifiers old when a packet is sent: the packet gets an entry of its own,
which stays until it is acknowledged or the retrier closes; the set of priorities holds the
identifiers of the entries with priority; and the lookup of its first one succeeds. -/
theorem tracked_run {inputs : List (Timepoint × RetryInput)}
    (halong : Along track Recent {} inputs) :
    let s := run track {} inputs
    (s.retrier.status = .open → ∀ now paths priority, s.Recent (now, .send paths priority) →
      s.retrier.window[s.packetIDGenerator.id]? = none ∧
      ∀ k, (s.track (now, .send paths priority)).retrier.outstanding k =
        if k = s.packetIDGenerator.id then
          some (paths.setID s.packetIDGenerator.id, s.packetIDGenerator.issued)
        else s.retrier.outstanding k) ∧
    (∀ input k entry, s.retrier.outstanding k = some entry →
      (s.track input).retrier.outstanding k = some entry ∨
        (∃ now ack, input = (now, .ack ack) ∧ ack.packetID = k) ∨
        ∃ now, input = (now, .close)) ∧
    (s.retrier.status = .open → s.retrier.PriorityAgrees) ∧
    (s.retrier.window.isEmpty = false → ∀ k, s.retrier.priority.toList.head? = some k →
      s.retrier.window[k]?.isSome = true) := by
  intro s
  have hs : s.Tracked :=
    run_invariant Tracked (fun _ _ h hrecent => h.track hrecent) Tracked.init halong
  refine ⟨fun hopen now paths priority hrecent => ?_, fun input k entry hk => ?_, hs.priority,
    fun hne k hk => ?_⟩
  · have hfree := hs.free hrecent
    refine ⟨hfree, fun k => ?_⟩
    rw [outstanding_send hopen]
    split
    next hk => simp [Retrier.outstanding, hk, hfree]
    next => rfl
  · exact outstanding_track hk input
  · have hopen : s.retrier.status = .open := by
      cases hstatus : s.retrier.status with
      | «open» => rfl
      | closed => simp [hs.closed hstatus] at hne
    exact (hs.priority hopen).isSome_window hk

/-! ## A packet that waits for a full turn -/

/-- A probe, sent on the established path. -/
def probing : MultiPacketPath := ⟨⟨{ header := { type := TypeID.probe } }, none⟩, none⟩

/-- A challenge, sent on the established path. -/
def challenging : MultiPacketPath :=
  ⟨⟨{ header := { type := TypeID.authenticateChallenge } }, none⟩, none⟩

/-- Two packets are sent, one of them with priority, and one is acknowledged. -/
theorem tracked_run_challenge :
    let inputs : List (Timepoint × RetryInput) :=
      [(0, .send probing false), (1, .send challenging true), (2, .ack ⟨0, 0⟩)]
    Along track Recent {} inputs ∧ (run track {} inputs).retrier.PriorityAgrees :=
  ⟨by decide +kernel, (tracked_run (by decide +kernel)).2.2.1 (by decide +kernel)⟩

/-- A probe stays unacknowledged, while `n` later ones are sent and acknowledged. -/
def lagging (n : ℕ) : List (Timepoint × RetryInput) :=
  (0, .send probing false) :: (List.range n).flatMap fun i =>
    [(0, .send probing false), (0, .ack ⟨serial 16 (i + 1), 0⟩)]

/-- What is stored of a packet, without the times. -/
def stored (s : Sender) (k : PacketID) : Option (MultiPacketPath × ℕ × Bool) :=
  s.retrier.window[k]?.map fun retry => (retry.paths, retry.serial, retry.priority)

theorem stored_send (hopen : s.retrier.status = .open) (now : Timepoint)
    (paths : MultiPacketPath) (priority : Bool) (k : PacketID) :
    (s.track (now, .send paths priority)).stored k =
      if k = s.packetIDGenerator.id then
        (s.stored k).or
          (some (paths.setID s.packetIDGenerator.id, s.packetIDGenerator.issued, priority))
      else s.stored k :=
  s.retrier.map_window_insert s.rtt now _ (fun _ _ => rfl) hopen _ priority _ k

theorem stored_ack (now : Timepoint) (a : Ack) (k : PacketID) :
    (s.track (now, .ack a)).stored k = if k = a.packetID then none else s.stored k :=
  map_window_acknowledge _ (fun _ _ => rfl) now a k

theorem status_send (now : Timepoint) (paths : MultiPacketPath) (priority : Bool) :
    (s.track (now, .send paths priority)).retrier.status = s.retrier.status :=
  s.retrier.status_insert s.rtt now _ _ _

/-- The first probe is all that is in the window, and `n` packets were sent after it. -/
structure Lagging (n : ℕ) (s : Sender) : Prop where
  tracked : s.Tracked
  «open» : s.retrier.status = .open
  issued : s.packetIDGenerator.issued = n + 1
  stored : ∀ k, s.stored k = if k = 0 then some (probing.setID 0, 0, false) else none

/-- Until a turn is over the next packet can be sent. -/
theorem Lagging.recent {n : ℕ} (h : Lagging n s) (hn : n + 1 < 2 ^ 16) (now : Timepoint)
    (paths : MultiPacketPath) (priority : Bool) : s.Recent (now, .send paths priority) := by
  rintro ⟨k, retry⟩ hmem
  have hk := h.stored k
  rw [Sender.stored, ExtTreeMap.mem_toList_iff_getElem?_eq_some.mp hmem] at hk
  split at hk
  · simp only [Option.map_some, Option.some.injEq, Prod.mk.injEq] at hk
    rw [h.issued, hk.2.1]
    omega
  · cases hk

/-- Another packet is sent and acknowledged. -/
theorem Lagging.round {n : ℕ} (h : Lagging n s) (hn : n + 1 < 2 ^ 16) :
    Lagging (n + 1)
      (run track s [(0, .send probing false), (0, .ack ⟨serial 16 (n + 1), 0⟩)]) := by
  have hid : s.packetIDGenerator.id = serial 16 (n + 1) := by rw [IDGenerator.id, h.issued]
  have hne : serial 16 (n + 1) ≠ 0 := by
    intro h0
    have := congrArg BitVec.toNat h0
    rw [toNat_serial, Nat.mod_eq_of_lt hn] at this
    simp at this
  have hsent := h.tracked.send (h.recent hn 0 probing false)
  rw [run_cons, run_cons, run_nil]
  refine ⟨hsent.acknowledge 0 _, ?_, ?_, fun k => ?_⟩
  · exact (acknowledge_frame 0 _).2.2.2.trans ((status_send 0 _ _).trans h.open)
  · refine (congrArg IDGenerator.issued (acknowledge_frame 0 _).2.2.1).trans ?_
    exact congrArg (· + 1) h.issued
  · rw [stored_ack]
    split
    next hk =>
      have hk0 : ¬ k = 0 := fun h0 => hne (hk.symm.trans h0)
      rw [if_neg hk0]
    next hk =>
      rw [stored_send h.open, if_neg fun hc => hk (hc.trans hid), h.stored k]

theorem lagging_succ (n : ℕ) : lagging (n + 1) = lagging n ++
    [(0, .send probing false), (0, .ack ⟨serial 16 (n + 1), 0⟩)] := by
  simp [lagging, List.range_succ]

theorem lagging_run {n : ℕ} (hn : n < 2 ^ 16) : Lagging n (run track {} (lagging n)) := by
  induction n with
  | zero =>
      refine ⟨Tracked.init.send (by decide), by decide +kernel, by decide +kernel, fun k => ?_⟩
      exact stored_send rfl 0 probing false k
  | succ n ih =>
      rw [lagging_succ, run_append]
      exact (ih (by omega)).round hn

/-- Acknowledging a packet without priority leaves the set as it is. -/
theorem priority_acknowledge {a : Ack}
    (hflag : s.retrier.window[a.packetID]?.map Retry.priority ≠ some true) (now : Timepoint) :
    (s.acknowledge now a).retrier.priority = s.retrier.priority := by
  have hack := Retrier.priority_ack now hflag a.delayedMS
  unfold acknowledge
  dsimp only
  split
  · dsimp only
    split
    · rw [Retrier.priority_recalculateRetryTimeout, hack]
    · exact hack
  · exact hack

theorem priority_of_stored (k : PacketID) :
    s.retrier.window[k]?.map Retry.priority = (s.stored k).map (·.2.2) := by
  rw [stored, Option.map_map]
  rfl

theorem outstanding_of_stored (k : PacketID) :
    s.retrier.outstanding k = (s.stored k).map fun entry => (entry.1, entry.2.1) := by
  rw [stored, Option.map_map]
  rfl

/-- After a full turn a challenge is not stored, but its identifier has priority. -/
theorem Lagging.challenge {n : ℕ} (h : Lagging n s) (hn : n + 1 = 2 ^ 16) :
    (∀ k, (s.track (0, .send challenging true)).stored k = s.stored k) ∧
      ∀ k, k ∈ (s.track (0, .send challenging true)).retrier.priority ↔ k = 0 := by
  have hid : s.packetIDGenerator.id = 0 := by
    rw [IDGenerator.id, h.issued, hn]
    rfl
  constructor
  · intro k
    rw [stored_send h.open, hid]
    split
    next hk => simp [h.stored, hk]
    next => rfl
  · intro k
    have hset := Retrier.priority_insert s.rtt 0 h.open
      (challenging.setID s.packetIDGenerator.id) true s.packetIDGenerator.issued
    have hnone : k ∉ s.retrier.priority := by
      rw [h.tracked.priority h.open k, priority_of_stored, h.stored]
      split <;> simp
    have hfront : (challenging.setID s.packetIDGenerator.id).front.packet.header.id = 0 := hid
    rw [if_pos rfl, hfront] at hset
    show k ∈ (s.retrier.insert _ _ _ _ _).priority ↔ k = 0
    rw [hset, ExtTreeSet.mem_insert, Std.LawfulEqCmp.compare_eq_iff_eq]
    exact ⟨fun hk => (hk.resolve_right hnone).symm, fun hk => .inl hk.symm⟩

/-- The probe is acknowledged and another packet sent: the first priority has no entry. -/
theorem Lagging.lookup {n : ℕ} (h : Lagging n s) (hn : n + 1 = 2 ^ 16) :
    let s₁ := s.track (0, .send challenging true)
    let s₂ := (s₁.track (0, .ack ⟨0, 0⟩)).track (0, .send probing false)
    s.retrier.status = .open ∧ s.packetIDGenerator.id = 0 ∧
      (∀ k n, s₁.retrier.outstanding k ≠ some (challenging.setID 0, n)) ∧
      s₂.retrier.status = .open ∧ s₂.retrier.window.isEmpty = false ∧
      s₂.retrier.priority.toList.head? = some 0 ∧ s₂.retrier.window[(0 : PacketID)]? = none := by
  intro s₁ s₂
  obtain ⟨hstored₁, hpriority₁⟩ := h.challenge hn
  have hopen₁ : s₁.retrier.status = .open := (status_send 0 _ _).trans h.open
  obtain ⟨-, -, hissued₂, hstatus₂⟩ := acknowledge_frame (s := s₁) 0 ⟨0, 0⟩
  have hopen₂ : (s₁.track (0, .ack ⟨0, 0⟩)).retrier.status = .open := hstatus₂.trans hopen₁
  have hid₂ : (s₁.track (0, .ack ⟨0, 0⟩)).packetIDGenerator.id = 1 := by
    rw [track, hissued₂]
    show serial 16 (s.packetIDGenerator.issued + 1) = 1
    rw [h.issued, hn]
    rfl
  have hstored₂ : ∀ k, (s₁.track (0, .ack ⟨0, 0⟩)).stored k = none := by
    intro k
    rw [stored_ack, hstored₁, h.stored]
    split <;> simp_all
  have hpriority₂ : ∀ k, k ∈ s₂.retrier.priority ↔ k = 0 := by
    intro k
    have hflag : s₁.retrier.window[(0 : PacketID)]?.map Retry.priority ≠ some true := by
      rw [priority_of_stored, hstored₁, h.stored]
      simp
    have hset := Retrier.priority_insert (s₁.track (0, .ack ⟨0, 0⟩)).rtt 0 hopen₂
      (probing.setID (s₁.track (0, .ack ⟨0, 0⟩)).packetIDGenerator.id) false
      (s₁.track (0, .ack ⟨0, 0⟩)).packetIDGenerator.issued
    refine Iff.trans (Eq.to_iff (congrArg (k ∈ ·) (hset.trans ?_))) (hpriority₁ k)
    exact priority_acknowledge hflag 0
  have hwindow₂ : ∀ k, s₂.stored k =
      if k = 1 then some (probing.setID 1, (s₁.track (0, .ack ⟨0, 0⟩)).packetIDGenerator.issued,
        false)
      else none := by
    intro k
    rw [stored_send hopen₂, hid₂, hstored₂]
    rfl
  refine ⟨h.open, ?_, fun k n => ?_, (status_send 0 _ _).trans hopen₂, ?_, ?_, ?_⟩
  · rw [IDGenerator.id, h.issued, hn]
    rfl
  · rw [outstanding_of_stored, hstored₁, h.stored]
    split
    · simp only [Option.map_some, ne_eq, Option.some.injEq, Prod.mk.injEq, not_and]
      intro hpaths
      exact absurd hpaths (by decide)
    · simp
  · by_contra hempty
    have hnone := s₂.retrier.empty_iff.mp (Bool.of_not_eq_false hempty) 1
    rw [outstanding_of_stored, hwindow₂] at hnone
    simp at hnone
  · cases hhead : s₂.retrier.priority.toList.head? with
    | none =>
        have hmem := (hpriority₂ 0).mpr rfl
        rw [List.head?_eq_none_iff] at hhead
        exact absurd (ExtTreeSet.mem_toList.mpr hmem) (by simp [hhead])
    | some k =>
        rw [(hpriority₂ k).mp (ExtTreeSet.mem_toList.mp (List.mem_of_head? hhead))]
  · have hzero := hwindow₂ 0
    rw [if_neg (by decide), Sender.stored, Option.map_eq_none_iff] at hzero
    exact hzero

/-- **A packet that is not tracked.**  The first probe waits for a full turn of the identifiers.
The challenge sent then meets the identifier of the probe, which keeps its entry.  When the probe
is acknowledged, the identifier stays in the set of priorities, and the next lookup of the first
priority finds nothing in the window. -/
theorem untracked_after_turn :
    let s := run track {} (lagging (2 ^ 16 - 1))
    let s₁ := s.track (0, .send challenging true)
    let s₂ := (s₁.track (0, .ack ⟨0, 0⟩)).track (0, .send probing false)
    s.retrier.status = .open ∧ s.packetIDGenerator.id = 0 ∧
      (∀ k n, s₁.retrier.outstanding k ≠ some (challenging.setID 0, n)) ∧
      s₂.retrier.status = .open ∧ s₂.retrier.window.isEmpty = false ∧
      s₂.retrier.priority.toList.head? = some 0 ∧ s₂.retrier.window[(0 : PacketID)]? = none :=
  (lagging_run (by norm_num)).lookup (by norm_num)

end Sender
end MrUDP
