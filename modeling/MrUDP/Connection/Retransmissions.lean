import MrUDP.Connection.Invariants

/-!
# How often a packet is sent again

A retry that has fallen due fails the connection if the packet was sent again as often as
`maximum_retry_attempts` says.  The limit is a signed number of 16 bits that the user and the peer
may change at any time.  It is compared with the number of attempts as an unsigned number of 64
bits, so that a negative limit is none.

## Main definitions

* `Connection.retransmissions`: how often each packet was sent again in a run.
* `Sender.Counts`: the retrier counts them.
* `Connection.Limited`: what a limit is for.
-/

namespace MrUDP
open Std (ExtTreeMap)
open Machine

/-! ## What the retrier counts -/

namespace Sender

variable {e : Env} {ok : Packet → Prop} {s s' : Sender}

/-- The number of a packet in the window, and how often it was sent again. -/
def counted (s : Sender) (k : PacketID) : Option (ℕ × ℕ) :=
  s.retrier.window[k]?.map fun retry => (retry.serial, retry.attempts)

/-- A change that takes no attempt back: the packets in the window were there before, or have been
sent since. -/
structure Ages (s s' : Sender) : Prop where
  issued : s.packetIDGenerator.issued ≤ s'.packetIDGenerator.issued
  window : ∀ k n attempts, s'.counted k = some (n, attempts) →
    (∃ attempts₀ ≤ attempts, s.counted k = some (n, attempts₀)) ∨
      k = serial 16 n ∧ s.packetIDGenerator.issued ≤ n ∧ n < s'.packetIDGenerator.issued

theorem Ages.of_eq (hissued : s'.packetIDGenerator = s.packetIDGenerator)
    (hcounted : ∀ k, s'.counted k = s.counted k) : Ages s s' where
  issued := by rw [hissued]
  window k n attempts hk := by
    rw [hcounted] at hk
    exact .inl ⟨attempts, le_rfl, hk⟩

theorem Ages.of_retrier (hissued : s'.packetIDGenerator = s.packetIDGenerator)
    (hretrier : s'.retrier = s.retrier) : Ages s s' :=
  .of_eq hissued fun k => by rw [counted, counted, hretrier]

/-- Entries are taken out of the window. -/
theorem Ages.of_none (hissued : s'.packetIDGenerator = s.packetIDGenerator)
    (hcounted : ∀ k, s'.counted k = none ∨ s'.counted k = s.counted k) : Ages s s' where
  issued := by rw [hissued]
  window k n attempts hk := by
    rcases hcounted k with hnone | hsame
    · rw [hnone] at hk
      cases hk
    · rw [hsame] at hk
      exact .inl ⟨attempts, le_rfl, hk⟩

theorem ages_sendReliablyMultipath (s : Sender) (now : Timepoint) (paths : MultiPacketPath)
    (priority : Bool) : Ages s (s.sendReliablyMultipath now paths priority) where
  issued := Nat.le_succ _
  window k n attempts hk := by
    change (s.retrier.insert s.rtt _ now priority _).window[k]?.map _ = _ at hk
    cases hstatus : s.retrier.status with
    | closed =>
        rw [Retrier.insert, if_pos hstatus] at hk
        exact .inl ⟨attempts, le_rfl, hk⟩
    | «open» =>
        rw [s.retrier.map_window_insert s.rtt now _ (fun _ _ => rfl) hstatus] at hk
        split at hk
        next hid =>
          cases hold : s.retrier.window[k]? with
          | some retry =>
              rw [hold] at hk
              refine .inl ⟨attempts, le_rfl, ?_⟩
              rw [counted, hold]
              exact hk
          | none =>
              rw [hold] at hk
              cases hk
              exact .inr ⟨hid, le_rfl, Nat.lt_succ_self _⟩
        · exact .inl ⟨attempts, le_rfl, hk⟩

/-- What is counted when a packet is sent again. -/
theorem counted_resend (now : Timepoint) (id : PacketID) (retry : Retry) (k : PacketID) :
    (s.resend now id retry).counted k =
      if k = id then some (retry.serial, retry.attempts + 1) else s.counted k := by
  rw [counted, resend]
  dsimp only
  rw [Retrier.map_window_recalculateRetryTimeout _ _ _ (fun _ _ => rfl)]
  simp only [ExtTreeMap.getElem?_insert, Std.LawfulEqCmp.compare_eq_iff_eq]
  by_cases hk : k = id
  · rw [if_pos hk.symm, if_pos hk]
    rfl
  · rw [if_neg (Ne.symm hk), if_neg hk]
    rfl

/-- **No change takes an attempt back.** -/
theorem Change.ages (h : Change e ok s s') : Ages s s' := by
  cases h with
  | quiet h =>
      cases h with
      | setSchedule schedule reliability => cases reliability <;> exact .of_retrier rfl rfl
      | @transmit p q =>
          have hsend := ages_sendReliablyMultipath { s with dataQueue := q } e.now
            ⟨⟨{ p with header := { p.header with type := TypeID.dataReliable } }, none⟩, none⟩ false
          exact ⟨hsend.issued, hsend.window⟩
      | processUnreliableDataQueue =>
          obtain ⟨hretrier, hissued, -⟩ := processUnreliableDataQueue_frame (e := e) s
          exact .of_retrier hissued hretrier
      | push reliability => cases reliability <;> exact .of_retrier rfl rfl
      | «open» => exact .of_retrier rfl rfl
      | sendReliably priority => exact ages_sendReliablyMultipath s e.now _ priority
      | delayAck => exact .of_retrier rfl rfl
      | @resend id retry h =>
          refine ⟨le_rfl, fun k n attempts hk => .inl ?_⟩
          rw [counted_resend] at hk
          split at hk
          next hid =>
            cases hk
            refine ⟨retry.attempts, Nat.le_succ _, ?_⟩
            rw [counted, hid, h]
            rfl
          · exact ⟨attempts, le_rfl, hk⟩
      | recalculate =>
          exact .of_eq rfl fun k =>
            s.retrier.map_window_recalculateRetryTimeout s.rtt _ (fun _ _ => rfl) k
  | acknowledge ack =>
      refine .of_none (acknowledge_frame e.now ack).2.2.1 fun k => ?_
      rw [counted, map_window_acknowledge _ (fun _ _ => rfl)]
      split
      · exact .inl rfl
      · exact .inr rfl
  | close => exact .of_retrier rfl rfl
  | fail =>
      refine .of_none rfl fun k => ?_
      show s.retrier.close.window[k]?.map _ = none ∨ s.retrier.close.window[k]?.map _ = _
      rw [Retrier.close]
      split
      · exact .inl (by simp)
      · exact .inr rfl

/-- The packet with each number was sent again `count` times: its entry knows of as many attempts,
at least. -/
structure Counts (count : ℕ → ℕ) (s : Sender) : Prop where
  entry : ∀ k n attempts, s.counted k = some (n, attempts) →
    k = serial 16 n ∧ n < s.packetIDGenerator.issued ∧ count n ≤ attempts
  later : ∀ n, s.packetIDGenerator.issued ≤ n → count n = 0

theorem Counts.ages {count : ℕ → ℕ} (h : Counts count s) (hages : Ages s s') :
    Counts count s' where
  entry k n attempts hk := by
    rcases hages.window k n attempts hk with ⟨attempts₀, hle, hk⟩ | ⟨hname, hnew, hlt⟩
    · obtain ⟨hname, hlt, hcount⟩ := h.entry k n attempts₀ hk
      exact ⟨hname, hlt.trans_le hages.issued, hcount.trans hle⟩
    · refine ⟨hname, hlt, ?_⟩
      rw [h.later n hnew]
      exact Nat.zero_le _
  later n hn := h.later n (hages.issued.trans hn)

/-- A packet is sent again, and counted. -/
theorem Counts.resend {count : ℕ → ℕ} (h : Counts count s) {id : PacketID} {retry : Retry}
    (hw : s.retrier.window[id]? = some retry) (now : Timepoint) :
    Counts (fun n => count n + if retry.serial = n then 1 else 0) (s.resend now id retry) := by
  have hid : s.counted id = some (retry.serial, retry.attempts) := by
    rw [counted, hw]
    rfl
  obtain ⟨hname, hlt, hcount⟩ := h.entry _ _ _ hid
  refine ⟨fun k n attempts hk => ?_, fun n hn => ?_⟩
  · rw [counted_resend] at hk
    split at hk
    next hkid =>
      cases hk
      rw [hkid, if_pos rfl]
      exact ⟨hname, hlt, Nat.succ_le_succ hcount⟩
    next hkid =>
      obtain ⟨hkname, hklt, hkcount⟩ := h.entry k n attempts hk
      refine ⟨hkname, hklt, ?_⟩
      -- Two entries of the window do not have the same number.
      rw [if_neg fun hsame => hkid (by rw [hkname, hname, hsame])]
      exact hkcount
  · change s.packetIDGenerator.issued ≤ n at hn
    rw [h.later n hn, if_neg (by omega)]

theorem onRetryTimeout_of_resend {id : PacketID} {retry : Retry}
    (h : s.retrier.onRetryTimeout e.now e.options.maximumRetryAttempts = .resend id retry) :
    s.onRetryTimeout e = (false, s.resend e.now id retry) := by
  rw [onRetryTimeout, h]

theorem onRetryTimeout_of_fail
    (h : s.retrier.onRetryTimeout e.now e.options.maximumRetryAttempts = .fail) :
    s.onRetryTimeout e = (true, s) := by
  rw [onRetryTimeout, h]

end Sender

namespace Connection

/-! ## Counting -/

/-- Whether something makes the connection send the packet with some number again. -/
def retransmits (c : Connection) (n : ℕ) : Timepoint × Input → ℕ
  | (now, .retryTimeout _) =>
      match c.sender.retrier.onRetryTimeout now c.options.maximumRetryAttempts with
      | .resend _ retry => if retry.serial = n then 1 else 0
      | .wait | .fail => 0
  | _ => 0

/-- How often the packet with some number is sent again in a run. -/
def retransmissions (z : Zlib) (n : ℕ) : Connection → List (Timepoint × Input) → ℕ
  | _, [] => 0
  | c, input :: inputs => c.retransmits n input + retransmissions z n (step z c input) inputs

variable {z : Zlib} {c : Connection} {count : ℕ → ℕ}

/-- What is kept as long as nothing is sent again. -/
theorem keeps_counts (z : Zlib) (count : ℕ → ℕ) :
    KeepsAll z fun c => Sender.Counts count c.sender :=
  keepsFront_of_sender (fun _ _ _ hchange h => h.ages hchange.ages)
    fun _ h => h.ages (.of_retrier rfl rfl)

variable {now : Timepoint} {id : PacketID} {retry : Retry} {limit : BitVec 16}

/-- An expiry that makes the connection send a packet again. -/
theorem step_of_resend (script : List UserCall)
    (h : c.sender.retrier.onRetryTimeout now c.options.maximumRetryAttempts = .resend id retry) :
    (step z c (now, .retryTimeout script)).sender =
      { c.sender.resend now id retry with outbox := [] } := by
  have hcall : c.sender.onRetryTimeout (c.env z now) = (false, c.sender.resend now id retry) :=
    Sender.onRetryTimeout_of_resend h
  obtain ⟨probe, hflush⟩ := call_eq z now c .retryTimeout
  rw [step, retryTimeout, hcall, if_neg (by simp), hflush, Sender.call, hcall]

/-- **One step is counted.** -/
theorem counts_step (h : Sender.Counts count c.sender) (input : Timepoint × Input) :
    Sender.Counts (fun n => count n + c.retransmits n input) (step z c input).sender := by
  -- Nothing is sent again.
  have hquiet : (∀ n, c.retransmits n input = 0) →
      Sender.Counts (fun n => count n + c.retransmits n input) (step z c input).sender := by
    intro hzero
    have hcount : (fun n => count n + c.retransmits n input) = count := by
      funext n
      rw [hzero, Nat.add_zero]
    rw [hcount]
    exact (keeps_counts z count).step input.2.within_true input.2.hears_true h
  obtain ⟨now, input⟩ := input
  cases input with
  | retryTimeout script =>
      cases hdecision : c.sender.retrier.onRetryTimeout now c.options.maximumRetryAttempts with
      | wait => exact hquiet fun n => by rw [retransmits, hdecision]
      | fail => exact hquiet fun n => by rw [retransmits, hdecision]
      | resend id retry =>
          have hw := c.sender.retrier.window_of_onRetryTimeout now hdecision
          simp only [retransmits, hdecision]
          rw [step_of_resend script hdecision]
          exact (h.resend hw now).ages (.of_retrier rfl rfl)
  | user | receive | processSchedule | probeTimeout | close => exact hquiet fun n => rfl

/-- **A run is counted.** -/
theorem counts_run (h : Sender.Counts count c.sender) (inputs : List (Timepoint × Input)) :
    Sender.Counts (fun n => count n + retransmissions z n c inputs)
      (run (step z) c inputs).sender := by
  induction inputs generalizing c count with
  | nil => exact h
  | cons input inputs ih =>
      have hrest := ih (counts_step (z := z) h input)
      simp only [Nat.add_assoc] at hrest
      exact hrest

theorem counts_of_started (h : Started z c) : Sender.Counts (fun _ => 0) c.sender :=
  (keeps_counts z _).started (fun _ _ _ _ => ⟨fun k n attempts hk => by
    simp [fresh, Sender.counted] at hk, fun _ _ => rfl⟩) h

/-! ## The limit -/

/-- The limit in force when a retry timeout expires. -/
def InForce (limit : BitVec 16) (c : Connection) : Timepoint × Input → Prop
  | (_, .retryTimeout _) => c.options.maximumRetryAttempts = limit
  | _ => True

/-- What a limit is for.  When a retry falls due for a packet that was sent again `max limit 0`
times, whatever the limit was before, the connection fails; and if the limit is in force all the
time, no packet is sent again more often. -/
def Limited (limit : BitVec 16) : Prop :=
  ∀ (z : Zlib) (c₀ : Connection) (inputs : List (Timepoint × Input)), Started z c₀ →
    (∀ now script id retry,
      (run (step z) c₀ inputs).options.maximumRetryAttempts = limit →
      (run (step z) c₀ inputs).sender.retrier.getNextRetry = some (id, retry) →
      retry.retryAt < now →
      (max limit.toInt 0).toNat ≤ retransmissions z retry.serial c₀ inputs →
        step z (run (step z) c₀ inputs) (now, .retryTimeout script) =
          fail z now (userCalls z now script) .timeout (run (step z) c₀ inputs)) ∧
    (Along (step z) (InForce limit) c₀ inputs →
      ∀ n, retransmissions z n c₀ inputs ≤ (max limit.toInt 0).toNat)

/-- A limit that is not negative is compared as it is. -/
theorem onRetryTimeout_of_nonneg {r : Retrier} (hlimit : 0 ≤ limit.toInt)
    (hnext : r.getNextRetry = some (id, retry)) (hdue : retry.retryAt < now) :
    r.onRetryTimeout now limit =
      if (max limit.toInt 0).toNat ≤ retry.attempts then .fail else .resend id retry := by
  have hlt := BitVec.toInt_lt (x := limit)
  rw [Retrier.onRetryTimeout, hnext]
  dsimp only
  rw [if_pos hdue, max_eq_left hlimit, Int.emod_eq_of_lt hlimit (by omega)]

/-- What is sent again has attempts left. -/
theorem attempts_of_resend {r : Retrier} (hlimit : 0 ≤ limit.toInt)
    (h : r.onRetryTimeout now limit = .resend id retry) :
    retry.attempts < (max limit.toInt 0).toNat := by
  cases hnext : r.getNextRetry with
  | none =>
      rw [Retrier.onRetryTimeout, hnext] at h
      cases h
  | some next =>
      by_cases hdue : next.2.retryAt < now
      · rw [onRetryTimeout_of_nonneg hlimit hnext hdue] at h
        split at h
        · cases h
        next hleft =>
          cases h
          exact not_le.mp hleft
      · rw [Retrier.onRetryTimeout, hnext] at h
        dsimp only at h
        rw [if_neg hdue] at h
        cases h

/-- With a limit that is not negative, and counted attempts, the last expiry fails. -/
theorem step_fails (h : Sender.Counts count c.sender)
    (hlimit : 0 ≤ c.options.maximumRetryAttempts.toInt)
    (hnext : c.sender.retrier.getNextRetry = some (id, retry)) (hdue : retry.retryAt < now)
    (hspent : (max c.options.maximumRetryAttempts.toInt 0).toNat ≤ count retry.serial)
    (script : List UserCall) :
    step z c (now, .retryTimeout script) = fail z now (userCalls z now script) .timeout c := by
  have hcounted : c.sender.counted id = some (retry.serial, retry.attempts) := by
    rw [Sender.counted, c.sender.retrier.window_of_getNextRetry hnext]
    rfl
  have hattempts := (h.entry _ _ _ hcounted).2.2
  have hdecision : c.sender.retrier.onRetryTimeout now c.options.maximumRetryAttempts = .fail := by
    rw [onRetryTimeout_of_nonneg hlimit hnext hdue, if_pos (hspent.trans hattempts)]
  have hfail : c.sender.onRetryTimeout (c.env z now) = (true, c.sender) :=
    Sender.onRetryTimeout_of_fail hdecision
  rw [step, retryTimeout, hfail, if_pos rfl]

/-- A packet that is sent again was not sent again often enough before. -/
theorem count_of_retransmits (h : Sender.Counts count c.sender) (hlimit : 0 ≤ limit.toInt)
    {input : Timepoint × Input} (hforce : c.InForce limit input) {n : ℕ}
    (hcount : count n ≤ (max limit.toInt 0).toNat) :
    count n + c.retransmits n input ≤ (max limit.toInt 0).toNat := by
  obtain ⟨now, input⟩ := input
  cases input with
  | retryTimeout script =>
      have hforce : c.options.maximumRetryAttempts = limit := hforce
      rw [retransmits, hforce]
      split
      next id retry hdecision =>
        split
        next hserial =>
          have hcounted : c.sender.counted id = some (retry.serial, retry.attempts) := by
            rw [Sender.counted, c.sender.retrier.window_of_onRetryTimeout now hdecision]
            rfl
          have hattempts := (h.entry _ _ _ hcounted).2.2
          have hleft := attempts_of_resend hlimit hdecision
          rw [hserial] at hattempts
          omega
        · exact hcount
      · exact hcount
      · exact hcount
  | user | receive | processSchedule | probeTimeout | close => exact hcount

theorem retransmissions_le (hlimit : 0 ≤ limit.toInt) (h : Sender.Counts count c.sender)
    {inputs : List (Timepoint × Input)} (hforce : Along (step z) (InForce limit) c inputs) {n : ℕ}
    (hcount : count n ≤ (max limit.toInt 0).toNat) :
    count n + retransmissions z n c inputs ≤ (max limit.toInt 0).toNat := by
  induction inputs generalizing c count with
  | nil => exact hcount
  | cons input inputs ih =>
      rw [along_cons] at hforce
      rw [retransmissions, ← Nat.add_assoc]
      exact ih (counts_step h input) hforce.2 (count_of_retransmits h hlimit hforce.1 hcount)

/-! ## A limit that is negative -/

/-- A connection with some limit, after `Socket::connect`. -/
def limitedTo (z : Zlib) (limit : BitVec 16) : Connection :=
  connect z 0 none false false
    (fresh 0 1 0 { coalesceReliable := ⟨.packet, 5, -1⟩, coalesceUnreliable := ⟨.packet, 5, -1⟩,
                   probeDelayMS := 30, maximumRetryAttempts := limit })

theorem started_limitedTo (z : Zlib) (limit : BitVec 16) : Started z (limitedTo z limit) :=
  .connected 0 1 0 _ 0 none false false

/-- The window of the connection, in which H0 waits. -/
theorem retrier_limitedTo (z : Zlib) (limit : BitVec 16) :
    (limitedTo z limit).options.maximumRetryAttempts = limit ∧
      (limitedTo z limit).sender.retrier =
        (({} : Sender).sendReliably 0 { header := { type := TypeID.h0 } }).retrier := by
  exact ⟨rfl, rfl⟩

/-- A negative limit is more than any packet has been sent again. -/
theorem onRetryTimeout_of_neg {r : Retrier} (hlimit : limit.toInt < 0)
    (hnext : r.getNextRetry = some (id, retry)) (hdue : retry.retryAt < now)
    (hattempts : retry.attempts < 2 ^ 63) : r.onRetryTimeout now limit = .resend id retry := by
  have hlt := BitVec.le_toInt (x := limit)
  rw [Retrier.onRetryTimeout, hnext]
  dsimp only
  rw [if_pos hdue, if_neg (by omega)]

/-- **A limit bounds how often a packet is sent again** exactly if it is not negative. -/
theorem limited_iff (limit : BitVec 16) : Limited limit ↔ 0 ≤ limit.toInt := by
  constructor
  · intro h
    by_contra hlimit
    -- The only expiry of the run sends H0 again, although no packet may be.
    let z : Zlib := ⟨fun _ _ _ => none, fun _ _ => []⟩
    obtain ⟨hoptions, hretrier⟩ := retrier_limitedTo z limit
    have hnext : (({} : Sender).sendReliably 0
        { header := { type := TypeID.h0 } }).retrier.getNextRetry =
          some (0, { paths := ⟨⟨{ header := { type := TypeID.h0 } }, none⟩, none⟩
                     sentAt := 0, retryAt := milliseconds 2030 }) := by decide +kernel
    have htotal := (h z (limitedTo z limit) [(milliseconds 2031, .retryTimeout [])]
      (started_limitedTo z limit)).2 ⟨hoptions, trivial⟩ 0
    rw [retransmissions, retransmissions, retransmits, hoptions, hretrier,
      onRetryTimeout_of_neg (not_le.mp hlimit) hnext (by decide) (by decide),
      max_eq_right (not_le.mp hlimit).le] at htotal
    exact absurd htotal (by decide)
  · intro hlimit z c₀ inputs hstarted
    have hcounts := counts_run (z := z) (counts_of_started hstarted) inputs
    simp only [Nat.zero_add] at hcounts
    refine ⟨fun now script id retry hforce hnext hdue hspent => ?_, fun hforce n => ?_⟩
    · rw [← hforce] at hlimit hspent
      exact step_fails hcounts hlimit hnext hdue hspent script
    · have hle := retransmissions_le hlimit (counts_of_started hstarted) hforce (n := n)
        (Nat.zero_le _)
      rwa [Nat.zero_add] at hle

/-- **A packet that is sent again without end.**  The user sets the limit to `-1`; the packet H0,
which may not be sent again at all then, is sent again at each of four expiries. -/
theorem resent_without_limit :
    let z : Zlib := ⟨fun _ _ _ => none, fun _ _ => []⟩
    let options : ConnectionOptions :=
      { coalesceReliable := ⟨.packet, 5, -1⟩, coalesceUnreliable := ⟨.packet, 5, -1⟩,
        probeDelayMS := 30, maximumRetryAttempts := -1 }
    let inputs : List (Timepoint × Input) :=
      [(milliseconds 1, .user (.setOptions options)), (milliseconds 2100, .retryTimeout []),
        (milliseconds 4200, .retryTimeout []), (milliseconds 6300, .retryTimeout []),
        (milliseconds 8400, .retryTimeout [])]
    Started z (limitedTo z 2) ∧ options.maximumRetryAttempts.toInt = -1 ∧
      retransmissions z 0 (limitedTo z 2) inputs = 4 ∧
      (run (step z) (limitedTo z 2) inputs).closed = false := by
  exact ⟨started_limitedTo _ 2, by decide, by decide +kernel, by decide +kernel⟩

end Connection
end MrUDP
