import MrUDP.Connection.Probe

/-!
# The probe comes before the peer gives up

`Probe::recalculateProbeTimeout` of `mrudp/connection/Probe.cpp` chooses the interval after which a
silent connection probes its peer, and `Retrier::onRetryTimeout` of `mrudp/sender/Retrier.cpp`
decides how long the peer waits for an acknowledgement before it fails the connection.  Both add up
retry durations, with a round trip time that gets worse after every failure.  The probe starts from
the least round trip time there is, and adds up about half as many.

The comparison is one of exact arithmetic: every definition is taken without rounding here.

## Main definitions

* `RTT.wait`: how long a packet waits after some failures.
* `Probe.exactInterval`: the interval of the probe before it is cut to milliseconds.
* `Retrier.waitUntilFailure`: how long a packet that is never acknowledged keeps the connection.
-/

namespace MrUDP

/-! ## The round trip time after failures -/

namespace RTT

theorem calculate_mono {duration duration' : ℚ} (h : duration ≤ duration') (sample : ℚ) :
    calculate duration sample .exact ≤ calculate duration' sample .exact := by
  have hweight : a .exact * duration ≤ a .exact * duration' :=
    mul_le_mul_of_nonneg_left h (by norm_num [a, Arithmetic.exact])
  exact min_le_min_left _ (max_le_max_left _ (add_le_add_left hweight _))

theorem minimum_le_calculate (duration sample : ℚ) :
    minimum .exact ≤ calculate duration sample .exact :=
  le_min (by norm_num [minimum, maximum, Arithmetic.exact]) (le_max_left _ _)

/-- The round trip time after a number of failures. -/
def failed (rtt : ℚ) : ℕ → ℚ
  | 0 => rtt
  | i + 1 => failed (calculate rtt maximum .exact) i

/-- The estimate after a number of calls of `RTTSimple::onAckFailure`. -/
theorem duration_onAckFailure (rtt : RTT) (i : ℕ) :
    ((onAckFailure · .exact)^[i] rtt).duration = failed rtt.duration i := by
  induction i generalizing rtt with
  | zero => rfl
  | succ i ih =>
      rw [Function.iterate_succ_apply, ih]
      rfl

theorem failed_mono {rtt rtt' : ℚ} (h : rtt ≤ rtt') (i : ℕ) : failed rtt i ≤ failed rtt' i := by
  induction i generalizing rtt rtt' with
  | zero => exact h
  | succ i ih => exact ih (calculate_mono h maximum)

theorem minimum_le_failed {rtt : ℚ} (h : minimum .exact ≤ rtt) (i : ℕ) :
    minimum .exact ≤ failed rtt i := by
  induction i generalizing rtt with
  | zero => exact h
  | succ i ih => exact ih (minimum_le_calculate rtt maximum)

/-- How long a packet waits after a number of failures. -/
def wait (rtt : ℚ) (i : ℕ) : ℚ := Retrier.calculateRetryDuration (failed rtt i) .exact

theorem wait_mono {rtt rtt' : ℚ} (h : rtt ≤ rtt') (i : ℕ) : wait rtt i ≤ wait rtt' i := by
  have hfailed := failed_mono h i
  simp only [wait, Retrier.calculateRetryDuration, Arithmetic.exact, id]
  linarith

/-- No wait is shorter than forty milliseconds. -/
theorem le_wait {rtt : ℚ} (h : minimum .exact ≤ rtt) (i : ℕ) : 4 / 100 ≤ wait rtt i := by
  have hfailed := minimum_le_failed h i
  simp only [minimum, wait, Retrier.calculateRetryDuration, Arithmetic.exact, id] at hfailed ⊢
  linarith

/-- The waits after the first one. -/
theorem sum_wait_succ (rtt : ℚ) (n : ℕ) :
    ∑ i ∈ Finset.range (n + 1), wait rtt i =
      Retrier.calculateRetryDuration rtt .exact +
        ∑ i ∈ Finset.range n, wait (calculate rtt maximum .exact) i := by
  rw [Finset.sum_range_succ', add_comm]
  rfl

end RTT

/-! ## The two sides -/

namespace Probe

/-- `timeout` in `Probe::recalculateProbeTimeout`. -/
def exactInterval (options : ConnectionOptions) : ℚ :=
  let rtt := RTT.minimum .exact
  let numAttemptsBeforeProbe := (options.maximumRetryAttempts.toInt + 1).tdiv 2
  let timeout :=
    retryDurations .exact numAttemptsBeforeProbe.toNat rtt
      (Retrier.calculateRetryDuration rtt .exact)
  let delay := options.probeDelayMS.toInt
  if 0 < delay then timeout + delay / 1000 else timeout

theorem calculateInterval_eq (options : ConnectionOptions) :
    calculateInterval options .exact = toDuration (exactInterval options) .exact := rfl

theorem retryDurations_eq (n : ℕ) (rtt timeout : ℚ) :
    retryDurations .exact n rtt timeout =
      timeout + ∑ i ∈ Finset.range n, RTT.wait (RTT.calculate rtt RTT.maximum .exact) i := by
  induction n generalizing rtt timeout with
  | zero => simp [retryDurations]
  | succ n ih =>
      rw [retryDurations, ih, RTT.sum_wait_succ, ← add_assoc]
      rfl

/-- The number of waits the probe adds up. -/
def waits (options : ConnectionOptions) : ℕ :=
  ((options.maximumRetryAttempts.toInt + 1).tdiv 2).toNat + 1

variable {options : ConnectionOptions}

/-- Without a delay, the interval is a sum of waits. -/
theorem exactInterval_eq (hdelay : options.probeDelayMS.toInt ≤ 0) :
    exactInterval options =
      ∑ i ∈ Finset.range (waits options), RTT.wait (RTT.minimum .exact) i := by
  rw [exactInterval, if_neg (not_lt.mpr hdelay), retryDurations_eq, waits, RTT.sum_wait_succ]

theorem exactInterval_nonneg (hdelay : options.probeDelayMS.toInt ≤ 0) :
    0 ≤ exactInterval options := by
  rw [exactInterval_eq hdelay]
  exact Finset.sum_nonneg fun i _ => by linarith [RTT.le_wait (le_refl (RTT.minimum .exact)) i]

/-- A peer with a longer round trip time waits longer. -/
theorem exactInterval_le (hdelay : options.probeDelayMS.toInt ≤ 0) {rtt : ℚ}
    (hminimum : RTT.minimum .exact ≤ rtt) :
    exactInterval options ≤ ∑ i ∈ Finset.range (waits options), RTT.wait rtt i := by
  rw [exactInterval_eq hdelay]
  exact Finset.sum_le_sum fun i _ => RTT.wait_mono hminimum i

/-- The probe adds up fewer waits than there are before a failure. -/
theorem waits_lt (hlimit : 2 ≤ options.maximumRetryAttempts.toInt) :
    waits options < options.maximumRetryAttempts.toInt.toNat + 1 := by
  rw [waits, Int.tdiv_eq_ediv_of_nonneg (by omega)]
  omega

end Probe

namespace Retrier

/-- How long `Retrier::onRetryTimeout` waits for the acknowledgement of a packet that is sent now,
and was sent again so many times before, until it fails the connection. -/
def waitUntilFailure (maximumAttempts : BitVec 16) : ℕ → ℕ → RTT → Option ℚ
  | 0, _, _ => none
  | fuel + 1, attempts, rtt =>
      let interval := calculateRetryDuration rtt.duration .exact
      if (maximumAttempts.toInt % 2 ^ 64).toNat ≤ attempts then some interval
      else
        (waitUntilFailure maximumAttempts fuel (attempts + 1) (rtt.onAckFailure .exact)).map
          (interval + ·)

/-- It waits once more than the packet may still be sent again. -/
theorem waitUntilFailure_eq {maximumAttempts : BitVec 16} (hlimit : 0 ≤ maximumAttempts.toInt)
    {left attempts fuel : ℕ} (hattempts : attempts + left = maximumAttempts.toInt.toNat)
    (hfuel : left < fuel) (rtt : RTT) :
    waitUntilFailure maximumAttempts fuel attempts rtt =
      some (∑ i ∈ Finset.range (left + 1), RTT.wait rtt.duration i) := by
  have hlt := BitVec.toInt_lt (x := maximumAttempts)
  induction left generalizing attempts fuel rtt with
  | zero =>
      obtain ⟨fuel, rfl⟩ : ∃ n, fuel = n + 1 := ⟨fuel - 1, by omega⟩
      rw [waitUntilFailure, if_pos (by omega), Finset.sum_range_one]
      rfl
  | succ left ih =>
      obtain ⟨fuel, rfl⟩ : ∃ n, fuel = n + 1 := ⟨fuel - 1, by omega⟩
      rw [waitUntilFailure, if_neg (by omega), ih (by omega) (by omega), Option.map_some,
        RTT.sum_wait_succ _ (left + 1)]
      rfl

end Retrier

namespace Probe

/-- Cutting to milliseconds adds nothing. -/
theorem toDuration_le {v : ℚ} (h : 0 ≤ v) :
    (toDuration v .exact : ℚ) ≤ v * 1000 := by
  have hms : ¬ Arithmetic.exact.single (v * 1000) < 0 :=
    not_lt.mpr (mul_nonneg h (by norm_num))
  rw [toDuration, if_neg hms]
  exact Int.floor_le (v * 1000)

/-- **The probe comes before the peer gives up.**  With at least two retries, no delay and any round
trip time of the peer, the interval of the probe is less than the time the peer waits for a packet
that is never acknowledged, which is the sum of the waits. -/
theorem calculateInterval_lt_waitUntilFailure (options : ConnectionOptions)
    (hlimit : 2 ≤ options.maximumRetryAttempts.toInt) (hdelay : options.probeDelayMS.toInt ≤ 0)
    (rtt : RTT) (hminimum : RTT.minimum .exact ≤ rtt.duration) :
    (calculateInterval options .exact : ℚ) / 1000 ≤ exactInterval options ∧
      exactInterval options <
        ∑ i ∈ Finset.range (options.maximumRetryAttempts.toInt.toNat + 1),
          Retrier.calculateRetryDuration ((RTT.onAckFailure · .exact)^[i] rtt).duration .exact ∧
      ∀ fuel > options.maximumRetryAttempts.toInt.toNat,
        Retrier.waitUntilFailure options.maximumRetryAttempts fuel 0 rtt =
          some (∑ i ∈ Finset.range (options.maximumRetryAttempts.toInt.toNat + 1),
            Retrier.calculateRetryDuration
              ((RTT.onAckFailure · .exact)^[i] rtt).duration .exact) := by
  have hwait : ∑ i ∈ Finset.range (options.maximumRetryAttempts.toInt.toNat + 1),
      Retrier.calculateRetryDuration ((RTT.onAckFailure · .exact)^[i] rtt).duration .exact =
        ∑ i ∈ Finset.range (options.maximumRetryAttempts.toInt.toNat + 1),
          RTT.wait rtt.duration i :=
    Finset.sum_congr rfl fun i _ => by rw [RTT.duration_onAckFailure, RTT.wait]
  rw [hwait]
  refine ⟨?_, ?_, fun fuel hfuel =>
    Retrier.waitUntilFailure_eq (by omega) (Nat.zero_add _) hfuel rtt⟩
  · rw [calculateInterval_eq]
    linarith [toDuration_le (exactInterval_nonneg hdelay)]
  · have hlt := waits_lt hlimit
    -- The peer waits at least once more, and every wait is positive.
    have hpos : ∀ i, 0 < RTT.wait rtt.duration i := fun i =>
      lt_of_lt_of_le (by norm_num) (RTT.le_wait hminimum i)
    calc exactInterval options
        ≤ ∑ i ∈ Finset.range (waits options), RTT.wait rtt.duration i :=
          exactInterval_le hdelay hminimum
      _ < ∑ i ∈ Finset.range (options.maximumRetryAttempts.toInt.toNat + 1),
            RTT.wait rtt.duration i :=
          Finset.sum_lt_sum_of_subset (Finset.range_subset_range.mpr hlt.le)
            (Finset.mem_range.mpr hlt) Finset.notMem_range_self (hpos _) fun i _ _ => (hpos i).le

/-- Two retries, and a peer with the least round trip time: 279 milliseconds and 697.1. -/
theorem calculateInterval_lt_twoRetries :
    let options : ConnectionOptions :=
      { coalesceReliable := ⟨.packet, 5, -1⟩, coalesceUnreliable := ⟨.packet, 5, -1⟩,
        probeDelayMS := -1, maximumRetryAttempts := 2 }
    (calculateInterval options .exact : ℚ) / 1000 <
      ∑ i ∈ Finset.range (options.maximumRetryAttempts.toInt.toNat + 1),
        Retrier.calculateRetryDuration
          ((RTT.onAckFailure · .exact)^[i] ⟨RTT.minimum .exact⟩).duration .exact := by
  have h := calculateInterval_lt_waitUntilFailure
    { coalesceReliable := ⟨.packet, 5, -1⟩, coalesceUnreliable := ⟨.packet, 5, -1⟩,
      probeDelayMS := -1, maximumRetryAttempts := 2 } (by decide) (by decide)
    ⟨RTT.minimum .exact⟩ le_rfl
  exact lt_of_le_of_lt h.1 h.2.1

end Probe
end MrUDP
