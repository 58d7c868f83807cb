import MrUDP.Connection.Connection

/-!
# The timer of the probe

Every packet sent or received moves the time of the next probe.  The timer is moved with it only if
it would come too late; otherwise it is left as it is, and `Probe::onTimeout` registers it again.
Here the probe runs by itself, under any intervals: what it computes them from is the matter of
`MrUDP.Connection.ProbeInterval`.

The times need not be in order for any of this.

## Main definitions

* `Probe.onWith`, `Probe.onTimeout`: the two methods, for a given interval.
* `Probe.Timed`: a probe, and the latest event it was told of.
* `Probe.Op`, `Probe.Timed.step`: what can happen to it.
* `Probe.Timed.Armed`: the timer goes off in time for the next probe.
-/

namespace MrUDP
namespace Probe

/-! ## The methods for a given interval -/

/-- `Probe::on`, when the interval is `interval`. -/
def onWith (p : Probe) (interval : ℤ) (now : Timepoint) : Probe :=
  let p := { p with probeInterval := interval }
  p.registerTimeout (now + milliseconds p.probeInterval)

theorem on_eq (p : Probe) (options : ConnectionOptions) (now : Timepoint) :
    p.on options now = p.onWith (calculateInterval options) now := rfl

/-- `Probe::onTimeout`, as far as the probe is concerned, and whether it sends a packet or fails the
connection. -/
def onTimeout (p : Probe) (interval : ℤ) (now : Timepoint) : Bool × Probe :=
  if p.status = .closed then (false, p)
  else
    let nextProbe := p.nextProbeTime
    let p := { p with isRegistered := false }
    if nextProbe < now then (true, p.onWith interval now)
    else (false, p.registerTimeout nextProbe)

/-- The timeout of a connection's probe is that of the probe, and what follows when it is due. -/
theorem probeTimeout_eq (z : Zlib) (now : Timepoint) (react : Connection → Connection)
    (c : Connection) :
    c.probeTimeout z now react =
      match c.probe.onTimeout (calculateInterval c.options) now with
      | (false, probe) => { c with probe := probe }
      | (true, probe) =>
          if c.sender.status = .open then
            { c with probe := probe }.sendReliably z now { header := { type := TypeID.probe } }
          else Connection.fail z now react .timeout { c with probe := probe } := by
  rw [Connection.probeTimeout, onTimeout]
  by_cases hclosed : c.probe.status = .closed
  · rw [if_pos hclosed, if_pos hclosed]
  · rw [if_neg hclosed, if_neg hclosed]
    by_cases hdue : c.probe.nextProbeTime < now
    · simp only [if_pos hdue, on_eq]
    · simp only [if_neg hdue]

/-! ## Runs -/

/-- A probe, and the latest start, send, receive or probe it was told of: when that was, and the
interval computed then. -/
structure Timed where
  probe : Probe := {}
  latest : Option (Timepoint × ℤ) := none
  deriving DecidableEq, Repr

/-- What can happen to a probe, when, and the interval there is then. -/
inductive Op
  | onStart (now : Timepoint) (interval : ℤ)
  | onSend (now : Timepoint) (interval : ℤ)
  | onReceive (now : Timepoint) (interval : ℤ)
  /-- The scheduler takes the timeout out of its queue and calls it. -/
  | expire (now : Timepoint) (interval : ℤ)
  | close
  deriving DecidableEq, Repr

namespace Timed

/-- Something was sent or received. -/
def event (s : Timed) (now : Timepoint) (interval : ℤ) : Timed :=
  ⟨s.probe.onWith interval now, some (now, interval)⟩

/-- The timer goes off.  One that is not armed does not. -/
def expire (s : Timed) (now : Timepoint) (interval : ℤ) : Timed :=
  match s.probe.timeout with
  | none => s
  | some _ =>
      match { s.probe with timeout := none }.onTimeout interval now with
      | (true, probe) => ⟨probe, some (now, interval)⟩
      | (false, probe) => ⟨probe, s.latest⟩

/-- One thing happens. -/
def step (s : Timed) : Op → Timed
  | .onStart now interval => s.event now interval
  | .onSend now interval => s.event now interval
  | .onReceive now interval => s.event now interval
  | .expire now interval => s.expire now interval
  | .close => { s with probe := s.probe.close }

/-- The timer of a probe that is not closed is registered for a time no later than the next probe,
which is due an interval after the latest event. -/
structure Armed (s : Timed) : Prop where
  isRegistered : s.probe.isRegistered = true
  timeout : ∃ at_, s.probe.timeout = some at_ ∧ at_ ≤ s.probe.nextProbeTime
  nextProbeTime : ∃ now interval, s.latest = some (now, interval) ∧
    s.probe.nextProbeTime = now + milliseconds interval

/-- Before the first event nothing is registered; after it, the timer of an open probe is armed. -/
def Inv (s : Timed) : Prop :=
  (s.latest = none ∧ s.probe.isRegistered = false ∧ s.probe.timeout = none) ∨
    (s.latest.isSome = true ∧ (s.probe.status = .open → s.Armed))

end Timed

/-! ## One step -/

/-- A registered timeout goes off no later than it should, whether it was moved or left. -/
theorem timeout_registerTimeout {p : Probe} (at_ : Timepoint)
    (h : p.isRegistered = true → ∃ t, p.timeout = some t ∧ t ≤ p.nextProbeTime) :
    ∃ t, (p.registerTimeout at_).timeout = some t ∧ t ≤ at_ := by
  rw [registerTimeout]
  by_cases hset : (decide (at_ < p.nextProbeTime) || !p.isRegistered) = true
  · exact ⟨at_, if_pos hset, le_refl _⟩
  · obtain ⟨hlate, hregistered⟩ : p.nextProbeTime ≤ at_ ∧ p.isRegistered = true := by
      simpa using hset
    obtain ⟨t, htimeout, ht⟩ := h hregistered
    exact ⟨t, (if_neg hset).trans htimeout, ht.trans hlate⟩

theorem isRegistered_registerTimeout (p : Probe) (at_ : Timepoint) :
    (p.registerTimeout at_).isRegistered = true := by
  rw [registerTimeout]
  cases p.isRegistered <;> simp

namespace Timed

/-- An event arms the timer, whatever there was. -/
theorem armed_event {s : Timed}
    (h : s.probe.isRegistered = true → ∃ t, s.probe.timeout = some t ∧ t ≤ s.probe.nextProbeTime)
    (now : Timepoint) (interval : ℤ) : (s.event now interval).Armed where
  isRegistered := isRegistered_registerTimeout _ _
  timeout := timeout_registerTimeout _ h
  nextProbeTime := ⟨now, interval, rfl, rfl⟩

/-- What the invariant says of a registered timer of an open probe. -/
theorem Inv.timeout {s : Timed} (h : s.Inv) (hopen : s.probe.status = .open)
    (hregistered : s.probe.isRegistered = true) :
    ∃ t, s.probe.timeout = some t ∧ t ≤ s.probe.nextProbeTime := by
  rcases h with ⟨_, hnot, _⟩ | ⟨_, harmed⟩
  · rw [hnot] at hregistered
    exact absurd hregistered (by decide)
  · exact (harmed hopen).timeout

theorem Inv.event {s : Timed} (h : s.Inv) (now : Timepoint) (interval : ℤ) :
    (s.event now interval).Inv :=
  .inr ⟨rfl, fun hopen => armed_event (h.timeout hopen) now interval⟩

/-- An expiry uses the timer up, and registers it again: an interval from now if the probe was due,
and for the time it is due if it was not. -/
theorem Inv.expire {s : Timed} (h : s.Inv) (now : Timepoint) (interval : ℤ) :
    (s.expire now interval).Inv := by
  rw [Timed.expire]
  split
  · exact h
  next htimeout =>
    obtain ⟨hlatest, harmed⟩ : s.latest.isSome = true ∧ (s.probe.status = .open → s.Armed) := by
      rcases h with ⟨_, _, hnone⟩ | h
      · rw [hnone] at htimeout
        exact absurd htimeout (by simp)
      · exact h
    rw [onTimeout]
    dsimp only
    by_cases hclosed : s.probe.status = .closed
    · rw [if_pos hclosed]
      refine .inr ⟨hlatest, fun hopen => ?_⟩
      rw [hclosed] at hopen
      exact absurd hopen (by decide)
    · rw [if_neg hclosed]
      have hopen : s.probe.status = .open := by
        cases hstatus : s.probe.status with
        | «open» => rfl
        | closed => exact absurd hstatus hclosed
      by_cases hdue : s.probe.nextProbeTime < now
      · rw [if_pos hdue]
        refine .inr ⟨rfl, fun _ => ?_⟩
        exact armed_event (s := ⟨{ s.probe with timeout := none, isRegistered := false }, none⟩)
          (fun hregistered => absurd hregistered (by simp)) now interval
      · rw [if_neg hdue]
        refine .inr ⟨hlatest, fun _ => ?_⟩
        exact {
          isRegistered := isRegistered_registerTimeout _ _
          timeout := timeout_registerTimeout _ fun hregistered => absurd hregistered (by simp)
          nextProbeTime := (harmed hopen).nextProbeTime }

/-- **One step keeps the invariant.** -/
theorem Inv.step {s : Timed} (h : s.Inv) (op : Op) : (s.step op).Inv := by
  cases op with
  | onStart now interval => exact h.event now interval
  | onSend now interval => exact h.event now interval
  | onReceive now interval => exact h.event now interval
  | expire now interval => exact h.expire now interval
  | close =>
      rcases h with h | ⟨hlatest, _⟩
      · exact .inl h
      · refine .inr ⟨hlatest, fun hopen => ?_⟩
        exact absurd hopen (by simp [Timed.step, Probe.close])

theorem Inv.run (ops : List Op) : (Machine.run Timed.step {} ops).Inv :=
  Machine.run_invariant_of_step Inv (fun _ op h => h.step op) (.inl ⟨rfl, rfl, rfl⟩) ops

/-- What was told of an event remains told. -/
theorem isSome_latest_step {s : Timed} (h : s.latest.isSome = true) (op : Op) :
    (s.step op).latest.isSome = true := by
  cases op with
  | onStart now interval => rfl
  | onSend now interval => rfl
  | onReceive now interval => rfl
  | close => exact h
  | expire now interval =>
      rw [Timed.step, Timed.expire]
      split
      · exact h
      · split
        · rfl
        · exact h

theorem isSome_latest_of_mem {ops : List Op} {now : Timepoint} {interval : ℤ}
    (h : .onStart now interval ∈ ops) (s : Timed) :
    (Machine.run Timed.step s ops).latest.isSome = true := by
  obtain ⟨before, after, rfl⟩ := List.append_of_mem h
  rw [Machine.run_append, Machine.run_cons]
  exact Machine.run_invariant_of_step (fun s : Timed => s.latest.isSome = true)
    (fun _ op h => isSome_latest_step h op) rfl after

end Timed

/-! ## The timer is never lost, and a probe is never early -/

/-- A timeout does more than register the timer only once the time of the next probe has passed. -/
theorem onTimeout_fst (p : Probe) (interval : ℤ) (now : Timepoint) :
    (p.onTimeout interval now).1 = true ↔ p.status = .open ∧ p.nextProbeTime < now := by
  rw [onTimeout]
  cases hstatus : p.status with
  | closed => simp
  | «open» =>
      by_cases hdue : p.nextProbeTime < now
      · simp [hdue]
      · simp [hdue]

/-- **The timer of the probe.**  However a probe that was started got here, if it is open then its
timer is registered for a time no later than the next probe, and the next probe is due an interval
after the latest event.  When the timer goes off, a packet is sent or the connection fails exactly
if it is later than that; otherwise nothing but the probe changes in the connection. -/
theorem probe_timer (ops : List Op) (hstarted : ∃ now interval, .onStart now interval ∈ ops)
    (hopen : (Machine.run Timed.step {} ops).probe.status = .open) :
    (Machine.run Timed.step {} ops).probe.isRegistered = true ∧
    (∃ at_, (Machine.run Timed.step {} ops).probe.timeout = some at_ ∧
      at_ ≤ (Machine.run Timed.step {} ops).probe.nextProbeTime) ∧
    ∃ now interval, (Machine.run Timed.step {} ops).latest = some (now, interval) ∧
      (Machine.run Timed.step {} ops).probe.nextProbeTime = now + milliseconds interval ∧
      (∀ interval' now', ((Machine.run Timed.step {} ops).probe.onTimeout interval' now').1 = true ↔
        now + milliseconds interval < now') ∧
      ∀ (z : Zlib) (react : Connection → Connection) (c : Connection) (now' : Timepoint),
        c.probe = (Machine.run Timed.step {} ops).probe → now' ≤ now + milliseconds interval →
        c.probeTimeout z now' react =
          { c with probe := (c.probe.onTimeout (calculateInterval c.options) now').2 } := by
  obtain ⟨startTime, startInterval, hmem⟩ := hstarted
  have hlatest := Timed.isSome_latest_of_mem hmem {}
  have hinv := Timed.Inv.run ops
  generalize Machine.run Timed.step {} ops = s at hopen hlatest hinv ⊢
  have harmed : s.Armed := by
    rcases hinv with ⟨hnone, _⟩ | ⟨_, harmed⟩
    · rw [hnone] at hlatest
      exact absurd hlatest (by decide)
    · exact harmed hopen
  obtain ⟨now, interval, hevent, hnext⟩ := harmed.nextProbeTime
  have hfires : ∀ interval' now', (s.probe.onTimeout interval' now').1 = true ↔
      now + milliseconds interval < now' := by
    intro interval' now'
    rw [onTimeout_fst, hnext]
    exact ⟨fun h => h.2, fun h => ⟨hopen, h⟩⟩
  refine ⟨harmed.isRegistered, harmed.timeout, now, interval, hevent, hnext, hfires, ?_⟩
  intro z react c now' hprobe hearly
  have hquiet : (c.probe.onTimeout (calculateInterval c.options) now').1 = false := by
    rw [hprobe, ← Bool.not_eq_true, hfires]
    exact not_lt.mpr hearly
  rw [probeTimeout_eq]
  split
  next hrun => rw [hrun]
  next hrun =>
    rw [hrun] at hquiet
    exact absurd hquiet.symm Bool.false_ne_true

/-- The deadline moves later, the stale timer goes off and is registered again, the interval shrinks
and the timer is moved. -/
theorem probe_timer_stale :
    (Machine.run Timed.step {} [.onStart 0 10, .onReceive 5000000 100, .expire 10000001 100,
      .onSend 11000000 1]).probe.isRegistered = true ∧
    (Machine.run Timed.step {} [.onStart 0 10, .onReceive 5000000 100, .expire 10000001 100,
      .onSend 11000000 1]).probe.timeout = some 12000000 :=
  ⟨(probe_timer [.onStart 0 10, .onReceive 5000000 100, .expire 10000001 100, .onSend 11000000 1]
    ⟨0, 10, List.mem_cons_self⟩ (by decide)).1, by decide⟩

end Probe
end MrUDP
