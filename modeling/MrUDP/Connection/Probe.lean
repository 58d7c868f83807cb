import MrUDP.Sender.Retrier

/-!
# The probe

`mrudp/connection/Probe.cpp`.  When nothing was sent or received for the probe interval,
the connection sends a packet that only asks for an acknowledgement.  The timeout of the
probe itself is a method of the connection, because it may fail it.

## Main definitions

* `Probe.calculateInterval`: the interval, from the options.
* `Probe.on`: something was sent or received.
-/

namespace MrUDP

/-- `Probe`. -/
structure Probe where
  status : OpenStatus := .open
  nextProbeTime : Timepoint := 0
  probeInterval : ℤ := 0
  isRegistered : Bool := false
  timeout : Option Timepoint := none
  deriving DecidableEq, Repr

namespace Probe

/-- The loop of `Probe::recalculateProbeTimeout`: the retries that come before a probe. -/
def retryDurations (fp : Arithmetic) : ℕ → ℚ → ℚ → ℚ
  | 0, _, timeout => timeout
  | n + 1, rtt, timeout =>
      let rtt := RTT.calculate rtt RTT.maximum fp
      retryDurations fp n rtt (fp.single (timeout + Retrier.calculateRetryDuration rtt fp))

/-- `Probe::recalculateProbeTimeout`.  `maximumAttempts` of the retrier refers to the
options of the connection.  The delay is added as a `double`. -/
def calculateInterval (options : ConnectionOptions) (fp : Arithmetic := .ieee) : ℤ :=
  let rtt := RTT.minimum fp
  let numAttemptsBeforeProbe := (options.maximumRetryAttempts.toInt + 1).tdiv 2
  let timeout :=
    retryDurations fp numAttemptsBeforeProbe.toNat rtt (Retrier.calculateRetryDuration rtt fp)
  let delay := options.probeDelayMS.toInt
  toDuration
    (if 0 < delay then fp.single (fp.double (timeout + fp.double (delay / 1000))) else timeout) fp

/-- `Probe::registerTimeout`. -/
def registerTimeout (p : Probe) (at_ : Timepoint) : Probe :=
  let set := decide (at_ < p.nextProbeTime) || !p.isRegistered
  { p with
    nextProbeTime := at_
    isRegistered := p.isRegistered || set
    timeout := if set then some at_ else p.timeout }

/-- `Probe::on`, which `onStart`, `onSend`, `onReceive` and `onProbe` all are. -/
def on (p : Probe) (options : ConnectionOptions) (now : Timepoint) : Probe :=
  let p := { p with probeInterval := calculateInterval options }
  p.registerTimeout (now + milliseconds p.probeInterval)

/-- `Probe::close`. -/
def close (p : Probe) : Probe := { p with status := .closed }

end Probe
end MrUDP
