import MrUDP.Connection.Moves
import MrUDP.Connection.Outstanding
import MrUDP.Connection.Retransmissions
import MrUDP.Sender.RetryTimer

/-!
# A peer that has fallen silent

Nothing is received any more.  The probe is the first to notice: its timer is armed in every state a
connection can reach, and when the probe is due a packet is put into the window, or the connection
fails.  From then on the retrier counts.  As nothing is acknowledged, the retry that comes next
stays the same one whatever else is sent, and when it has been due once more than
`maximum_retry_attempts`, the connection has failed.

The identifiers of the packets must not wrap meanwhile: a packet with a small identifier would come
first, with all its attempts left.

## Main definitions

* `Connection.Failed`: what `Connection::fail` leaves behind.
* `Probe.Armed`: the timer of the probe goes off in time.
* `Sender.Persists`: the retry that comes next stays the next one.
* `Connection.Input.Silent`: what can happen when nothing is received.
* `Connection.expiries`: how often the retry timer finds a retry that is due.
-/

namespace MrUDP
open Machine
open Std (ExtTreeMap)

/-! ## The probe -/

namespace Probe

/-- The timer is registered for a time no later than the next probe. -/
def Armed (p : Probe) : Prop :=
  p.isRegistered = true ∧ ∃ at_, p.timeout = some at_ ∧ at_ ≤ p.nextProbeTime

theorem armed_registerTimeout {p : Probe} (at_ : Timepoint) (h : p.isRegistered = true → p.Armed) :
    (p.registerTimeout at_).Armed :=
  ⟨isRegistered_registerTimeout p at_,
    timeout_registerTimeout at_ fun hregistered => (h hregistered).2⟩

theorem armed_on {p : Probe} (options : ConnectionOptions) (now : Timepoint)
    (h : p.isRegistered = true → p.Armed) : (p.on options now).Armed :=
  armed_registerTimeout _ h

theorem armed_onTimeout {p : Probe} (hopen : p.status = .open) (interval : ℤ) (now : Timepoint) :
    (p.onTimeout interval now).2.Armed := by
  have hfresh : ∀ q : Probe, q.isRegistered = false → ∀ at_, (q.registerTimeout at_).Armed := by
    intro q hq at_
    refine armed_registerTimeout at_ fun hregistered => ?_
    rw [hq] at hregistered
    cases hregistered
  have hclosed : ¬ p.status = .closed := by rw [hopen]; decide
  rw [onTimeout, if_neg hclosed]
  dsimp only
  split
  · exact hfresh _ rfl _
  · exact hfresh _ rfl _

theorem status_onTimeout (p : Probe) (interval : ℤ) (now : Timepoint) :
    (p.onTimeout interval now).2.status = p.status := by
  rw [onTimeout]
  split
  · rfl
  · dsimp only
    split <;> rfl

end Probe

namespace Connection

/-- The packets that go out are all the probe hears of when the outbox is flushed. -/
theorem probe_flush {Q : Probe → Prop} (now : Timepoint) (c : Connection)
    (hon : ∀ p, Q p → Q (p.on c.options now)) (h : Q c.probe) : Q (c.flush now).probe := by
  have hfold : ∀ (ts : List Transmission) (d : Connection), d.options = c.options → Q d.probe →
      Q (ts.foldl (transmit now) d).probe := by
    intro ts
    induction ts with
    | nil => exact fun d _ hd => hd
    | cons t ts ih =>
        intro d hoptions hd
        rw [List.foldl_cons, transmit_eq]
        refine ih _ hoptions ?_
        rw [hoptions]
        exact hon _ hd
  exact hfold _ _ rfl h

theorem status_probe_call (z : Zlib) (now : Timepoint) (c : Connection) (call : SenderCall) :
    (c.call z now call).probe.status = c.probe.status :=
  probe_flush (Q := fun p => p.status = c.probe.status) now _ (fun _ h => h) rfl

variable {z : Zlib} {now : Timepoint} {again hears : Prop} {c c' : Connection}

/-- Every move keeps the timer of an open probe armed. -/
theorem Move.armed (h : Move z now again hears c c')
    (hc : c.probe.status = .open → c.probe.Armed) : c'.probe.status = .open → c'.probe.Armed := by
  have hon : ∀ (options : ConnectionOptions) (p : Probe), (p.status = .open → p.Armed) →
      (p.on options now).status = .open → (p.on options now).Armed :=
    fun options p hp hopen => Probe.armed_on options now fun _ => hp hopen
  cases h with
  | call call => exact probe_flush (Q := fun p => p.status = .open → p.Armed) now _ (hon _) hc
  | fail event =>
      refine probe_flush (Q := fun p => p.status = .open → p.Armed) now _ (hon _) fun hopen => ?_
      cases hopen
  | send packet =>
      rw [send_eq]
      exact hon _ _ hc
  | probe => exact hon _ _ hc
  | probeTimeout =>
      intro hopen
      rw [show _ = c.probe.status from Probe.status_onTimeout _ _ _] at hopen
      exact Probe.armed_onTimeout hopen _ _
  | closeReceiver | close | finishWhenReady | dispose | register | options | handshake
      | remoteAddress | openReceiver | receive | deliver => exact hc

/-! ## Failing -/

/-- What `Connection::fail` leaves behind. -/
structure Failed (c : Connection) : Prop where
  probe : c.probe.status = .closed
  sender : c.sender.status = .closed
  receiver : c.receiver.status = .closed

end Connection

/-- A sender that is closed stays so. -/
theorem Sender.Change.closed {e : Env} {ok : Packet → Prop} {s s' : Sender}
    (h : Change e ok s s') (hs : s.status = .closed) : s'.status = .closed := by
  cases h with
  | quiet h =>
      cases h with
      | setSchedule schedule reliability => cases reliability <;> exact hs
      | processUnreliableDataQueue => rwa [(processUnreliableDataQueue_frame s).2.2.2]
      | push reliability => cases reliability <;> exact hs
      | «open» huninitialized =>
          rw [hs] at huninitialized
          cases huninitialized
      | transmit | sendReliably | delayAck | resend | recalculate => exact hs
  | acknowledge ack => rwa [(acknowledge_unreliable e.now ack).2.1]
  | close => rfl
  | fail => rfl

theorem Sender.closed_call {e : Env} {s : Sender} (call : SenderCall) (hs : s.status = .closed) :
    (s.call e call).status = .closed := by
  have hsends : call.Sends fun _ => True := by
    cases call with
    | sendReliably => exact fun _ _ => trivial
    | «open» | send | close | fail | ack | onAck | processSchedule | retryTimeout => trivial
  have hchanges := call_changes (e := e) (s := s) hsends
  generalize s.call e call = s' at hchanges
  induction hchanges with
  | refl => exact hs
  | tail _ hchange ih => exact hchange.closed ih

theorem Receiver.status_onReceive (z : Zlib) (r : Receiver) (packet : Packet) :
    (r.onReceive z packet).2.status = r.status := by
  rw [Receiver.onReceive]
  split
  · rfl
  · dsimp only
    split
    · rfl
    · split <;> rfl

namespace Connection

variable {z : Zlib} {now : Timepoint} {again hears : Prop} {c c' : Connection}

/-- **Only a failure closes the probe**, and it closes the sender and the receiver too. -/
theorem Move.failed (h : Move z now again hears c c') (hc : c.probe.status = .closed → c.Failed) :
    c'.probe.status = .closed → c'.Failed := by
  intro hclosed
  cases h with
  | call call =>
      rw [status_probe_call] at hclosed
      obtain ⟨probe, hcall⟩ := call_eq z now c call
      refine ⟨by rwa [status_probe_call], ?_, ?_⟩
      · rw [hcall]
        exact Sender.closed_call call (hc hclosed).sender
      · rw [hcall]
        exact (hc hclosed).receiver
  | fail event =>
      obtain ⟨probe, hfail⟩ := failParts_eq z now c event
      refine ⟨hclosed, ?_, ?_⟩
      · rw [hfail]
        rfl
      · rw [hfail]
  | send packet =>
      rw [send_eq] at hclosed ⊢
      exact ⟨hclosed, (hc hclosed).sender, (hc hclosed).receiver⟩
  | probeTimeout =>
      have hbefore : c.probe.status = .closed := (Probe.status_onTimeout _ _ _).symm.trans hclosed
      exact ⟨hclosed, (hc hbefore).sender, (hc hbefore).receiver⟩
  | closeReceiver => exact ⟨hclosed, (hc hclosed).sender, rfl⟩
  | openReceiver =>
      refine ⟨hclosed, (hc hclosed).sender, ?_⟩
      have hreceiver := (hc hclosed).receiver
      rw [Receiver.open]
      dsimp only
      rw [hreceiver, if_neg (by decide)]
  | receive packet =>
      refine ⟨hclosed, (hc hclosed).sender, ?_⟩
      dsimp only
      rw [Receiver.status_onReceive]
      exact (hc hclosed).receiver
  | probe | close | finishWhenReady | dispose | register | options | handshake | remoteAddress
      | deliver => exact ⟨hclosed, (hc hclosed).sender, (hc hclosed).receiver⟩

/-- A closed probe stays closed. -/
theorem Move.closed (h : Move z now again hears c c') (hc : c.probe.status = .closed) :
    c'.probe.status = .closed := by
  cases h with
  | call call => rwa [status_probe_call]
  | fail event =>
      exact probe_flush (Q := fun p => p.status = .closed) now _ (fun _ h => h) rfl
  | send packet => rwa [send_eq]
  | probeTimeout => exact (Probe.status_onTimeout _ _ _).trans hc
  | probe | closeReceiver | close | finishWhenReady | dispose | register | options | handshake
      | remoteAddress | openReceiver | receive | deliver => exact hc

/-- A probe that is closed has been closed by a failure. -/
theorem failed_of_reachable (hc : Reachable z c) (hclosed : c.probe.status = .closed) : c.Failed :=
  reachable_of_move Move.failed (fun _ _ hprobe _ h => by
    rw [start, hprobe] at h
    cases h) hc hclosed

theorem armed_of_reachable (hc : Reachable z c) (hopen : c.probe.status = .open) :
    c.probe.Armed :=
  reachable_of_move Move.armed (fun d now hprobe _ _ => by
    refine Probe.armed_on d.options now fun hregistered => ?_
    rw [hprobe] at hregistered
    cases hregistered) hc hopen

/-- A closed probe stays closed. -/
theorem probe_closed_run (inputs : List (Timepoint × Input)) (hc : c.probe.status = .closed) :
    (run (step z) c inputs).probe.status = .closed :=
  run_invariant_of_step (fun c : Connection => c.probe.status = .closed)
    (fun _ input hc => step_of_move Move.closed input hc) hc inputs

end Connection

/-! ## A probe that is due -/

/-- Only a sender that is closed has closed its window. -/
theorem Sender.Change.retrier {e : Env} {ok : Packet → Prop} {s s' : Sender}
    (h : Change e ok s s') (hs : s.retrier.status = .closed → s.status = .closed)
    (hclosed : s'.retrier.status = .closed) : s'.status = .closed := by
  have hsame : s'.retrier.status = s.retrier.status → s'.status = .closed :=
    fun hretrier => h.closed (hs (hretrier.symm.trans hclosed))
  cases h with
  | quiet h =>
      cases h with
      | setSchedule schedule reliability => cases reliability <;> exact hsame rfl
      | transmit => exact hsame (retrier_status_sendReliably _ _)
      | processUnreliableDataQueue =>
          exact hsame (by rw [(processUnreliableDataQueue_frame s).1])
      | push reliability => cases reliability <;> exact hsame rfl
      | sendReliably => exact hsame (Retrier.status_insert _ _ _ _ _ _)
      | resend | recalculate => exact hsame (Retrier.status_recalculateRetryTimeout _ _)
      | «open» | delayAck => exact hsame rfl
  | acknowledge ack => exact hsame (acknowledge_frame e.now ack).2.2.2
  | close => rfl
  | fail => rfl

namespace Connection

variable {z : Zlib} {c : Connection}

theorem retrier_open_of_reachable (hc : Reachable z c) (hopen : c.sender.status = .open) :
    c.sender.retrier.status = .open := by
  have hkeeps : KeepsAll z fun c => c.sender.retrier.status = .closed → c.sender.status = .closed :=
    keepsFront_of_sender (Q := fun s => s.retrier.status = .closed → s.status = .closed)
      (fun _ _ _ h hs => h.retrier hs) fun _ hs => hs
  have hreachable := hkeeps.reachable (fun _ _ _ _ h => by cases h) hc
  cases hstatus : c.sender.retrier.status with
  | «open» => rfl
  | closed =>
      rw [hreachable hstatus] at hopen
      cases hopen

/-- A failure closes the probe, whatever the user does then. -/
theorem probe_fail (now : Timepoint) (script : List UserCall) (event : Event) (c : Connection) :
    (fail z now (userCalls z now script) event c).probe.status = .closed := by
  have hmoves := moves_possiblyClose (@moves_userCalls z now True True script
    (UserCall.registersAll_true _)) (c.failParts z now event)
  rw [fail]
  generalize possiblyClose now (userCalls z now script) (c.failParts z now event) = c' at hmoves
  induction hmoves with
  | refl => exact probe_flush (Q := fun p => p.status = .closed) now _ (fun _ h => h) rfl
  | tail _ h ih => exact h.closed ih

/-- **Silence is put to the test.**  In every reachable state the timer of a probe that is open is
armed for a time no later than that of the next probe.  When it goes off after that time, a packet
waits for an acknowledgement afterwards, or the connection has failed. -/
theorem silence_is_tested (hc : Reachable z c) (hopen : c.probe.status = .open) :
    c.probe.Armed ∧ ∀ now script, c.probe.nextProbeTime < now →
      (step z c (now, .probeTimeout script)).sender.retrier.empty = false ∨
        (step z c (now, .probeTimeout script)).Failed := by
  refine ⟨armed_of_reachable hc hopen, fun now script hdue => ?_⟩
  have hreachable := reachable_step hc (now, .probeTimeout script)
  have hnot : ¬ c.probe.status = .closed := by
    rw [hopen]
    decide
  have htimeout : c.probe.onTimeout (Probe.calculateInterval c.options) now =
      (true, { c.probe with isRegistered := false }.onWith (Probe.calculateInterval c.options)
        now) := by
    rw [Probe.onTimeout, if_neg hnot]
    dsimp only
    rw [if_pos hdue]
  have hstep : step z c (now, .probeTimeout script) =
      probeTimeout z now (userCalls z now script) c := rfl
  rw [Probe.probeTimeout_eq, htimeout] at hstep
  dsimp only at hstep
  split at hstep
  next hsender =>
    left
    rw [hstep, Connection.sendReliably]
    obtain ⟨probe, hcall⟩ := call_eq z now
      { c with probe := { c.probe with isRegistered := false }.onWith
                  (Probe.calculateInterval c.options) now }
      (.sendReliably ⟨⟨{ header := { type := TypeID.probe } }, none⟩, none⟩ false)
    rw [hcall]
    exact Sender.not_empty_sendReliablyMultipath (retrier_open_of_reachable hc hsender) _ _ _
  next =>
    right
    refine failed_of_reachable hreachable ?_
    rw [hstep]
    exact probe_fail now script .timeout _

/-- Where packet 2 waits for its acknowledgement, the probe is open. -/
theorem silence_is_tested_oneOutstanding :
    oneOutstanding.probe.status = .open ∧ oneOutstanding.probe.Armed ∧
      ((step storing oneOutstanding (10 ^ 12, .probeTimeout [])).sender.retrier.empty = false ∨
        (step storing oneOutstanding (10 ^ 12, .probeTimeout [])).Failed) := by
  have hopen : oneOutstanding.probe.status = .open := by decide +kernel
  obtain ⟨harmed, htested⟩ := silence_is_tested (reachable_run immediate sendingOne) hopen
  exact ⟨hopen, harmed, htested (10 ^ 12) [] (by decide +kernel)⟩

end Connection

/-! ## The next retry -/

/-- A packet without priority that does not come before the next retry leaves it the next one. -/
theorem Retrier.getNextRetry_insert {r : Retrier} {id : PacketID} {retry : Retry}
    (h : r.getNextRetry = some (id, retry)) (rtt : RTT) {paths : MultiPacketPath} (now : Timepoint)
    (serial : ℕ) (horder : ¬ paths.front.packet.header.id < id) :
    (r.insert rtt paths now false serial).getNextRetry = some (id, retry) := by
  cases hstatus : r.status with
  | closed => rwa [insert, if_pos hstatus]
  | «open» =>
      have hid := r.window_of_getNextRetry h
      have hempty : ¬ (r.window.isEmpty = true ∨ false = true) := by
        rw [window_ne_empty h]
        decide
      rw [insert_eq hstatus, if_neg hempty]
      refine getNextRetry_of_window h rfl ?_ fun hpriority k entry hk => ?_
      · have hmem : id ∈ r.window := by
          rw [ExtTreeMap.mem_iff_isSome_getElem?, hid]
          rfl
        simp only [entered, ExtTreeMap.getElem?_insertIfNew, Std.LawfulEqCmp.compare_eq_iff_eq]
        rwa [if_neg fun hnew => hnew.2 (hnew.1 ▸ hmem)]
      · simp only [entered, ExtTreeMap.getElem?_insertIfNew,
          Std.LawfulEqCmp.compare_eq_iff_eq] at hk
        split at hk
        next hnew => rwa [← hnew.1]
        · exact not_lt_of_getNextRetry h hpriority hk

namespace Sender

/-- The next retry stays the next one, as long as the identifiers do not wrap. -/
structure Persists (s s' : Sender) : Prop where
  issued : s.packetIDGenerator.issued ≤ s'.packetIDGenerator.issued
  next : ∀ {id retry}, s.retrier.getNextRetry = some (id, retry) → id = serial 16 retry.serial →
    retry.serial < s.packetIDGenerator.issued →
    s'.packetIDGenerator.issued ≤ (retry.serial / 2 ^ 16 + 1) * 2 ^ 16 →
      s'.retrier.getNextRetry = some (id, retry)

theorem Persists.of_eq {s s' : Sender} (hissued : s'.packetIDGenerator = s.packetIDGenerator)
    (hretrier : s'.retrier = s.retrier) : Persists s s' where
  issued := by rw [hissued]
  next hnext _ _ _ := by rwa [hretrier]

theorem Persists.trans {s₁ s₂ s₃ : Sender} (h : Persists s₁ s₂) (h' : Persists s₂ s₃) :
    Persists s₁ s₃ where
  issued := h.issued.trans h'.issued
  next hnext hid hlt hwraps :=
    h'.next (h.next hnext hid hlt (h'.issued.trans hwraps)) hid (hlt.trans_le h.issued) hwraps

/-- Within one turn, what is sent later has a greater identifier. -/
theorem persists_sendReliablyMultipath (s : Sender) (now : Timepoint) (paths : MultiPacketPath) :
    Persists s (s.sendReliablyMultipath now paths false) where
  issued := Nat.le_succ _
  next {id retry} hnext hid hlt hwraps := by
    change s.packetIDGenerator.issued + 1 ≤ _ at hwraps
    refine Retrier.getNextRetry_insert hnext s.rtt now _ fun horder => ?_
    change serial 16 s.packetIDGenerator.issued < id at horder
    rw [hid, BitVec.lt_def, toNat_serial, toNat_serial] at horder
    omega

theorem walk_persists {e : Env} : Walk e Persists where
  refl _ := .of_eq rfl rfl
  trans := .trans
  setSchedule s schedule reliability := by cases reliability <;> exact .of_eq rfl rfl
  transmit s _ q _ _ := by
    have hqueue : Persists s { s with dataQueue := q } := .of_eq rfl rfl
    exact hqueue.trans (persists_sendReliablyMultipath _ e.now _)
  processUnreliableDataQueue s := by
    obtain ⟨hretrier, hissued, _, _⟩ := processUnreliableDataQueue_frame (e := e) s
    exact .of_eq hissued hretrier
  push s _ _ _ reliability _ _ := by cases reliability <;> exact .of_eq rfl rfl

theorem persists_close {e : Env} (s : Sender) : Persists s (s.close e) := by
  rw [Sender.close]
  split
  · have hadm : SendQueue.Admissible [] .packet := .inl (Nat.zero_le _)
    refine Persists.trans (walk_persists.enqueue (e := e) .reliable (.inr rfl) hadm) ?_
    exact .of_eq rfl rfl
  · exact .of_eq rfl rfl

theorem onRetryTimeout_of_wait {e : Env} {s : Sender}
    (h : s.retrier.onRetryTimeout e.now e.options.maximumRetryAttempts = .wait) :
    s.onRetryTimeout e =
      (false, { s with retrier := s.retrier.recalculateRetryTimeout s.rtt }) := by
  rw [onRetryTimeout, h]

end Sender

namespace Connection

variable {z : Zlib} {c : Connection}

/-! ## Silence -/

/-- What can happen when nothing is received, and the user does no more than send and close. -/
def Input.Silent : Input → Prop
  | .user (.send _ _) | .user (.close [] []) => True
  | .processSchedule _ | .retryTimeout _ | .probeTimeout _ => True
  | _ => False

instance : DecidablePred Input.Silent
  | .user (.send _ _) | .user (.close [] []) => .isTrue trivial
  | .processSchedule _ | .retryTimeout _ | .probeTimeout _ => .isTrue trivial
  | .user (.close (_ :: _) _) | .user (.close [] (_ :: _)) => .isFalse fun h => h
  | .user (.accept _ _ _) | .user (.setOptions _) => .isFalse fun h => h
  | .receive _ _ _ | .close _ _ => .isFalse fun h => h

/-- Whether the retry timer finds a retry that is due. -/
def fallsDue (c : Connection) : Timepoint × Input → ℕ
  | (now, .retryTimeout _) =>
      match c.sender.retrier.getNextRetry with
      | some (_, retry) => if retry.retryAt < now then 1 else 0
      | none => 0
  | _ => 0

theorem fallsDue_le (c : Connection) (input : Timepoint × Input) : c.fallsDue input ≤ 1 := by
  unfold fallsDue
  split
  · split
    · split <;> omega
    · omega
  · omega

/-- How often the retry timer finds a retry that is due in a run. -/
def expiries (z : Zlib) : Connection → List (Timepoint × Input) → ℕ
  | _, [] => 0
  | c, input :: inputs => c.fallsDue input + expiries z (step z c input) inputs

/-- The next retry stays, and so do the options. -/
structure Steady (c c' : Connection) : Prop where
  sender : Sender.Persists c.sender c'.sender
  options : c'.options = c.options

theorem Steady.of_eq {c' : Connection} (hsender : c'.sender = c.sender)
    (hoptions : c'.options = c.options) : Steady c c' :=
  ⟨.of_eq (by rw [hsender]) (by rw [hsender]), hoptions⟩

theorem Steady.trans {c₁ c₂ c₃ : Connection} (h : Steady c₁ c₂) (h' : Steady c₂ c₃) :
    Steady c₁ c₃ :=
  ⟨h.sender.trans h'.sender, h'.options.trans h.options⟩

theorem steady_call {now : Timepoint} {call : SenderCall}
    (h : Sender.Persists c.sender (c.sender.call (c.env z now) call)) :
    Steady c (c.call z now call) := by
  obtain ⟨probe, hcall⟩ := call_eq z now c call
  rw [hcall]
  exact ⟨h.trans (.of_eq rfl rfl), rfl⟩

theorem steady_sendReliably (now : Timepoint) (packet : Packet) :
    Steady c (c.sendReliably z now packet) :=
  steady_call (Sender.persists_sendReliablyMultipath _ _ _)

/-- A close by the user, when its handlers do nothing. -/
theorem steady_close (now : Timepoint) :
    Steady c (step z c (now, .user (.close [] []))) := by
  have hreceiver : ∀ d : Connection, Steady d (closeReceiver z now d) := by
    intro d
    have hsend : Steady d (if d.canSend then
        d.sendReliably z now { header := { type := TypeID.closeRead } } else d) := by
      split
      · exact steady_sendReliably now _
      · exact .of_eq rfl rfl
    rw [closeReceiver]
    split
    · exact hsend.trans (.of_eq rfl rfl)
    · exact .of_eq rfl rfl
  have hcalls : ∀ d, Steady c d → Steady c (userCalls z now [] d) := by
    intro d hd
    rwa [userCalls]
  have huser : ∀ d, Steady c d → ∀ d' : Connection, d'.sender = d.sender → d'.options = d.options →
      Steady c d' := fun d hd d' hsender hoptions => hd.trans (.of_eq hsender hoptions)
  rw [step, userCall, close]
  refine closeUser_of_user (fun d _ _ _ _ _ _ _ _ hd => huser d hd _ rfl rfl) _ hcalls ?_
  refine possiblyClose_of_user (fun d _ _ _ _ _ _ _ _ hd => huser d hd _ rfl rfl) now hcalls ?_
  exact (steady_call (Sender.persists_close _)).trans (hreceiver _)

/-- **A silent step** other than an expiry of the retry timer fails, or is steady. -/
theorem steady_step {now : Timepoint} {input : Input} (hsilent : input.Silent)
    (hretry : ∀ script, input ≠ .retryTimeout script) :
    (step z c (now, input)).probe.status = .closed ∨ Steady c (step z c (now, input)) := by
  cases input with
  | user call =>
      right
      cases call with
      | send data reliability =>
          rw [step, userCall]
          exact steady_call (Sender.walk_persists.send data reliability)
      | close onClose onCloseUser =>
          cases onClose with
          | cons => exact hsilent.elim
          | nil =>
              cases onCloseUser with
              | cons => exact hsilent.elim
              | nil => exact steady_close now
      | accept | setOptions => exact hsilent.elim
  | processSchedule reliability =>
      exact .inr (steady_call (Sender.walk_persists.processSchedule _ reliability))
  | probeTimeout script =>
      rw [step, Probe.probeTimeout_eq]
      split
      · exact .inr (.of_eq rfl rfl)
      · split
        · refine .inr (Steady.trans ?_ (steady_sendReliably now _))
          exact .of_eq rfl rfl
        · exact .inl (probe_fail now script .timeout _)
  | retryTimeout script => exact absurd rfl (hretry script)
  | receive | close => exact hsilent.elim

/-- The next retry is of packet `n`, which was sent again `attempts` times. -/
structure Waits (n attempts : ℕ) (limit : BitVec 16) (c : Connection) : Prop where
  limit : c.options.maximumRetryAttempts = limit
  next : ∃ retry, c.sender.retrier.getNextRetry = some (serial 16 n, retry) ∧
    retry.serial = n ∧ retry.attempts = attempts

/-- What waits in a reachable state carries the name of its number. -/
theorem entry_of_reachable (hc : Reachable z c) {id : PacketID} {retry : Retry}
    (hnext : c.sender.retrier.getNextRetry = some (id, retry)) :
    id = serial 16 retry.serial ∧ retry.serial < c.sender.packetIDGenerator.issued := by
  obtain ⟨c₀, inputs, hstarted, rfl⟩ := hc
  have hcounts := counts_run (z := z) (counts_of_started hstarted) inputs
  obtain ⟨hid, hlt, -⟩ := hcounts.entry id retry.serial retry.attempts (by
    rw [Sender.counted, Retrier.window_of_getNextRetry _ hnext]
    rfl)
  exact ⟨hid, hlt⟩

variable {n attempts : ℕ} {limit : BitVec 16}

theorem Waits.steady {c' : Connection} (h : Waits n attempts limit c) (hsteady : Steady c c')
    (hc : Reachable z c)
    (hwraps : c'.sender.packetIDGenerator.issued ≤ (n / 2 ^ 16 + 1) * 2 ^ 16) :
    Waits n attempts limit c' := by
  obtain ⟨retry, hnext, hserial, hattempts⟩ := h.next
  obtain ⟨hid, hlt⟩ := entry_of_reachable hc hnext
  refine ⟨by rw [hsteady.options, h.limit], retry, ?_, hserial, hattempts⟩
  exact hsteady.sender.next hnext hid hlt (by rwa [hserial])

/-- **An expiry of the retry timer** fails, or counts. -/
theorem Waits.retryTimeout (h : Waits n attempts limit c) (hlimit : 0 ≤ limit.toInt)
    (now : Timepoint) (script : List UserCall) :
    (step z c (now, .retryTimeout script)).probe.status = .closed ∨
      Waits n (attempts + c.fallsDue (now, .retryTimeout script)) limit
          (step z c (now, .retryTimeout script)) ∧
        (attempts < limit.toInt ∨ c.fallsDue (now, .retryTimeout script) = 0) := by
  obtain ⟨retry, hnext, hserial, hattempts⟩ := h.next
  have hcall : ∀ {s : Sender}, c.sender.onRetryTimeout (c.env z now) = (false, s) →
      step z c (now, .retryTimeout script) = c.call z now .retryTimeout ∧
        (c.call z now .retryTimeout).sender.retrier = s.retrier ∧
        (c.call z now .retryTimeout).options = c.options := by
    intro s hs
    obtain ⟨probe, hflush⟩ := call_eq z now c .retryTimeout
    refine ⟨?_, ?_, by rw [hflush]⟩
    · rw [step, Connection.retryTimeout, hs, if_neg Bool.false_ne_true]
    · rw [hflush, Sender.call, hs]
  rw [fallsDue, hnext]
  dsimp only
  by_cases hdue : retry.retryAt < now
  · have hdecision := onRetryTimeout_of_nonneg hlimit hnext hdue
    rw [if_pos hdue]
    by_cases hspent : (max limit.toInt 0).toNat ≤ retry.attempts
    · left
      rw [if_pos hspent] at hdecision
      have hfail : c.sender.onRetryTimeout (c.env z now) = (true, c.sender) :=
        Sender.onRetryTimeout_of_fail (by rw [← hdecision, ← h.limit]; rfl)
      rw [step, Connection.retryTimeout, hfail, if_pos rfl]
      exact probe_fail now script .timeout c
    · right
      rw [if_neg hspent] at hdecision
      obtain ⟨hstep, hretrier, hoptions⟩ := hcall
        (Sender.onRetryTimeout_of_resend (e := c.env z now) (by rw [← hdecision, ← h.limit]; rfl))
      rw [hstep]
      have hagain := Retrier.getNextRetry_recalculateRetryTimeout
        (Retrier.getNextRetry_update hnext (retry.again now) c.sender.retrier.timeout)
        c.sender.rtt.onAckFailure
      refine ⟨⟨by rw [hoptions, h.limit], _,
        (congrArg Retrier.getNextRetry hretrier).trans hagain, hserial, ?_⟩, .inl (by omega)⟩
      rw [← hattempts]
      rfl
  · right
    rw [if_neg hdue]
    have hdecision :
        c.sender.retrier.onRetryTimeout now c.options.maximumRetryAttempts = .wait := by
      rw [Retrier.onRetryTimeout, hnext]
      dsimp only
      rw [if_neg hdue]
    obtain ⟨hstep, hretrier, hoptions⟩ :=
      hcall (Sender.onRetryTimeout_of_wait (e := c.env z now) hdecision)
    rw [hstep]
    have hagain := Retrier.getNextRetry_recalculateRetryTimeout hnext c.sender.rtt
    exact ⟨⟨by rw [hoptions, h.limit], _, (congrArg Retrier.getNextRetry hretrier).trans hagain,
      hserial, hattempts⟩, .inr rfl⟩

/-- **One silent step.** -/
theorem Waits.step (h : Waits n attempts limit c) (hlimit : 0 ≤ limit.toInt) (hc : Reachable z c)
    {input : Timepoint × Input} (hsilent : input.2.Silent)
    (hwraps : (step z c input).sender.packetIDGenerator.issued ≤ (n / 2 ^ 16 + 1) * 2 ^ 16) :
    (step z c input).probe.status = .closed ∨
      Waits n (attempts + c.fallsDue input) limit (step z c input) ∧
        (attempts < limit.toInt ∨ c.fallsDue input = 0) := by
  obtain ⟨now, input⟩ := input
  by_cases hretry : ∃ script, input = .retryTimeout script
  · obtain ⟨script, rfl⟩ := hretry
    exact h.retryTimeout hlimit now script
  · have hnone : c.fallsDue (now, input) = 0 := by
      cases input with
      | retryTimeout script => exact absurd ⟨script, rfl⟩ hretry
      | user | receive | processSchedule | probeTimeout | close => rfl
    rcases @steady_step z c now input hsilent fun script hscript => hretry ⟨script, hscript⟩ with
      hclosed | hsteady
    · exact .inl hclosed
    · rw [hnone]
      exact .inr ⟨h.steady hsteady hc hwraps, .inr rfl⟩

theorem issued_le_run (inputs : List (Timepoint × Input)) :
    c.sender.packetIDGenerator.issued ≤
      (run (Connection.step z) c inputs).sender.packetIDGenerator.issued :=
  KeepsFront.run (keepsFront_of_sender
    (Q := fun s => c.sender.packetIDGenerator.issued ≤ s.packetIDGenerator.issued)
    (fun _ _ _ h hs => hs.trans h.extends.issued) fun _ hs => hs) inputs le_rfl

/-- **A silent run** fails, or the retries that were due are all counted. -/
theorem Waits.run (hlimit : 0 ≤ limit.toInt) {inputs : List (Timepoint × Input)}
    (hsilent : ∀ input ∈ inputs, input.2.Silent) (h : Waits n attempts limit c)
    (hc : Reachable z c)
    (hwraps : (run (Connection.step z) c inputs).sender.packetIDGenerator.issued ≤
      (n / 2 ^ 16 + 1) * 2 ^ 16) :
    (run (Connection.step z) c inputs).probe.status = .closed ∨
      (attempts : ℤ) + expiries z c inputs ≤ max limit.toInt attempts := by
  induction inputs generalizing c attempts with
  | nil =>
      right
      simp [expiries]
  | cons input inputs ih =>
      rw [List.forall_mem_cons] at hsilent
      rcases h.step hlimit hc hsilent.1 ((issued_le_run inputs).trans hwraps) with
        hclosed | ⟨hwaits, hleft⟩
      · exact .inl (probe_closed_run inputs hclosed)
      · refine (ih hsilent.2 hwaits (reachable_step hc input) hwraps).imp_right fun hrest => ?_
        have hdue := fallsDue_le c input
        rw [expiries]
        push_cast at hrest ⊢
        omega

/-- **A peer that has fallen silent is noticed.**  As long as nothing is received, the identifiers
do not wrap, and the user does no more than send and close, the connection has failed when the retry
timer has found a retry due more often than `maximum_retry_attempts`. -/
theorem failed_of_silence (hc : Reachable z c)
    (hlimit : 0 ≤ c.options.maximumRetryAttempts.toInt) {id : PacketID} {retry : Retry}
    (hnext : c.sender.retrier.getNextRetry = some (id, retry)) {inputs : List (Timepoint × Input)}
    (hsilent : ∀ input ∈ inputs, input.2.Silent)
    (hwraps : (run (Connection.step z) c inputs).sender.packetIDGenerator.issued ≤
      (retry.serial / 2 ^ 16 + 1) * 2 ^ 16)
    (hexpiries : c.options.maximumRetryAttempts.toInt < expiries z c inputs) :
    (run (Connection.step z) c inputs).Failed := by
  obtain ⟨rfl, -⟩ := entry_of_reachable hc hnext
  have hwaits : Waits retry.serial retry.attempts c.options.maximumRetryAttempts c :=
    ⟨rfl, retry, hnext, rfl, rfl⟩
  have hreachable : Reachable z (run (Connection.step z) c inputs) := by
    obtain ⟨c₀, before, hstarted, rfl⟩ := hc
    exact ⟨c₀, before ++ inputs, hstarted, (run_append ..).symm⟩
  refine failed_of_reachable hreachable ?_
  rcases hwaits.run hlimit hsilent hc hwraps with hclosed | hcounted
  · exact hclosed
  · omega

/-- The peer does not answer any more.  The user sends another message, a probe is sent, and the
retry timer expires once more than `maximum_retry_attempts` says. -/
def unanswered : List (Timepoint × Input) :=
  [(10 ^ 10, .retryTimeout []), (10 ^ 10, .user (.send [8] .reliable)),
    (2 * 10 ^ 10, .retryTimeout []), (3 * 10 ^ 10, .retryTimeout []),
    (10 ^ 12, .probeTimeout []), (2 * 10 ^ 12, .retryTimeout []), (3 * 10 ^ 12, .retryTimeout []),
    (3 * 10 ^ 12, .user (.close [] [])), (4 * 10 ^ 12, .retryTimeout [])]

theorem failed_of_silence_unanswered :
    (Machine.run (Connection.step storing) oneOutstanding unanswered).Failed := by
  have hsome : (oneOutstanding.sender.retrier.getNextRetry.map fun next => next.2.serial) =
      some 2 := by decide +kernel
  obtain ⟨⟨id, retry⟩, hnext, hserial⟩ := Option.map_eq_some_iff.mp hsome
  refine failed_of_silence (reachable_run immediate sendingOne) (by decide +kernel) hnext
    (by decide) ?_ (by decide +kernel)
  rw [show retry.serial = 2 from hserial]
  decide +kernel

end Connection
end MrUDP
