import MrUDP.Connection.Outstanding

/-!
# How a connection closes

A connection closes when both directions are closed and the sender is empty, and
`possiblyClose` is called wherever one of these can become true.

The sender is empty when its window, its packet list and its side buffer are.
`Sender::fail` clears the first two and leaves the third: bytes that waited for
compression stay there, and the connection never closes.

## Main definitions

* `Connection.Finished`: what `possiblyClose` asks for.
* `Connection.Settled`: a finished connection is closed.
* `Connection.closed_fail_iff`: a failed connection closes exactly if its side buffer was
  empty.
-/

namespace MrUDP
open Relation (ReflTransGen)

/-- Quiet changes neither close the sender nor empty it. -/
theorem Sender.finished_of_quiet {e : Env} {ok : Packet → Prop} {s s' : Sender}
    (h : ReflTransGen (Quiet e ok) s s') (hs : Static s) :
    Static s' ∧ (s'.status = .closed → s.status = .closed) ∧
      (s'.empty = true → s.empty = true) := by
  induction h with
  | refl => exact ⟨hs, fun h => h, fun h => h⟩
  | tail _ hstep ih =>
      obtain ⟨hstatic, hstatus, hempty⟩ := ih
      exact ⟨hstep.static hstatic, fun h => hstatus (hstep.status_closed h),
        fun h => hempty (hstep.empty hstatic h)⟩

/-- What is left in a sender that has failed. -/
theorem Sender.empty_fail {s : Sender} (hs : Static s) :
    s.fail.empty = true ↔ s.dataQueue.compressionBuffer = [] := by
  have hfail := static_fail hs
  have hclosed : s.fail.dataQueue.status = .closed := SendQueue.status_close _
  have hbuffer : s.fail.dataQueue.compressionBuffer = s.dataQueue.compressionBuffer := by
    change s.dataQueue.close.compressionBuffer = _
    rw [SendQueue.close]
    split <;> rfl
  rw [Sender.empty, hfail.window (hfail.together.mpr hclosed), Bool.true_and, SendQueue.empty,
    decide_eq_true_eq, hfail.queue hclosed, hbuffer]
  exact ⟨fun h => h.2, fun h => ⟨rfl, h⟩⟩

namespace Connection

variable {z : Zlib} {c : Connection}

/-! ## Closed means closed -/

/-- Once closed a connection stays so, and the calls of the close handler stay on record. -/
theorem keeps_closed (z : Zlib) (events : List Event) :
    Keeps z True fun c => c.closed = true ∧ events <+: c.closeEvents := by
  refine keeps_of_change ?_ fun _ _ hc => hc
  intro c c' h hc
  cases h with
  | flush now =>
      obtain ⟨probe, hflush⟩ := flush_eq now c
      rwa [hflush]
  | user _ _ _ _ _ _ _ _ hclosed hevents => exact ⟨hclosed hc.1, hc.2.trans hevents⟩
  | sender | probe | receiver => exact hc

/-- If it is closed, the connection is scheduled to finish. -/
def Scheduled (c : Connection) : Prop := c.closed = true → c.finishTimeout.isSome = true

/-- **A closed connection is scheduled to finish.** -/
theorem keepsFront_scheduled (z : Zlib) : KeepsAll z Scheduled := by
  have hcall : ∀ {c : Connection} (now : Timepoint) (call : SenderCall), Scheduled c →
      Scheduled (c.call z now call) := by
    intro c now call hc
    obtain ⟨probe, h⟩ := call_eq z now c call
    rwa [h]
  have hreceiver : ∀ {c : Connection} (now : Timepoint), Scheduled c →
      Scheduled (closeReceiver z now c) := by
    intro c now hc
    rw [closeReceiver]
    split
    · dsimp only
      split
      · exact hcall now _ hc
      · exact hc
    · exact hc
  have hwith : ∀ {c : Connection} (now : Timepoint) (react : Connection → Connection)
      (event : Event), Scheduled c → Scheduled (closeWith now react event c) := by
    intro c now react event hc
    rw [closeWith]
    split
    · exact hc
    · exact fun _ => rfl
  have hpossibly : ∀ {c : Connection} (now : Timepoint) (react : Connection → Connection),
      Scheduled c → Scheduled (possiblyClose now react c) := by
    intro c now react hc
    rw [possiblyClose]
    split
    · exact hc
    · split
      · exact hwith now react _ hc
      · exact hc
  have hkeeps : Keeps z True Scheduled := {
    call := fun now _ _ hc => hcall now _ hc
    onAck := fun now _ _ _ hc => hpossibly now _ (hcall now _ hc)
    failSender := fun now _ _ hc => hpossibly now _ (hcall now _ hc)
    fail := fun now _ _ _ hc => hpossibly now _ (hcall now _ hc)
    closeReceiver := fun now _ _ hc => hpossibly now _ (hreceiver now hc)
    close := fun now _ _ hc => hpossibly now _ (hreceiver now (hcall now _ hc))
    closeUser := by
      intro c react event hreact hc
      rw [closeUser]
      split
      · exact hc
      · dsimp only
        split
        · exact hreact _ hc
        · exact hc
    closeWith := fun now react event _ hc => hwith now react event hc
    register := fun _ _ hc => hc
    options := fun _ _ hc => hc
    deliver := fun _ hc => hc
    probe := fun _ hc => hc
    queue := fun _ _ hc => hc }
  exact hkeeps.front (fun now _ _ hc => hcall now _ hc) (fun _ _ _ hc => by rwa [send_eq])
    fun _ _ _ _ _ hc => hc

/-! ## Finished means closed -/

/-- What `possiblyClose` asks for. -/
def Finished (c : Connection) : Prop :=
  c.sender.status = .closed ∧ c.receiver.status = .closed ∧ c.sender.empty = true

/-- A finished connection is closed. -/
structure Settled (c : Connection) : Prop where
  static : c.sender.Static
  closes : Finished c → c.closed = true

/-- A call that neither acknowledges nor closes does not finish a connection. -/
theorem Settled.call {ok : Packet → Prop} (now : Timepoint) {call : SenderCall}
    (hcall : call.Quiet ok) (hc : Settled c) : Settled (c.call z now call) := by
  obtain ⟨hstatic, hstatus, hempty⟩ :=
    Sender.finished_of_quiet (Sender.call_quiet (e := c.env z now) (s := c.sender) hcall) hc.static
  obtain ⟨probe, h⟩ := call_eq z now c call
  rw [h]
  refine ⟨{ hstatic with }, fun hfinished => ?_⟩
  exact hc.closes ⟨hstatus hfinished.1, hfinished.2.1, hempty hfinished.2.2⟩

theorem static_call (now : Timepoint) (call : SenderCall) (hcall : call.Sends fun _ => True)
    (hc : c.sender.Static) : (c.call z now call).sender.Static := by
  obtain ⟨probe, h⟩ := flush_eq now { c with sender := c.sender.call (c.env z now) call }
  have hstatic := sender_of_changes (P := fun c => c.sender.Static) (fun _ _ h hs => h.static hs)
    (Sender.call_changes (e := c.env z now) hcall) hc
  rw [Connection.call, h]
  exact { hstatic with }

theorem static_closeReceiver (now : Timepoint) (hc : c.sender.Static) :
    (closeReceiver z now c).sender.Static := by
  rw [closeReceiver]
  split
  · dsimp only
    split
    · exact static_call now _ (fun _ _ => trivial) hc
    · exact hc
  · exact hc

section
variable {react : Connection → Connection} (hreact : ∀ c, Settled c → Settled (react c))
include hreact

theorem Settled.closeUser (event : Event) (hc : Settled c) :
    Settled (closeUser react event c) := by
  rw [Connection.closeUser]
  split
  · exact hc
  · dsimp only
    split
    · exact hreact _ ⟨hc.static, hc.closes⟩
    · exact ⟨hc.static, hc.closes⟩

theorem Settled.closeWith (now : Timepoint) (event : Event) (hc : c.sender.Static) :
    Settled (closeWith now react event c) := by
  rw [Connection.closeWith]
  split
  next hclosed => exact ⟨hc, fun _ => hclosed⟩
  · have hclosed : Settled (Connection.closeUser react event { c with closed := true }) :=
      Settled.closeUser hreact event ⟨hc, fun _ => rfl⟩
    exact ⟨hclosed.static, hclosed.closes⟩

/-- **`possiblyClose` settles the connection.** -/
theorem settled_possiblyClose (now : Timepoint) (hc : c.sender.Static) :
    Settled (possiblyClose now react c) := by
  rw [possiblyClose]
  split
  next hclosed => exact ⟨hc, fun _ => hclosed⟩
  · split
    · exact Settled.closeWith hreact now _ hc
    next hfinished => exact ⟨hc, fun h => absurd h hfinished⟩

end

theorem keeps_settled (z : Zlib) : Keeps z True Settled where
  call now _ hcall hc := hc.call now hcall
  onAck now _ ack hreact hc :=
    settled_possiblyClose hreact now (static_call now (.onAck ack) trivial hc.static)
  failSender now _ hreact hc :=
    settled_possiblyClose hreact now (static_call now .fail trivial hc.static)
  fail now _ _ hreact hc :=
    settled_possiblyClose hreact now (static_call now .fail trivial hc.static)
  closeReceiver now _ hreact hc :=
    settled_possiblyClose hreact now (static_closeReceiver now hc.static)
  close now _ hreact hc := settled_possiblyClose hreact now
    (static_closeReceiver now (static_call now .close trivial hc.static))
  closeUser event hreact hc := Settled.closeUser hreact event hc
  closeWith now _ event hreact hc := Settled.closeWith hreact now event hc.static
  register _ _ hc := ⟨hc.static, hc.closes⟩
  options _ _ hc := ⟨hc.static, hc.closes⟩
  deliver _ hc := ⟨hc.static, hc.closes⟩
  probe _ hc := ⟨hc.static, hc.closes⟩
  queue _ _ hc := ⟨hc.static, hc.closes⟩

theorem keepsFront_settled (z : Zlib) : KeepsAll z Settled := by
  refine { keeps_settled z with
    negotiate := fun _ _ hc => ⟨hc.static, hc.closes⟩
    send := ?_
    sendReliably := fun now paths priority hpaths hc => hc.call now
      (show SenderCall.Quiet (IsRequest fun _ => True) (.sendReliably paths priority) from hpaths)
    waitingFor := fun _ _ _ _ hc => ⟨hc.static, hc.closes⟩
    complete := ?_
    remoteAddress := fun _ hc => ⟨hc.static, hc.closes⟩ }
  · intro c now packet _ hc
    rw [send_eq]
    exact ⟨hc.static, hc.closes⟩
  · intro c now scripts remoteID first _ hscripts _ hc
    apply Settled.call now (show SenderCall.Quiet (fun _ => True) .open from trivial)
    apply (keeps_settled z).carryOutAll now hscripts
    refine ⟨hc.static, fun hfinished => hc.closes ⟨hfinished.1, ?_, hfinished.2.2⟩⟩
    have hstatus : (c.receiver.open z).2.status = .closed := hfinished.2.1
    rw [Receiver.open] at hstatus
    dsimp only at hstatus
    split at hstatus
    · cases hstatus
    · exact hstatus

/-- **Every reachable connection is settled.** -/
theorem settled_of_reachable (hc : Reachable z c) : Settled c := by
  refine (keepsFront_settled z).reachable (fun _ _ _ _ => ⟨Sender.Static.init, ?_⟩) hc
  rintro ⟨hstatus, _⟩
  cases hstatus

/-! ## Failing -/

/-- `closeWith` calls the close handler, if there is one. -/
theorem closeWith_spec (hclosed : c.closed = false) (now : Timepoint) (event : Event)
    (script : List UserCall) :
    let c' := closeWith now (userCalls z now script) event c
    c'.closed = true ∧ c'.finishTimeout.isSome = true ∧
      (c.userDataDisposed = false → c.closeHandler = true →
        c.closeEvents ++ [event] <+: c'.closeEvents) := by
  intro c'
  have hkeeps := fun events =>
    (keeps_closed z events).userCalls now script (UserCall.withinAll_true script)
  have hrun : c' = finishWhenReady now
      (closeUser (userCalls z now script) event { c with closed := true }) := by
    simp only [c', closeWith, hclosed, Bool.false_eq_true, if_false]
  have hclose := (keeps_closed z []).closeUser (c := { c with closed := true }) event
    (hkeeps []) ⟨rfl, List.nil_prefix⟩
  refine ⟨by rw [hrun]; exact hclose.1, by rw [hrun]; rfl, fun hdisposed hhandler => ?_⟩
  have hcalled : closeUser (userCalls z now script) event { c with closed := true } =
      userCalls z now script
        { c with
          closed := true
          userDataDisposed := true
          receiveHandler := false
          closeHandler := false
          closeEvents := c.closeEvents ++ [event] } := by
    simp only [closeUser, hdisposed, hhandler, Bool.false_eq_true, if_false, if_true]
  rw [hrun, hcalled]
  exact (hkeeps (c.closeEvents ++ [event]) _ ⟨rfl, List.prefix_refl _⟩).2

/-- What `fail` does before it calls `possiblyClose`. -/
theorem failParts_spec (hc : c.sender.Static) (now : Timepoint) (event : Event) :
    let d := failParts z now event c
    (Finished d ↔ c.sender.dataQueue.compressionBuffer = []) ∧ d.closeReason = event ∧
      d.closed = c.closed ∧ d.userDataDisposed = c.userDataDisposed ∧
      d.closeHandler = c.closeHandler ∧ d.closeEvents = c.closeEvents ∧
      d.finishTimeout = c.finishTimeout := by
  intro d
  obtain ⟨probe, h⟩ := call_eq z now
    { c with
      closeReason := event
      probe := c.probe.close
      receiver := { c.receiver with status := .closed } } .fail
  have hd : d = _ := h
  rw [hd]
  refine ⟨?_, rfl, rfl, rfl, rfl, rfl, rfl⟩
  rw [← Sender.empty_fail hc]
  exact ⟨fun hfinished => hfinished.2.2, fun hempty => ⟨rfl, rfl, hempty⟩⟩

/-- **A failed connection closes exactly if nothing waits for compression.**  In every
reachable state `Connection::fail` closes the connection, calls the close handler that is
registered and schedules the end, if and only if the connection is open with an empty side
buffer, or is closed already with no handler left.  And in every reachable state in which
both directions are closed, with nothing outstanding, no packet waiting and the side buffer
empty, the connection is closed. -/
theorem closed_fail_iff (hc : Reachable z c) :
    (∀ (now : Timepoint) (event : Event) (script : List UserCall),
      let c' := fail z now (userCalls z now script) event c
      (c'.closed = true ∧
          (c.userDataDisposed = false → c.closeHandler = true →
            c.closeEvents ++ [event] <+: c'.closeEvents) ∧
          c'.finishTimeout.isSome = true) ↔
        (if c.closed then c.userDataDisposed = true ∨ c.closeHandler = false
          else c.sender.dataQueue.compressionBuffer = [])) ∧
      (c.sender.status = .closed → c.receiver.status = .closed →
        c.sender.retrier.empty = true → c.sender.dataQueue.queue = [] →
        c.sender.dataQueue.compressionBuffer = [] → c.closed = true) := by
  have hsettled := settled_of_reachable hc
  refine ⟨fun now event script => ?_, fun hsender hreceiver hwindow hqueue hbuffer => ?_⟩
  swap
  · apply hsettled.closes
    refine ⟨hsender, hreceiver, ?_⟩
    simp [Sender.empty, hwindow, SendQueue.empty, hqueue, hbuffer]
  · obtain ⟨hfinished, hreason, hclosed, hdisposed, hhandler, hevents, htimeout⟩ :=
      failParts_spec (z := z) hsettled.static now event
    simp only [fail]
    generalize failParts z now event c = d at *
    rw [← hdisposed, ← hhandler, ← hevents, ← hclosed]
    cases hd : d.closed with
    | true =>
        -- It was closed before, and nothing more happens.
        have hrun : possiblyClose now (userCalls z now script) d = d := by
          simp only [possiblyClose, hd, if_true]
        have hsome : d.finishTimeout.isSome = true := by
          rw [htimeout]
          exact (keepsFront_scheduled z).reachable (fun _ _ _ _ h => by cases h) hc
            (hclosed.symm.trans hd)
        rw [hrun, if_pos rfl]
        constructor
        · rintro ⟨_, hcalled, _⟩
          by_contra hleft
          rw [not_or, Bool.not_eq_true, Bool.not_eq_false] at hleft
          have hlength := (hcalled hleft.1 hleft.2).length_le
          simp at hlength
        · intro hleft
          refine ⟨hd, fun hdisposed hhandler => ?_, hsome⟩
          rcases hleft with hleft | hleft
          · rw [hdisposed] at hleft
            cases hleft
          · rw [hhandler] at hleft
            cases hleft
    | false =>
        rw [if_neg (by simp), ← hfinished]
        constructor
        · rintro ⟨hclosed', _⟩
          by_contra hnot
          have hrun : possiblyClose now (userCalls z now script) d = d := by
            rw [possiblyClose, hd, if_neg (by simp)]
            exact if_neg hnot
          rw [hrun, hd] at hclosed'
          cases hclosed'
        · intro hfinished'
          have hrun : possiblyClose now (userCalls z now script) d =
              closeWith now (userCalls z now script) event d := by
            rw [possiblyClose, hd, if_neg (by simp), hreason]
            exact if_pos hfinished'
          obtain ⟨hclosed', hsome, hcalled⟩ := closeWith_spec (z := z) hd now event script
          rw [hrun]
          exact ⟨hclosed', hcalled, hsome⟩

/-! ## A connection that fails while bytes wait for compression -/

/-- Messages wait in the side buffer. -/
def compressing : ConnectionOptions :=
  { getDefaultConnectionOptions with coalesceReliable := ⟨.streamCompressed, 10, 5⟩ }

/-- A message is sent before the peer has answered. -/
def sendingEarly : List (Timepoint × Input) := [(1, .user (.send [9] .reliable))]

/-- With a packet outstanding, and nothing waiting for compression, a failure closes. -/
theorem closed_fail_iff_oneOutstanding :
    let c' := fail storing 5 (userCalls storing 5 []) .timeout oneOutstanding
    c'.closed = true ∧ oneOutstanding.closeEvents ++ [.timeout] <+: c'.closeEvents ∧
      c'.finishTimeout.isSome = true := by
  obtain ⟨hclosed, hcalled, hsome⟩ :=
    ((closed_fail_iff (reachable_run immediate sendingOne)).1 5 .timeout []).mpr
      (by decide +kernel)
  exact ⟨hclosed, hcalled (by decide +kernel) (by decide +kernel), hsome⟩

/-- **A connection that never closes**: it fails while a message waits for compression.
Both directions are closed, nothing is outstanding and no packet waits, but it is not
closed, the close handler is not called and no end is scheduled. -/
theorem open_after_fail :
    let c := Machine.run (step storing) (connecting compressing) sendingEarly
    let c' := fail storing 2 (userCalls storing 2 []) .timeout c
    Reachable storing c ∧ c.userDataDisposed = false ∧ c.closeHandler = true ∧
      c'.sender.status = .closed ∧ c'.receiver.status = .closed ∧
      c'.sender.retrier.empty = true ∧ c'.sender.dataQueue.queue = [] ∧
      c'.closed = false ∧ c'.closeEvents = [] ∧ c'.finishTimeout = none := by
  intro c c'
  refine ⟨reachable_run compressing sendingEarly, ?_⟩
  decide +kernel

end Connection
end MrUDP
