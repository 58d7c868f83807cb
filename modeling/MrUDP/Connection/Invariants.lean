import MrUDP.Connection.Connection

/-!
# Invariants of a connection

A method of the connection is a sequence of a few kinds of changes, with the user's
handlers called in between.  This module walks through the methods once.

`KeepsCalls z free P` lists what `P` must be preserved by, at the level of the methods that
end with `possiblyClose`; it gives `P` after the calls of the user and after the calls of the
receiver.  `Keeps` adds the failures, and gives `P` after the timeouts.  `KeepsFront` adds the
handshake and the network path, and gives `P` in every reachable state.  `free` says
whether the user may change the options.

For a property that does not depend on `possiblyClose` being called, `keeps_of_change`
reduces `Keeps` to the elementary changes `Connection.Change`.

## Main definitions

* `UserCall.Within`: the user leaves the options alone.
* `Connection.KeepsCalls`, `Connection.Keeps`, `Connection.KeepsFront`: what has to be shown
  of an invariant.
* `Connection.KeepsFront.reachable`: it then holds in every reachable state.
* `Connection.Change`, `Connection.keeps_of_change`: elementary changes.
-/

namespace MrUDP
open Relation (ReflTransGen)
open Wire

/-! ## The user's calls -/

namespace UserCall

mutual

/-- The call leaves the options alone, unless they are free. -/
def Within (free : Prop) : UserCall → Prop
  | .send _ _ => True
  | .close onClose onCloseUser => WithinAll free onClose ∧ WithinAll free onCloseUser
  | .accept options _ _ => options = none ∨ free
  | .setOptions _ => free

/-- All the calls leave the options alone, unless they are free. -/
def WithinAll (free : Prop) : List UserCall → Prop
  | [] => True
  | call :: calls => Within free call ∧ WithinAll free calls

end

mutual

theorem within_true : ∀ call, Within True call
  | .send _ _ => trivial
  | .close onClose onCloseUser => ⟨withinAll_true onClose, withinAll_true onCloseUser⟩
  | .accept _ _ _ => .inr trivial
  | .setOptions _ => trivial

theorem withinAll_true : ∀ calls, WithinAll True calls
  | [] => trivial
  | call :: calls => ⟨within_true call, withinAll_true calls⟩

end

end UserCall

namespace Connection

/-- A packet a connection sends reliably of its own accord. -/
def IsControl (packet : Packet) : Prop :=
  packet.header.type = TypeID.probe ∨ packet.header.type = TypeID.closeRead

/-- What is to be shown of a property for the user's calls and the receiver's calls to
preserve it. -/
structure KeepsCalls (z : Zlib) (free : Prop) (P : Connection → Prop) : Prop where
  call : ∀ {c} now {call : SenderCall}, call.Quiet IsControl → P c → P (c.call z now call)
  onAck : ∀ {c} now {react} ack, (∀ c, P c → P (react c)) → P c →
    P (possiblyClose now react (c.call z now (.onAck ack)))
  closeReceiver : ∀ {c} now {react}, (∀ c, P c → P (react c)) → P c →
    P (possiblyClose now react (closeReceiver z now c))
  close : ∀ {c} now {react}, (∀ c, P c → P (react c)) → P c → P (close z now react c)
  closeUser : ∀ {c react} event, (∀ c, P c → P (react c)) → P c → P (closeUser react event c)
  closeWith : ∀ {c} now {react} event, (∀ c, P c → P (react c)) → P c →
    P (closeWith now react event c)
  register : ∀ {c} receiveHandler closeHandler, P c →
    P { c with userDataDisposed := false
               receiveHandler := receiveHandler
               closeHandler := closeHandler }
  options : ∀ {c} options, free → P c → P { c with options := options }
  deliver : ∀ {c} data, P c → P { c with delivered := c.delivered ++ [data] }
  probe : ∀ {c} probe, P c → P { c with probe := probe }
  queue : ∀ {c} queue buffer, P c →
    P { c with receiver :=
          { c.receiver with receiveQueue := queue, compressionBuffer := buffer } }

/-- What is left to show for the timeouts and for the peer's close. -/
structure Keeps (z : Zlib) (free : Prop) (P : Connection → Prop) : Prop
    extends KeepsCalls z free P where
  failSender : ∀ {c} now {react}, (∀ c, P c → P (react c)) → P c →
    P (possiblyClose now react (c.call z now .fail))
  fail : ∀ {c} now {react} event, (∀ c, P c → P (react c)) → P c →
    P (fail z now react event c)

section
variable {z : Zlib} {free : Prop} {P : Connection → Prop} (now : Timepoint) {c : Connection}

theorem KeepsCalls.openUser (h : KeepsCalls z free P) {options : Option ConnectionOptions}
    (hoptions : options = none ∨ free) (receiveHandler closeHandler : Bool) (hc : P c) :
    P (c.openUser options receiveHandler closeHandler) := by
  cases options with
  | none =>
      simp only [Connection.openUser]
      split
      · exact h.register _ _ hc
      · exact hc
  | some options =>
      have hmerged := h.options (merge options c.options) (hoptions.resolve_left (by simp)) hc
      simp only [Connection.openUser]
      split
      · exact h.register _ _ hmerged
      · exact hmerged

mutual

theorem KeepsCalls.userCall (h : KeepsCalls z free P) :
    ∀ call, UserCall.Within free call → ∀ c, P c → P (Connection.userCall z now call c)
  | .send data reliability, _, c, hc => by
      rw [Connection.userCall]
      exact h.call now trivial hc
  | .close onClose onCloseUser, hwithin, c, hc => by
      rw [Connection.userCall]
      apply h.closeUser _ (KeepsCalls.userCalls h onCloseUser hwithin.2)
      exact h.close now (KeepsCalls.userCalls h onClose hwithin.1) hc
  | .accept options receiveHandler closeHandler, hwithin, c, hc => by
      rw [Connection.userCall]
      exact h.openUser hwithin _ _ hc
  | .setOptions options, hfree, c, hc => by
      rw [Connection.userCall]
      exact h.options options hfree hc

theorem KeepsCalls.userCalls (h : KeepsCalls z free P) :
    ∀ calls, UserCall.WithinAll free calls → ∀ c, P c →
      P (Connection.userCalls z now calls c)
  | [], _, c, hc => by rwa [Connection.userCalls]
  | call :: calls, hwithin, c, hc => by
      rw [Connection.userCalls]
      apply KeepsCalls.userCalls h calls hwithin.2
      exact KeepsCalls.userCall h call hwithin.1 c hc

end

variable {react : Connection → Connection}

theorem KeepsCalls.carryOut (h : KeepsCalls z free P) (hreact : ∀ c, P c → P (react c)) (hc : P c)
    (call : ReceiverCall) : P (carryOut z now react c call) := by
  cases call with
  | ack packetID => exact h.call now trivial hc
  | onAck ack => exact h.onAck now ack hreact hc
  | receive data reliability =>
      rw [Connection.carryOut]
      split
      · exact hreact _ (h.deliver _ hc)
      · exact hc
  | close => exact h.closeReceiver now hreact hc

/-- The receiver's calls, whatever the handlers do. -/
theorem KeepsCalls.carryOutAll (h : KeepsCalls z free P) {scripts : List (List UserCall)}
    (hscripts : ∀ script ∈ scripts, UserCall.WithinAll free script)
    (calls : List ReceiverCall) (hc : P c) : P (carryOutAll z now scripts calls c) := by
  induction calls generalizing scripts c with
  | nil => simpa only [Connection.carryOutAll] using hc
  | cons call calls ih =>
      cases scripts with
      | nil =>
          rw [Connection.carryOutAll]
          apply ih (by simp)
          exact h.carryOut now (fun _ hc => hc) hc call
      | cons script scripts =>
          rw [Connection.carryOutAll]
          rw [List.forall_mem_cons] at hscripts
          apply ih hscripts.2
          exact h.carryOut now (h.userCalls now script hscripts.1) hc call

theorem Keeps.senderOnReceive (h : Keeps z free P) (hreact : ∀ c, P c → P (react c))
    (packet : Packet) (hc : P c) : P (senderOnReceive z now react c packet) := by
  rw [Connection.senderOnReceive]
  split
  · exact h.onAck now _ hreact hc
  · split
    · exact h.failSender now hreact hc
    · exact hc

/-- The receiver's calls start from the receiver with its queue and buffer moved on. -/
theorem receiverOnReceive_eq (scripts : List (List UserCall)) (c : Connection)
    (packet : Packet) :
    ∃ calls queue buffer, receiverOnReceive z now scripts c packet =
      Connection.carryOutAll z now scripts calls
        { c with receiver :=
          { c.receiver with receiveQueue := queue, compressionBuffer := buffer } } := by
  have hreceiver : ∃ queue buffer, (c.receiver.onReceive z packet).2 =
      { c.receiver with receiveQueue := queue, compressionBuffer := buffer } := by
    rw [Receiver.onReceive]
    split
    · exact ⟨_, _, rfl⟩
    · dsimp only
      split
      · exact ⟨_, _, rfl⟩
      · split
        · exact ⟨c.receiver.receiveQueue, _, rfl⟩
        · exact ⟨_, _, rfl⟩
  obtain ⟨queue, buffer, hreceiver⟩ := hreceiver
  refine ⟨(c.receiver.onReceive z packet).1, queue, buffer, ?_⟩
  rw [receiverOnReceive, ← hreceiver]

theorem KeepsCalls.receiverOnReceive (h : KeepsCalls z free P) {scripts : List (List UserCall)}
    (hscripts : ∀ script ∈ scripts, UserCall.WithinAll free script) (packet : Packet)
    (hc : P c) : P (receiverOnReceive z now scripts c packet) := by
  obtain ⟨calls, queue, buffer, hrun⟩ := receiverOnReceive_eq (z := z) now scripts c packet
  rw [hrun]
  exact h.carryOutAll now hscripts calls (h.queue queue buffer hc)

theorem Keeps.retryTimeout (h : Keeps z free P) (hreact : ∀ c, P c → P (react c)) (hc : P c) :
    P (retryTimeout z now react c) := by
  rw [Connection.retryTimeout]
  split
  · exact h.fail now _ hreact hc
  · exact h.call now trivial hc

theorem KeepsCalls.sendControl (h : KeepsCalls z free P) {packet : Packet}
    (hpacket : IsControl packet) (hc : P c) : P (c.sendReliably z now packet) :=
  h.call now (MultiPacketPath.forall_front hpacket) hc

theorem Keeps.probeTimeout (h : Keeps z free P) (hreact : ∀ c, P c → P (react c)) (hc : P c) :
    P (probeTimeout z now react c) := by
  rw [Connection.probeTimeout]
  split
  · exact hc
  · dsimp only
    split
    · split
      · exact h.sendControl now (.inl rfl) (h.probe _ hc)
      · exact h.fail now _ hreact (h.probe _ hc)
    · exact h.probe _ hc

end

/-! ## The handshake and the network path -/

/-- The user's handlers leave the options alone, unless they are free. -/
def Reactions.Within (free : Prop) (reactions : Reactions) : Prop :=
  (∀ script ∈ reactions.opened, UserCall.WithinAll free script) ∧
    UserCall.WithinAll free reactions.acked ∧
    ∀ script ∈ reactions.received, UserCall.WithinAll free script

/-- The user leaves the options alone, unless they are free. -/
def Input.Within (free : Prop) : Input → Prop
  | .user call => UserCall.Within free call
  | .receive _ _ reactions => reactions.Within free
  | .processSchedule _ => True
  | .retryTimeout script | .probeTimeout script | .close _ script =>
      UserCall.WithinAll free script

/-- The packets received are of the types that are heard. -/
def Input.Hears (heard : TypeID → Prop) : Input → Prop
  | .receive packet _ _ => heard packet.header.type
  | _ => True

/-- A packet the handshake and the network path send reliably.  Only who hears H1 initiates
a handshake. -/
def IsRequest (heard : TypeID → Prop) (packet : Packet) : Prop :=
  (packet.header.type = TypeID.h0 ∨ packet.header.type = TypeID.h2) ∧ heard TypeID.h1 ∨
    packet.header.type = TypeID.authenticateChallenge

/-- A packet the handshake and the network path answer with, given what is heard. -/
def IsAnswer (heard : TypeID → Prop) (packet : Packet) : Prop :=
  packet.header.type = TypeID.h1 ∧ heard TypeID.h0 ∨
    packet.header.type = TypeID.h3 ∧ heard TypeID.h2 ∨
    packet.header.type = TypeID.authenticateResponse

/-- What is left to show for every step: the handshake and the network path. -/
structure KeepsFront (z : Zlib) (free : Prop) (heard : TypeID → Prop) (P : Connection → Prop) :
    Prop extends Keeps z free P where
  negotiate : ∀ {c} options, heard TypeID.h3 → P c → P { c with options := options }
  send : ∀ {c} now {packet}, IsAnswer heard packet → P c → P (c.send now packet)
  sendReliably : ∀ {c} now {paths : MultiPacketPath} priority,
    (∀ path ∈ paths.toList, IsRequest heard path.packet) → P c →
    P (c.call z now (.sendReliably paths priority))
  waitingFor : ∀ {c} (type : TypeID), heard TypeID.h0 ∨ heard TypeID.h1 →
    type ≠ TypeID.handshakeComplete → c.handshake.waitingFor ≠ TypeID.handshakeComplete → P c →
    P { c with handshake := { c.handshake with waitingFor := type } }
  complete : ∀ {c} now {scripts : List (List UserCall)} remoteID first,
    heard TypeID.h2 ∨ heard TypeID.h3 → (∀ script ∈ scripts, UserCall.WithinAll free script) →
    c.handshake.waitingFor ≠ TypeID.handshakeComplete → P c →
    P (complete z now scripts c remoteID first)
  remoteAddress : ∀ {c} address, P c → P { c with remoteAddress := address }

/-- What is to be shown of a property that holds in every reachable state. -/
abbrev KeepsAll (z : Zlib) (P : Connection → Prop) : Prop :=
  KeepsFront z True (fun _ => True) P

theorem isRequest_challenge (heard : TypeID → Prop) (now : Timepoint)
    (address : Option Address) : IsRequest heard (NetworkPath.challenge now address) := by
  right
  simp only [NetworkPath.challenge, header_pushSizedData]

/-- The network path takes a response off the packet, and nothing else. -/
theorem header_verifyChallengeResponse (remoteAddress : Address) (now : Timepoint)
    (packet : Packet) (path : Address) :
    (NetworkPath.verifyChallengeResponse remoteAddress now packet path).2.header =
      packet.header := by
  have hfirst := header_popSizedData packet
  rw [NetworkPath.verifyChallengeResponse]
  split
  next h => rwa [h] at hfirst
  next packet' h =>
    rw [h] at hfirst
    have hsecond := header_popSizedData packet'
    split
    next h' =>
      rw [h'] at hsecond
      exact hsecond.trans hfirst
    next h' =>
      rw [h'] at hsecond
      split
      · exact hsecond.trans hfirst
      · dsimp only
        split
        · exact hsecond.trans hfirst
        · split <;> exact hsecond.trans hfirst

theorem header_onReceive (options : ConnectionOptions) (packet : Packet) :
    (HandshakeOptions.onReceive options packet).2.1.header = packet.header := by
  rw [HandshakeOptions.onReceive]
  split
  · split
    · rfl
    next h => exact header_popData h
  · rfl

theorem header_networkPathOnReceive (z : Zlib) (now : Timepoint) (c : Connection)
    (packet : Packet) (path : Address) :
    (networkPathOnReceive z now c packet path).2.1.header = packet.header := by
  have hverify := header_verifyChallengeResponse c.remoteAddress now packet path
  rw [networkPathOnReceive]
  split
  · rfl
  · split
    · split
      · split
        next h => rwa [h] at hverify
        next h => rwa [h] at hverify
      · rfl
    · rfl

section
variable {z : Zlib} {free : Prop} {heard : TypeID → Prop} {P : Connection → Prop}
  (now : Timepoint) {c : Connection}

variable {packet : Packet}

theorem KeepsFront.request (h : KeepsFront z free heard P) (hpacket : IsRequest heard packet)
    (hc : P c) : P (c.sendReliably z now packet) :=
  h.sendReliably now false (MultiPacketPath.forall_front hpacket) hc

theorem KeepsFront.handshakeOnReceive (h : KeepsFront z free heard P)
    {scripts : List (List UserCall)} (hscripts : ∀ script ∈ scripts, UserCall.WithinAll free script)
    (hheard : heard packet.header.type) (hc : P c) :
    P (handshakeOnReceive z now scripts c packet) := by
  rw [Connection.handshakeOnReceive]
  split
  swap
  · exact hc
  rw [handlePacket]
  split
  next htype =>
    rw [htype] at hheard
    have hsend : P (c.send now { header := { type := TypeID.h1, id := packet.header.id } }) :=
      h.send now (.inl ⟨rfl, hheard⟩) hc
    dsimp only
    split
    next hwaiting =>
      exact h.waitingFor _ (.inl hheard) (by decide) (by rw [hwaiting]; decide) hsend
    · exact hsend
  · split
    next htype =>
      rw [htype] at hheard
      split
      next hwaiting =>
        apply h.request now
        · exact .inl ⟨.inr (by rw [header_pushValue]), hheard⟩
        · exact h.waitingFor _ (.inr hheard) (by decide) (by rw [hwaiting]; decide) hc
      · exact hc
    · split
      next htype =>
        rw [htype] at hheard
        have hsend : P (c.send now (pushValue
            { header := { type := TypeID.h3, id := packet.header.id } }
            (leBytes 2 c.localID.toNat)).2) :=
          h.send now (.inr (.inl ⟨by rw [header_pushValue], hheard⟩)) hc
        dsimp only
        split
        next hwaiting =>
          exact h.complete now _ _ (.inl hheard) hscripts (by rw [hwaiting]; decide) hsend
        · exact hsend
      · split
        next htype =>
          rw [htype] at hheard
          dsimp only
          split
          next hwaiting =>
            exact h.complete now _ _ (.inr hheard) hscripts (by rw [hwaiting]; decide) hc
          · exact hc
        · exact hc

theorem KeepsFront.accept (h : KeepsFront z free heard P) {reactions : Reactions}
    (hreactions : reactions.Within free) (hheard : heard packet.header.type) (hc : P c) :
    P (accept z now reactions c packet) := by
  apply h.receiverOnReceive now hreactions.2.2
  apply h.senderOnReceive now (h.userCalls now _ hreactions.2.1)
  apply h.probe
  exact h.handshakeOnReceive now hreactions.1 hheard hc

theorem KeepsFront.networkPathOnReceive (h : KeepsFront z free heard P) (packet : Packet)
    (path : Address) (hc : P c) : P (networkPathOnReceive z now c packet path).2.2 := by
  rw [Connection.networkPathOnReceive]
  split
  · dsimp only
    apply h.send now _ hc
    exact .inr (.inr rfl)
  · split
    · split
      · split
        · exact h.remoteAddress path hc
        · exact hc
      · apply h.sendReliably now _ _ hc
        have hrequest := isRequest_challenge heard now
        generalize NetworkPath.challenge now = challenge at hrequest ⊢
        exact MultiPacketPath.forall_both (hrequest none) (hrequest (some path))
    · exact hc

theorem KeepsFront.receive (h : KeepsFront z free heard P) {reactions : Reactions}
    (hreactions : reactions.Within free) (hheard : heard packet.header.type) (path : Address)
    (hc : P c) : P (receive z now reactions c packet path) := by
  have hheader := header_onReceive c.options packet
  have hoptions : P { c with options := (HandshakeOptions.onReceive c.options packet).2.2 } := by
    by_cases htype : packet.header.type = TypeID.h3
    · rw [htype] at hheard
      exact h.negotiate _ hheard hc
    · rw [HandshakeOptions.onReceive, if_neg htype]
      exact hc
  rw [Connection.receive]
  split
  · exact hc
  next packet' options hnegotiated =>
    rw [hnegotiated] at hheader hoptions
    have hheader' := header_networkPathOnReceive z now { c with options := options } packet' path
    have hpath := h.networkPathOnReceive now packet' path hoptions
    split
    next hrun =>
      rw [hrun] at hpath
      exact hpath
    next hrun =>
      rw [hrun] at hpath hheader'
      apply h.accept now hreactions _ hpath
      rwa [hheader'.trans hheader]

/-- **A step keeps the property.** -/
theorem KeepsFront.step (h : KeepsFront z free heard P) {input : Timepoint × Input}
    (hwithin : input.2.Within free) (hheard : input.2.Hears heard) (hc : P c) :
    P (step z c input) := by
  obtain ⟨now, input⟩ := input
  cases input with
  | user call => exact h.userCall now call hwithin c hc
  | receive packet path reactions => exact h.receive now hwithin hheard path hc
  | processSchedule reliability => exact h.call now trivial hc
  | retryTimeout script => exact h.retryTimeout now (h.userCalls now script hwithin) hc
  | probeTimeout script => exact h.probeTimeout now (h.userCalls now script hwithin) hc
  | close event script => exact h.closeWith now event (h.userCalls now script hwithin) hc

/-- The user may do anything. -/
theorem Reactions.within_true (reactions : Reactions) : reactions.Within True :=
  ⟨fun script _ => UserCall.withinAll_true script, UserCall.withinAll_true _,
    fun script _ => UserCall.withinAll_true script⟩

theorem Input.within_true (input : Input) : input.Within True := by
  cases input with
  | user call => exact UserCall.within_true call
  | receive packet path reactions => exact reactions.within_true
  | processSchedule => trivial
  | retryTimeout script | probeTimeout script | close event script =>
      exact UserCall.withinAll_true script

/-- Anything may be heard. -/
theorem Input.hears_true (input : Input) : input.Hears fun _ => True := by
  cases input <;> trivial

theorem KeepsFront.run (h : KeepsAll z P) (inputs : List (Timepoint × Input)) (hc : P c) :
    P (Machine.run (Connection.step z) c inputs) :=
  Machine.run_invariant_of_step P
    (fun _ input hc => h.step (Input.within_true input.2) (Input.hears_true input.2) hc) hc inputs

theorem KeepsFront.started (h : KeepsAll z P)
    (hfresh : ∀ id localID remoteAddress options, P (fresh id localID remoteAddress options))
    (hc : Started z c) : P c := by
  cases hc with
  | created => exact h.probe _ (hfresh _ _ _ _)
  | connected id localID remoteAddress socketOptions now options receiveHandler closeHandler =>
      have hstart : P (start now ((fresh id localID remoteAddress socketOptions).openUser
          options receiveHandler closeHandler)) :=
        h.probe _ (h.openUser (.inr trivial) _ _ (hfresh _ _ _ _))
      rw [connect, initiate]
      refine h.waitingFor _ (.inl trivial) (by decide) ?_
        (h.request now (.inl ⟨.inl rfl, trivial⟩) hstart)
      rw [Connection.sendReliably, handshake_call, start]
      dsimp only
      rw [handshake_openUser]
      show TypeID.h0 ≠ TypeID.handshakeComplete
      decide

/-- **The property holds in every reachable state.** -/
theorem KeepsFront.reachable (h : KeepsAll z P)
    (hfresh : ∀ id localID remoteAddress options, P (fresh id localID remoteAddress options))
    (hc : Reachable z c) : P c := by
  obtain ⟨c₀, inputs, hstarted, rfl⟩ := hc
  exact h.run inputs (h.started hfresh hstarted)

end

/-! ## Elementary changes -/

/-- The elementary changes behind the handshake and the network path. -/
inductive Change (z : Zlib) : Connection → Connection → Prop
  | sender (c : Connection) (now : Timepoint) {s : Sender}
      (h : Sender.Change (c.env z now) IsControl c.sender s) : Change z c { c with sender := s }
  | flush (c : Connection) (now : Timepoint) : Change z c (c.flush now)
  | probe (c : Connection) (probe : Probe) : Change z c { c with probe := probe }
  | receiver (c : Connection) {r : Receiver}
      (h : r.status = c.receiver.status ∨ r.status = .closed) :
      Change z c { c with receiver := r }
  | user (c : Connection) (receiveHandler closeHandler closed userDataDisposed : Bool)
      (closeReason : Event) (finishTimeout : Option Timepoint)
      (delivered : List (Bytes × Reliability)) (closeEvents : List Event)
      (hclosed : c.closed = true → closed = true) (hevents : c.closeEvents <+: closeEvents) :
      Change z c { c with
        receiveHandler := receiveHandler
        closeHandler := closeHandler
        closed := closed
        userDataDisposed := userDataDisposed
        closeReason := closeReason
        finishTimeout := finishTimeout
        delivered := delivered
        closeEvents := closeEvents }

section
variable {z : Zlib} {P : Connection → Prop}

/-- A sender that only goes through changes `P` is preserved by. -/
theorem sender_of_changes {ok : Packet → Prop} {c : Connection} {now : Timepoint} {s : Sender}
    (hchange : ∀ c s', Sender.Change (c.env z now) ok c.sender s' → P c →
      P { c with sender := s' })
    (hs : ReflTransGen (Sender.Change (c.env z now) ok) c.sender s) (hc : P c) :
    P { c with sender := s } := by
  induction hs with
  | refl => exact hc
  | @tail s₁ s₂ _ hstep ih => exact hchange { c with sender := s₁ } s₂ hstep ih

/-- `P` is kept when only what the user sees of the connection changes. -/
def KeepsUser (P : Connection → Prop) : Prop :=
  ∀ (c : Connection) (receiveHandler closeHandler closed userDataDisposed : Bool)
    (finishTimeout : Option Timepoint) (closeEvents : List Event),
    (c.closed = true → closed = true) → c.closeEvents <+: closeEvents → P c →
    P { c with
      receiveHandler := receiveHandler
      closeHandler := closeHandler
      closed := closed
      userDataDisposed := userDataDisposed
      finishTimeout := finishTimeout
      closeEvents := closeEvents }

section
variable {react : Connection → Connection} (huser : KeepsUser P)
include huser

theorem closeUser_of_user {c : Connection} (event : Event) (hreact : ∀ c, P c → P (react c))
    (hc : P c) : P (closeUser react event c) := by
  rw [closeUser]
  split
  · exact hc
  · dsimp only
    split
    · apply hreact
      exact huser c false false c.closed true c.finishTimeout (c.closeEvents ++ [event])
        (fun h => h) (List.prefix_append _ _) hc
    · exact huser c false false c.closed true c.finishTimeout c.closeEvents (fun h => h)
        (List.prefix_refl _) hc

theorem closeWith_of_user {c : Connection} (now : Timepoint) (event : Event)
    (hreact : ∀ c, P c → P (react c)) (hc : P c) : P (closeWith now react event c) := by
  rw [closeWith]
  split
  · exact hc
  · have hclosed := huser c c.receiveHandler c.closeHandler true c.userDataDisposed
      c.finishTimeout c.closeEvents (fun _ => rfl) (List.prefix_refl _) hc
    have hevent := closeUser_of_user huser event hreact hclosed
    exact huser _ _ _ _ _ (some _) _ (fun h => h) (List.prefix_refl _) hevent

theorem possiblyClose_of_user {c : Connection} (now : Timepoint) (hreact : ∀ c, P c → P (react c))
    (hc : P c) : P (possiblyClose now react c) := by
  rw [possiblyClose]
  split
  · exact hc
  · split
    · exact closeWith_of_user huser now _ hreact hc
    · exact hc

end

variable (hchange : ∀ c c', Change z c c' → P c → P c')
include hchange

/-- A call on the sender is a sequence of changes of the sender, and then a flush. -/
theorem call_of_change {c : Connection} (now : Timepoint) {call : SenderCall}
    (hcall : call.Sends IsControl) (hc : P c) : P (c.call z now call) := by
  apply hchange _ _ (.flush _ now)
  exact sender_of_changes (fun c s' h => hchange _ _ (.sender c now h))
    (Sender.call_changes hcall) hc

theorem closeReceiver_of_change {c : Connection} (now : Timepoint) (hc : P c) :
    P (closeReceiver z now c) := by
  rw [closeReceiver]
  split
  · apply hchange _ _ (.receiver _ (.inr rfl))
    split
    · exact call_of_change hchange now (MultiPacketPath.forall_front (.inr rfl)) hc
    · exact hc
  · exact hc

/-- **Elementary changes are enough**, for a property that does not depend on
`possiblyClose`. -/
theorem keeps_of_change {free : Prop}
    (hoptions : ∀ {c : Connection} (options : ConnectionOptions), free → P c →
      P { c with options := options }) : Keeps z free P := by
  have huser : KeepsUser P :=
    fun c _ _ _ _ _ _ hclosed hevents hc => hchange _ _ (.user c _ _ _ _ _ _ _ _ hclosed hevents) hc
  have hpossibly : ∀ {c : Connection} (now : Timepoint) {react : Connection → Connection},
      (∀ c, P c → P (react c)) → P c → P (possiblyClose now react c) :=
    fun now => possiblyClose_of_user huser now
  exact {
    call := by
      intro c now call hcall hc
      apply call_of_change hchange now _ hc
      cases call with
      | sendReliably paths priority => exact hcall
      | «open» | send | ack | processSchedule | retryTimeout => trivial
      | close | fail | onAck => exact hcall.elim
    onAck := by
      intro c now react ack hreact hc
      apply hpossibly now hreact
      exact call_of_change hchange now (show SenderCall.Sends _ (.onAck ack) from trivial) hc
    failSender := by
      intro c now react hreact hc
      apply hpossibly now hreact
      exact call_of_change hchange now (show SenderCall.Sends _ .fail from trivial) hc
    fail := by
      intro c now react event hreact hc
      have hreason := hchange _ _ (.user c c.receiveHandler c.closeHandler c.closed
        c.userDataDisposed event c.finishTimeout c.delivered c.closeEvents (fun h => h)
        (List.prefix_refl _)) hc
      have hprobe := hchange _ _ (.probe _ c.probe.close) hreason
      have hreceiver := hchange _ _
        (.receiver _ (r := { c.receiver with status := .closed }) (.inr rfl)) hprobe
      apply hpossibly now hreact
      exact call_of_change hchange now (show SenderCall.Sends _ .fail from trivial) hreceiver
    closeReceiver := by
      intro c now react hreact hc
      exact hpossibly now hreact (closeReceiver_of_change hchange now hc)
    close := by
      intro c now react hreact hc
      apply hpossibly now hreact
      apply closeReceiver_of_change hchange now
      exact call_of_change hchange now (show SenderCall.Sends _ .close from trivial) hc
    closeUser := closeUser_of_user huser
    closeWith := fun now => closeWith_of_user huser now
    register := fun _ _ hc => huser _ _ _ _ _ _ _ (fun h => h) (List.prefix_refl _) hc
    options := hoptions
    deliver := fun _ hc =>
      hchange _ _ (.user _ _ _ _ _ _ _ _ _ (fun h => h) (List.prefix_refl _)) hc
    probe := fun probe hc => hchange _ _ (.probe _ probe) hc
    queue := fun _ _ hc => hchange _ _ (.receiver _ (.inl rfl)) hc }

end

/-- What no elementary change touches stays as it is. -/
theorem keeps_of_frame {z : Zlib} {free : Prop} {P : Connection → Prop}
    (hframe : ∀ {c c' : Connection}, P c → c'.id = c.id → c'.localID = c.localID →
      c'.remoteID = c.remoteID → c'.remoteAddress = c.remoteAddress →
      c'.handshake = c.handshake → P c') : Keeps z free P := by
  refine keeps_of_change ?_ fun _ _ hc => hframe hc rfl rfl rfl rfl rfl
  intro c c' h hc
  cases h with
  | flush now =>
      obtain ⟨probe, hflush⟩ := flush_eq now c
      rw [hflush]
      exact hframe hc rfl rfl rfl rfl rfl
  | sender | probe | receiver | user => exact hframe hc rfl rfl rfl rfl rfl

/-- A property of the sender alone that every call but `fail` preserves. -/
theorem keepsCalls_of_call {z : Zlib} {free : Prop} {Q : Sender → Prop}
    (hcall : ∀ (c : Connection) (now : Timepoint) (call : SenderCall), call ≠ .fail →
      Q c.sender → Q (c.call z now call).sender) :
    KeepsCalls z free fun c => Q c.sender := by
  have hpossibly : ∀ {c : Connection} (now : Timepoint) {react : Connection → Connection},
      (∀ c, Q c.sender → Q (react c).sender) → Q c.sender →
      Q (possiblyClose now react c).sender :=
    fun now => possiblyClose_of_user (fun _ _ _ _ _ _ _ _ _ hc => hc) now
  have hclose : ∀ (c : Connection) (now : Timepoint), Q c.sender →
      Q (closeReceiver z now c).sender := by
    intro c now hc
    rw [closeReceiver]
    split
    · dsimp only
      split
      · exact hcall _ now _ (by simp) hc
      · exact hc
    · exact hc
  exact {
    call := by
      intro c now call hquiet hc
      apply hcall c now call _ hc
      rintro rfl
      exact hquiet
    onAck := fun now _ _ hreact hc => hpossibly now hreact (hcall _ now _ (by simp) hc)
    closeReceiver := fun now _ hreact hc => hpossibly now hreact (hclose _ now hc)
    close := fun now _ hreact hc =>
      hpossibly now hreact (hclose _ now (hcall _ now _ (by simp) hc))
    closeUser := closeUser_of_user fun _ _ _ _ _ _ _ _ _ hc => hc
    closeWith := fun now => closeWith_of_user (fun _ _ _ _ _ _ _ _ _ hc => hc) now
    register := fun _ _ hc => hc
    options := fun _ _ hc => hc
    deliver := fun _ hc => hc
    probe := fun _ hc => hc
    queue := fun _ _ hc => hc }

/-- A packet a connection sends reliably without going through a queue. -/
def IsReliable (packet : Packet) : Prop :=
  IsControl packet ∨ IsRequest (fun _ => True) packet

/-- A property that does not depend on the options, the handshake and the address, and that the
calls on the sender keep. -/
theorem Keeps.front {z : Zlib} {heard : TypeID → Prop} {P : Connection → Prop} (h : Keeps z True P)
    (hcall : ∀ {c : Connection} (now : Timepoint) {call : SenderCall}, call.Sends IsReliable →
      P c → P (c.call z now call))
    (hsend : ∀ {c : Connection} (now : Timepoint) {packet : Packet}, IsAnswer heard packet →
      P c → P (c.send now packet))
    (hframe : ∀ {c : Connection} (options : ConnectionOptions) (remoteID : ShortConnectionID)
      (handshake : Handshake) (receiver : Receiver) (remoteAddress : Address), P c →
      P { c with
        options := options
        remoteID := remoteID
        handshake := handshake
        receiver := receiver
        remoteAddress := remoteAddress }) : KeepsFront z True heard P :=
  { h with
    negotiate := fun _ _ hc => hframe _ _ _ _ _ hc
    send := fun now _ hpacket hc => hsend now hpacket hc
    sendReliably := fun now _ _ hpaths hc => hcall now (fun path hp =>
      .inr ((hpaths path hp).imp_left fun hrequest => ⟨hrequest.1, trivial⟩)) hc
    waitingFor := fun _ _ _ _ hc => hframe _ _ _ _ _ hc
    complete := fun {c} now _ _ _ _ hscripts _ hc =>
      hcall now (show SenderCall.Sends _ .open from trivial)
        (h.carryOutAll now hscripts _ (hframe (c := c) _ _ _ _ _ hc))
    remoteAddress := fun _ hc => hframe _ _ _ _ _ hc }

/-- **A property of the sender alone** is kept by every step if it is kept by every
change of the sender. -/
theorem keepsFront_of_sender {z : Zlib} {Q : Sender → Prop}
    (hchange : ∀ e s s', Sender.Change e IsReliable s s' → Q s → Q s')
    (houtbox : ∀ s : Sender, Q s → Q { s with outbox := [] }) :
    KeepsAll z fun c => Q c.sender := by
  have hflush : ∀ (c : Connection) (now : Timepoint), Q c.sender → Q (c.flush now).sender := by
    intro c now hc
    obtain ⟨probe, hflush⟩ := flush_eq now c
    rw [hflush]
    exact houtbox _ hc
  have hkeeps : Keeps z True fun c => Q c.sender := by
    refine keeps_of_change ?_ fun _ _ hc => hc
    intro c c' h hc
    cases h with
    | sender now h => exact hchange _ _ _ (h.mono fun _ => .inl) hc
    | flush now => exact hflush c now hc
    | probe | receiver | user => exact hc
  have hcall : ∀ (c : Connection) (now : Timepoint) (call : SenderCall),
      call.Sends IsReliable → Q c.sender → Q (c.call z now call).sender := by
    intro c now call hsends hc
    apply hflush
    exact sender_of_changes (P := fun c => Q c.sender) (fun c s' h => hchange _ _ _ h)
      (Sender.call_changes hsends) hc
  exact hkeeps.front (fun now _ hsends hc => hcall _ now _ hsends hc)
    (fun _ _ _ hc => by rwa [send_eq]) fun _ _ _ _ _ hc => hc

end Connection
end MrUDP
