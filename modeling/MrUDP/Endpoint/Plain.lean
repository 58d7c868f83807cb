import MrUDP.Endpoint.Endpoint

/-!
# Without encryption

The methods of an endpoint repeat those of `MrUDP.Connection.Connection`.  Where encryption is
compiled out they do the same to the connection, method by method, so a run of the endpoint is a
run of the connection.

## Main definitions

* `Endpoint.Plain`: the endpoint has no encryption, and this connection.
* `Endpoint.Alike`: two methods do the same.
* `Endpoint.alike_step`, `Endpoint.plain_run`: every step does, and every run.
-/

namespace MrUDP
namespace Endpoint
open Connection (Input Reactions)

/-- The endpoint has no encryption, and this connection. -/
def Plain (e : Endpoint) (c : Connection) : Prop := e.toConnection = c ∧ e.crypto = none

/-- Without encryption `f` does to the connection what `g` does. -/
def Alike (f : Endpoint → Endpoint) (g : Connection → Connection) : Prop :=
  ∀ ⦃e c⦄, Plain e c → Plain (f e) (g c)

variable {z : Zlib} {C : Cipher} {now : Timepoint} {e : Endpoint} {c : Connection}
  {react : Endpoint → Endpoint} {react' : Connection → Connection}

/-! ## Sending -/

theorem alike_send (packet : Packet) (address : Option Address) :
    Alike (fun e => (e.send C now packet address).2) (Connection.send now · packet address) := by
  rintro e _ ⟨rfl, h⟩
  simp only [send, Connection.send]
  rcases HandshakeOptions.onSend e.options packet with ⟨_ | _, packet'⟩
  · simp only [encrypt, h]
    exact ⟨rfl, h⟩
  · exact ⟨rfl, h⟩

theorem alike_transmit (since : ℕ) (t : Transmission) :
    Alike (transmit C now since · t) (Connection.transmit now · t) := by
  intro e c h
  simp only [transmit, Connection.transmit]
  split
  · obtain ⟨rfl, h⟩ := h
    exact ⟨rfl, h⟩
  · have hsend : Plain (e.send C now t.packet t.address).2 _ := alike_send _ _ h
    rw [hsend.2]
    exact hsend

theorem alike_transmits (since : ℕ) (ts : List Transmission) :
    Alike (ts.foldl (transmit C now since)) (ts.foldl (Connection.transmit now)) := by
  intro e c h
  induction ts generalizing e c with
  | nil => exact h
  | cons t ts ih => exact ih (alike_transmit since t h)

theorem Plain.env (h : Plain e c) : e.env z now = c.env z now := by
  obtain ⟨rfl, h⟩ := h
  simp only [Endpoint.env, Connection.env, canSend, h]

theorem alike_call (call : SenderCall) :
    Alike (Endpoint.call z C now · call) (Connection.call z now · call) := by
  intro e c h
  simp only [Endpoint.call, Connection.call, h.env]
  obtain ⟨rfl, h⟩ := h
  exact alike_transmits _ _ ⟨rfl, h⟩

/-! ## Opening and closing -/

theorem Alike.closeUser (hreact : Alike react react') (event : Event) :
    Alike (closeUser react event) (Connection.closeUser react' event) := by
  rintro e _ ⟨rfl, h⟩
  simp only [Endpoint.closeUser, Connection.closeUser]
  split
  · exact ⟨rfl, h⟩
  · split
    · exact hreact ⟨rfl, h⟩
    · exact ⟨rfl, h⟩

theorem Alike.closeWith (hreact : Alike react react') (event : Event) :
    Alike (closeWith now react event) (Connection.closeWith now react' event) := by
  rintro e _ ⟨rfl, h⟩
  rw [Endpoint.closeWith, Connection.closeWith]
  split
  · exact ⟨rfl, h⟩
  · have hclosed := hreact.closeUser event (e := note .closing { e with closed := true }) ⟨rfl, h⟩
    exact ⟨congrArg (Connection.finishWhenReady now) hclosed.1, hclosed.2⟩

theorem Alike.possiblyClose (hreact : Alike react react') :
    Alike (possiblyClose now react) (Connection.possiblyClose now react') := by
  rintro e _ ⟨rfl, h⟩
  rw [Endpoint.possiblyClose, Connection.possiblyClose]
  split
  · exact ⟨rfl, h⟩
  · split
    · exact hreact.closeWith _ ⟨rfl, h⟩
    · exact ⟨rfl, h⟩

theorem alike_closeReceiver :
    Alike (closeReceiver z C now) (Connection.closeReceiver z now) := by
  rintro e _ ⟨rfl, h⟩
  have hsend : e.canSend = e.toConnection.canSend := by rw [canSend, h]
  simp only [closeReceiver, Connection.closeReceiver, hsend]
  split
  · split
    · obtain ⟨hcall, hcrypto⟩ :
          Plain (e.sendReliably z C now { header := { type := TypeID.closeRead } }) _ :=
        alike_call _ ⟨rfl, h⟩
      exact ⟨congrArg (fun c : Connection =>
        { c with receiver := { c.receiver with status := .closed } }) hcall, hcrypto⟩
    · exact ⟨rfl, h⟩
  · exact ⟨rfl, h⟩

theorem Alike.close (hreact : Alike react react') :
    Alike (close z C now react) (Connection.close z now react') :=
  fun _ _ h => hreact.possiblyClose (alike_closeReceiver (alike_call .close h))

theorem Alike.fail (hreact : Alike react react') (event : Event) :
    Alike (fail z C now react event) (Connection.fail z now react' event) := by
  rintro e _ ⟨rfl, h⟩
  exact hreact.possiblyClose (alike_call .fail ⟨rfl, h⟩)

/-! ## The user -/

mutual

theorem alike_userCall :
    ∀ call, Alike (userCall z C now call) (Connection.userCall z now call)
  | .send data reliability => by
      intro e c h
      rw [userCall, Connection.userCall]
      exact alike_call _ h
  | .close onClose onCloseUser => by
      intro e c h
      rw [userCall, Connection.userCall]
      exact (alike_userCalls onCloseUser).closeUser _ ((alike_userCalls onClose).close h)
  | .accept options receiveHandler closeHandler => by
      rintro e _ ⟨rfl, h⟩
      simp only [userCall, Connection.userCall, openUser]
      split <;> exact ⟨rfl, h⟩
  | .setOptions options => by
      rintro e _ ⟨rfl, h⟩
      rw [userCall, Connection.userCall]
      exact ⟨rfl, h⟩

theorem alike_userCalls :
    ∀ calls, Alike (userCalls z C now calls) (Connection.userCalls z now calls)
  | [] => by
      intro e c h
      rwa [userCalls, Connection.userCalls]
  | call :: calls => by
      intro e c h
      rw [userCalls, Connection.userCalls]
      exact alike_userCalls calls (alike_userCall call h)

end

/-! ## Receiving -/

theorem Alike.carryOut (hreact : Alike react react') (call : ReceiverCall) :
    Alike (carryOut z C now react · call) (Connection.carryOut z now react' · call) := by
  intro e c h
  cases call with
  | ack packetID => exact alike_call _ h
  | onAck ack => exact hreact.possiblyClose (alike_call _ h)
  | receive data reliability =>
      obtain ⟨rfl, h⟩ := h
      simp only [Endpoint.carryOut, Connection.carryOut]
      split
      · exact hreact ⟨rfl, h⟩
      · exact ⟨rfl, h⟩
  | close => exact hreact.possiblyClose (alike_closeReceiver h)

theorem alike_carryOutAll (scripts : List (List UserCall)) (calls : List ReceiverCall) :
    Alike (carryOutAll z C now scripts calls) (Connection.carryOutAll z now scripts calls) := by
  intro e c h
  induction calls generalizing scripts e c with
  | nil => rwa [carryOutAll, Connection.carryOutAll]
  | cons call calls ih =>
      cases scripts with
      | nil =>
          rw [carryOutAll, Connection.carryOutAll]
          exact ih [] (Alike.carryOut (fun _ _ h => h) call h)
      | cons script scripts =>
          rw [carryOutAll, Connection.carryOutAll]
          exact ih scripts ((alike_userCalls script).carryOut call h)

theorem alike_complete (scripts : List (List UserCall)) (remoteID : ShortConnectionID)
    (first : PacketID) :
    Alike (complete z C now scripts · remoteID first)
      (Connection.complete z now scripts · remoteID first) := by
  rintro e _ ⟨rfl, h⟩
  exact alike_call .open (alike_carryOutAll scripts _ ⟨rfl, h⟩)

theorem alike_handlePacket (scripts : List (List UserCall)) (packet : Packet) :
    Alike (handlePacket z C now scripts · packet)
      (Connection.handlePacket z now scripts · packet) := by
  rintro e _ ⟨rfl, h⟩
  have hsend : ∀ packet, Plain (e.send C now packet).2 (e.toConnection.send now packet) :=
    fun packet => alike_send packet none ⟨rfl, h⟩
  simp only [handlePacket, Connection.handlePacket]
  split
  · simp only [← (hsend _).1]
    split <;> exact ⟨rfl, (hsend _).2⟩
  split
  · split
    · exact alike_call _ ⟨rfl, h⟩
    · exact ⟨rfl, h⟩
  split
  · simp only [← (hsend _).1]
    split
    · exact alike_complete _ _ _ ⟨rfl, (hsend _).2⟩
    · exact ⟨rfl, (hsend _).2⟩
  split
  · split
    · exact alike_complete _ _ _ ⟨rfl, h⟩
    · exact ⟨rfl, h⟩
  · exact ⟨rfl, h⟩

variable (z C now) in
theorem Plain.networkPathOnReceive (h : Plain e c) (packet : Packet) (path : Address) :
    ∃ result passed e' c', Plain e' c' ∧
      e.networkPathOnReceive z C now packet path = (result, passed, e') ∧
      c.networkPathOnReceive z now packet path = (result, passed, c') := by
  obtain ⟨rfl, h⟩ := h
  simp only [Endpoint.networkPathOnReceive, Connection.networkPathOnReceive]
  split
  · exact ⟨_, _, _, _, alike_send _ _ ⟨rfl, h⟩, rfl, rfl⟩
  split
  · split
    · have hverify : e.verifySignature C packet = true := by rw [verifySignature, h]
      simp only [verifyChallengeResponse, hverify, Bool.and_true]
      rcases NetworkPath.verifyChallengeResponse e.remoteAddress now packet path
        with ⟨_ | _, rest⟩
      · exact ⟨_, _, e, _, ⟨rfl, h⟩, rfl, rfl⟩
      · exact ⟨_, _, { e with remoteAddress := path }, _, ⟨rfl, h⟩, rfl, rfl⟩
    · -- Without encryption a challenge is not signed.
      have hchallenge (address : Option Address) :
          e.challenge C now address = NetworkPath.challenge now address := by
        rw [challenge, signature, h]
        rfl
      simp only [sendChallenge, hchallenge]
      exact ⟨_, _, _, _, alike_call _ (e := e.note (.challenged now path)) ⟨rfl, h⟩, rfl, rfl⟩
  · exact ⟨_, _, _, _, ⟨rfl, h⟩, rfl, rfl⟩

theorem Alike.senderOnReceive (hreact : Alike react react') (packet : Packet) :
    Alike (senderOnReceive z C now react · packet)
      (Connection.senderOnReceive z now react' · packet) := by
  intro e c h
  simp only [Endpoint.senderOnReceive, Connection.senderOnReceive]
  split
  · exact hreact.possiblyClose (alike_call _ h)
  split
  · exact hreact.possiblyClose (alike_call _ h)
  · exact h

theorem alike_receiverOnReceive (scripts : List (List UserCall)) (packet : Packet) :
    Alike (receiverOnReceive z C now scripts · packet)
      (Connection.receiverOnReceive z now scripts · packet) := by
  rintro e _ ⟨rfl, h⟩
  exact alike_carryOutAll scripts _ ⟨rfl, h⟩

theorem alike_accept (reactions : Reactions) (packet : Packet) :
    Alike (accept z C now reactions · packet) (Connection.accept z now reactions · packet) := by
  intro e c h
  have hshaken : Plain (handshakeOnReceive z C now reactions.opened e packet)
      (Connection.handshakeOnReceive z now reactions.opened c packet) := by
    rw [handshakeOnReceive, Connection.handshakeOnReceive]
    split
    · exact alike_handlePacket _ packet h
    · exact h
  simp only [accept, Connection.accept, ← hshaken.1]
  exact alike_receiverOnReceive _ _
    ((alike_userCalls _).senderOnReceive packet ⟨rfl, hshaken.2⟩)

theorem alike_receive (reactions : Reactions) (packet : Packet) (path : Address) :
    Alike (receive z C now reactions · packet path)
      (Connection.receive z now reactions · packet path) := by
  rintro e _ ⟨rfl, h⟩
  have hdecrypt : e.decrypt C packet = (.keep, packet, e) := by rw [decrypt, h]
  simp only [receive, Connection.receive, hdecrypt]
  rcases HandshakeOptions.onReceive e.options packet with ⟨_ | _, opened, options⟩
  · obtain ⟨result, passed, e', c', hplain, he, hc⟩ :=
      Plain.networkPathOnReceive z C now (e := { e with options := options }) ⟨rfl, h⟩ opened path
    simp only [he, hc]
    cases result with
    | keep => exact alike_accept reactions _ hplain
    | discard => exact hplain
  · exact ⟨rfl, h⟩

/-! ## Timeouts, steps and runs -/

theorem Alike.retryTimeout (hreact : Alike react react') :
    Alike (retryTimeout z C now react) (Connection.retryTimeout z now react') := by
  intro e c h
  rw [Endpoint.retryTimeout, Connection.retryTimeout, h.env]
  obtain ⟨rfl, h⟩ := h
  split
  · exact hreact.fail _ ⟨rfl, h⟩
  · exact alike_call _ ⟨rfl, h⟩

theorem Alike.probeTimeout (hreact : Alike react react') :
    Alike (probeTimeout z C now react) (Connection.probeTimeout z now react') := by
  rintro e _ ⟨rfl, h⟩
  simp only [Endpoint.probeTimeout, Connection.probeTimeout]
  split
  · exact ⟨rfl, h⟩
  split
  · split
    · exact alike_call _ ⟨rfl, h⟩
    · exact hreact.fail _ ⟨rfl, h⟩
  · exact ⟨rfl, h⟩

/-- **Without encryption a step is a step of the connection.** -/
theorem alike_step (input : Timepoint × Input) :
    Alike (step z C · input) (Connection.step z · input) := by
  intro e c h
  obtain ⟨now, input⟩ := input
  cases input with
  | user call => exact alike_userCall call h
  | receive packet path reactions => exact alike_receive reactions packet path h
  | processSchedule reliability => exact alike_call _ h
  | retryTimeout script => exact (alike_userCalls script).retryTimeout h
  | probeTimeout script => exact (alike_userCalls script).probeTimeout h
  | close event script => exact (alike_userCalls script).closeWith event h

/-- **Without encryption a run is a run of the connection.** -/
theorem plain_run (h : Plain e c) (inputs : List (Timepoint × Input)) :
    Plain (Machine.run (step z C) e inputs) (Machine.run (Connection.step z) c inputs) := by
  induction inputs generalizing e c with
  | nil => exact h
  | cons input inputs ih => exact ih (alike_step input h)

end Endpoint
end MrUDP
