import MrUDP.Endpoint.Endpoint
import MrUDP.Connection.Invariants

/-!
# What holds between an endpoint before and after

A method of the endpoint is a sequence of a few kinds of changes, with the user's handlers
called in between.  This module walks through the methods once, for a relation between the
endpoint before and after: `Walk z C echo R` lists the changes that `R` must allow, and gives
`R` for every method behind the decryption and the network path.  `WalkAll` adds these two, and
gives `R` for every step.

`echo` bounds the challenges that are sent back.

## Main definitions

* `Endpoint.Walk`, `Endpoint.WalkAll`: what has to be shown of the relation.
* `Endpoint.Inert`: what does not touch the network.
* `Endpoint.Walk.accept`, `Endpoint.WalkAll.step`: it then holds across a reception, a step.
-/

namespace MrUDP
open Wire
open Connection (Input Reactions)

/-- What the user learns of. -/
def Notification.isUsers : Notification → Bool
  | .registered _ _ | .delivered _ _ | .closing | .closed _ | .scheduled _ | .returned => true
  | .challenged _ _ | .encrypted _ _ | .faulted _ => false

namespace Endpoint

/-- A packet that a connection sends past its queues. -/
def IsOwn (packet : Packet) : Prop :=
  packet.data.length ≤ 72 ∧ packet.header.type ≠ TypeID.encryptedViaAES ∧
    packet.header.type ≠ TypeID.encryptedViaPublicKey

theorem isOwn_of_type {type : TypeID}
    (htype : type ≠ TypeID.encryptedViaAES ∧ type ≠ TypeID.encryptedViaPublicKey) (id : PacketID)
    {data : Bytes} (hdata : data.length ≤ 72) :
    IsOwn { header := { type := type, id := id }, data := data } := ⟨hdata, htype⟩

/-- What is to be shown of a relation for it to hold across every method behind the decryption
and the network path. -/
structure Walk (z : Zlib) (C : Cipher) (echo : Bytes → Prop) (R : Endpoint → Endpoint → Prop) :
    Prop where
  refl : ∀ e, R e e
  trans : ∀ {e₁ e₂ e₃}, R e₁ e₂ → R e₂ e₃ → R e₁ e₃
  call : ∀ e now {call : SenderCall}, call.Sends IsOwn → R e (e.call z C now call)
  send : ∀ e now {packet}, IsOwn packet ∨
    packet.header.type = TypeID.authenticateResponse ∧ echo packet.data →
    R e (e.send C now packet).2
  silent : ∀ (e : Endpoint) remoteID options handshake receiver probe closeReason,
    R e { e with
      remoteID := remoteID
      options := options
      handshake := handshake
      receiver := receiver
      probe := probe
      closeReason := closeReason }
  openUser : ∀ e options receiveHandler closeHandler,
    R e (e.openUser options receiveHandler closeHandler)
  deliver : ∀ {e : Endpoint} {react : Endpoint → Endpoint} data reliability, (∀ e, R e (react e)) →
    e.receiveHandler = true →
    R e (react (note (.delivered data reliability)
      { e with delivered := e.delivered ++ [(data, reliability)] }))
  closeUser : ∀ {e} {react : Endpoint → Endpoint} event, (∀ e, R e (react e)) →
    R e (closeUser react event e)
  closeWith : ∀ {e} now {react : Endpoint → Endpoint} event, (∀ e, R e (react e)) →
    R e (closeWith now react event e)
  leave : ∀ {e} {react : Endpoint → Endpoint}, (∀ e, R e (react e)) →
    R e (note .returned (Endpoint.closeUser react .closed e))

section
variable {z : Zlib} {C : Cipher} {echo : Bytes → Prop} {R : Endpoint → Endpoint → Prop}
  {e : Endpoint} {react : Endpoint → Endpoint}

/-! ## What does not touch the network -/

/-- Nothing is sent, and only what the user learns of is recorded. -/
structure Inert (e e' : Endpoint) : Prop where
  sender : e'.sender = e.sender
  crypto : e'.crypto = e.crypto
  transmitted : e'.transmitted = e.transmitted
  remoteAddress : e'.remoteAddress = e.remoteAddress
  log : ∃ notes, e'.log = e.log ++ notes ∧ ∀ n ∈ notes, n.isUsers = true

theorem Inert.of_eq {e' : Endpoint} (hsender : e'.sender = e.sender) (hcrypto : e'.crypto = e.crypto)
    (htransmitted : e'.transmitted = e.transmitted)
    (haddress : e'.remoteAddress = e.remoteAddress) (hlog : e'.log = e.log) : Inert e e' :=
  ⟨hsender, hcrypto, htransmitted, haddress, [], by rw [hlog, List.append_nil], by simp⟩

theorem inert_note {n : Notification} (hn : n.isUsers = true) (e : Endpoint) :
    Inert e (e.note n) :=
  ⟨rfl, rfl, rfl, rfl, [n], rfl, by simpa using hn⟩

theorem inert_openUser (e : Endpoint) (options : Option ConnectionOptions)
    (receiveHandler closeHandler : Bool) :
    Inert e { e with
      toConnection := e.toConnection.openUser options receiveHandler closeHandler } := by
  cases options <;> cases hdisposed : e.userDataDisposed <;>
    exact .of_eq (by simp [Connection.openUser, hdisposed]) rfl
      (by simp [Connection.openUser, hdisposed]) (by simp [Connection.openUser, hdisposed]) rfl

/-- A relation that allows what does not touch the network allows what the user's handlers are
called for. -/
theorem walk_of_inert (refl : ∀ e, R e e) (trans : ∀ {e₁ e₂ e₃}, R e₁ e₂ → R e₂ e₃ → R e₁ e₃)
    (call : ∀ e now {call : SenderCall}, call.Sends IsOwn → R e (e.call z C now call))
    (send : ∀ e now {packet}, IsOwn packet ∨
      packet.header.type = TypeID.authenticateResponse ∧ echo packet.data →
      R e (e.send C now packet).2)
    (inert : ∀ {e e'}, Inert e e' → R e e') : Walk z C echo R := by
  have hcloseUser : ∀ {e react} event, (∀ e, R e (react e)) → R e (closeUser react event e) := by
    intro e react event hreact
    rw [closeUser]
    split
    · exact refl e
    · dsimp only
      split
      · refine trans (inert ?_) (hreact _)
        exact ⟨rfl, rfl, rfl, rfl, [_], rfl, by simp [Notification.isUsers]⟩
      · exact inert (.of_eq rfl rfl rfl rfl rfl)
  refine ⟨refl, trans, call, send, ?_, ?_, ?_, hcloseUser, ?_, ?_⟩
  · exact fun e _ _ _ _ _ _ => inert (.of_eq rfl rfl rfl rfl rfl)
  · intro e options receiveHandler closeHandler
    have hopen := inert (inert_openUser e options receiveHandler closeHandler)
    rw [openUser]
    dsimp only
    split
    · exact trans hopen (inert (inert_note rfl _))
    · exact hopen
  · intro e react data reliability hreact _
    refine trans (inert ?_) (hreact _)
    exact ⟨rfl, rfl, rfl, rfl, [_], rfl, by simp [Notification.isUsers]⟩
  · intro e now react event hreact
    rw [closeWith]
    split
    · exact refl e
    · have hclosing : Inert e (note .closing { e with closed := true }) :=
        ⟨rfl, rfl, rfl, rfl, [_], rfl, by simp [Notification.isUsers]⟩
      have hfinish : ∀ e, Inert e (finishWhenReady now e) := fun e =>
        ⟨rfl, rfl, rfl, rfl, [_], rfl, by simp [Notification.isUsers]⟩
      exact trans (inert hclosing) (trans (hcloseUser event hreact) (inert (hfinish _)))
  · exact fun hreact => trans (hcloseUser .closed hreact) (inert (inert_note rfl _))

/-! ## The methods -/

namespace Walk

theorem receiver (h : Walk z C echo R) (e : Endpoint) (receiver : Receiver) :
    R e { e with receiver := receiver } :=
  h.silent e e.remoteID e.options e.handshake receiver e.probe e.closeReason

theorem probe (h : Walk z C echo R) (e : Endpoint) (probe : Probe) :
    R e { e with probe := probe } :=
  h.silent e e.remoteID e.options e.handshake e.receiver probe e.closeReason

theorem waitingFor (h : Walk z C echo R) (e : Endpoint) (type : TypeID) :
    R e { e with handshake := { e.handshake with waitingFor := type } } :=
  h.silent e e.remoteID e.options _ e.receiver e.probe e.closeReason

theorem sendReliably (h : Walk z C echo R) (e : Endpoint) (now : Timepoint) {packet : Packet}
    (hpacket : IsOwn packet) : R e (e.sendReliably z C now packet) := by
  exact h.call _ _ (MultiPacketPath.forall_front hpacket)

theorem possiblyClose (h : Walk z C echo R) (now : Timepoint) (hreact : ∀ e, R e (react e)) :
    R e (possiblyClose now react e) := by
  rw [Endpoint.possiblyClose]
  split
  · exact h.refl e
  · split
    · exact h.closeWith now _ hreact
    · exact h.refl e

theorem closeReceiver (h : Walk z C echo R) (now : Timepoint) :
    R e (closeReceiver z C now e) := by
  rw [Endpoint.closeReceiver]
  split
  · dsimp only
    split
    · exact h.trans (h.sendReliably e now (isOwn_of_type (by decide) 0 (by simp))) (h.receiver _ _)
    · exact h.receiver e _
  · exact h.refl e

theorem close (h : Walk z C echo R) (now : Timepoint) (hreact : ∀ e, R e (react e)) :
    R e (close z C now react e) := by
  have hcall : R e (e.call z C now .close) := h.call e now trivial
  exact h.trans hcall (h.trans (h.closeReceiver now) (h.possiblyClose now hreact))

theorem fail (h : Walk z C echo R) (now : Timepoint) (hreact : ∀ e, R e (react e))
    (event : Event) : R e (fail z C now react event e) := by
  have hsilent := h.silent e e.remoteID e.options e.handshake
    { e.receiver with status := .closed } e.probe.close event
  have hcall : R _ (failParts z C now event e) :=
    h.call _ now (show SenderCall.Sends _ .fail from trivial)
  exact h.trans hsilent (h.trans hcall (h.possiblyClose now hreact))

mutual

theorem userCall (h : Walk z C echo R) (now : Timepoint) :
    ∀ call e, R e (userCall z C now call e)
  | .send data reliability, e => by
      rw [Endpoint.userCall]
      exact h.call e now trivial
  | .close onClose onCloseUser, e => by
      rw [Endpoint.userCall]
      exact h.trans (h.close now (userCalls h now onClose))
        (h.leave (userCalls h now onCloseUser))
  | .accept options receiveHandler closeHandler, e => by
      rw [Endpoint.userCall]
      exact h.openUser e _ _ _
  | .setOptions options, e => by
      rw [Endpoint.userCall]
      exact h.silent e e.remoteID options e.handshake e.receiver e.probe e.closeReason

theorem userCalls (h : Walk z C echo R) (now : Timepoint) :
    ∀ calls e, R e (userCalls z C now calls e)
  | [], e => by
      rw [Endpoint.userCalls]
      exact h.refl e
  | call :: calls, e => by
      rw [Endpoint.userCalls]
      exact h.trans (userCall h now call e) (userCalls h now calls _)

end

theorem carryOut (h : Walk z C echo R) (now : Timepoint) (hreact : ∀ e, R e (react e))
    (call : ReceiverCall) : R e (carryOut z C now react e call) := by
  cases call with
  | ack packetID => exact h.call e now trivial
  | onAck ack =>
      have hcall : R e (e.call z C now (.onAck ack)) := h.call e now trivial
      exact h.trans hcall (h.possiblyClose now hreact)
  | receive data reliability =>
      rw [Endpoint.carryOut]
      split
      next hhandler => exact h.deliver data reliability hreact hhandler
      · exact h.refl e
  | close => exact h.trans (h.closeReceiver now) (h.possiblyClose now hreact)

/-- The receiver's calls, whatever the handlers do. -/
theorem carryOutAll (h : Walk z C echo R) (now : Timepoint) (scripts : List (List UserCall))
    (calls : List ReceiverCall) : R e (carryOutAll z C now scripts calls e) := by
  induction calls generalizing scripts e with
  | nil =>
      rw [Endpoint.carryOutAll]
      exact h.refl e
  | cons call calls ih =>
      cases scripts with
      | nil =>
          rw [Endpoint.carryOutAll]
          exact h.trans (h.carryOut now h.refl call) (ih [])
      | cons script scripts =>
          rw [Endpoint.carryOutAll]
          exact h.trans (h.carryOut now (h.userCalls now script) call) (ih scripts)

theorem complete (h : Walk z C echo R) (now : Timepoint) (scripts : List (List UserCall))
    (remoteID : ShortConnectionID) (first : PacketID) :
    R e (complete z C now scripts e remoteID first) := by
  have hopened := h.silent e remoteID e.options ⟨TypeID.handshakeComplete, first⟩
    (e.receiver.open z).2 e.probe e.closeReason
  have hcalls := fun e' : Endpoint =>
    h.carryOutAll (e := e') now scripts (e.receiver.open z).1
  have hcall := fun e' : Endpoint =>
    h.call e' now (show SenderCall.Sends IsOwn .open from trivial)
  exact h.trans hopened (h.trans (hcalls _) (hcall _))

theorem handshakeOnReceive (h : Walk z C echo R) (now : Timepoint)
    (scripts : List (List UserCall)) (packet : Packet) :
    R e (handshakeOnReceive z C now scripts e packet) := by
  have hid : ∀ header : Header, (pushValue { header := header } (leBytes 2 e.localID.toNat)).2 =
      { header := header, data := leBytes 2 e.localID.toNat } := by
    intro header
    rw [pushValue_of_fits (by simp [maxPacketSize])]
    simp
  rw [Endpoint.handshakeOnReceive]
  split
  swap
  · exact h.refl e
  rw [handlePacket]
  split
  · have hsend : R e (e.send C now
        { header := { type := TypeID.h1, id := packet.header.id } }).2 :=
      h.send e now (.inl (isOwn_of_type (by decide) _ (by simp)))
    dsimp only
    split
    · exact h.trans hsend (h.waitingFor _ _)
    · exact hsend
  · split
    · split
      · dsimp only
        rw [hid]
        exact h.trans (h.waitingFor e _) (h.sendReliably _ now (isOwn_of_type (by decide) 0 (by simp)))
      · exact h.refl e
    · split
      · have hsend : R e (e.send C now
            { header := { type := TypeID.h3, id := packet.header.id }
              data := leBytes 2 e.localID.toNat }).2 :=
          h.send e now (.inl (isOwn_of_type (by decide) _ (by simp)))
        dsimp only
        rw [hid]
        split
        · exact h.trans hsend (h.complete now scripts _ _)
        · exact hsend
      · split
        · dsimp only
          split
          · exact h.complete now scripts _ _
          · exact h.refl e
        · exact h.refl e

theorem senderOnReceive (h : Walk z C echo R) (now : Timepoint) (hreact : ∀ e, R e (react e))
    (packet : Packet) : R e (senderOnReceive z C now react e packet) := by
  rw [Endpoint.senderOnReceive]
  split
  · have hcall : R e (e.call z C now (.onAck ⟨packet.header.id, 0⟩)) := h.call e now trivial
    exact h.trans hcall (h.possiblyClose now hreact)
  · split
    · have hcall : R e (e.call z C now .fail) := h.call e now trivial
      exact h.trans hcall (h.possiblyClose now hreact)
    · exact h.refl e

/-- **A packet that has passed the network path.** -/
theorem accept (h : Walk z C echo R) (now : Timepoint) (reactions : Reactions)
    (packet : Packet) : R e (accept z C now reactions e packet) := by
  have hprobe := fun e : Endpoint => h.probe e (e.probe.on e.options now)
  have hsender := fun e : Endpoint =>
    h.senderOnReceive (e := e) now (h.userCalls now reactions.acked) packet
  have hreceiver := fun e : Endpoint =>
    h.trans (h.receiver e (e.receiver.onReceive z packet).2)
      (h.carryOutAll now reactions.received (e.receiver.onReceive z packet).1)
  exact h.trans (h.handshakeOnReceive now reactions.opened packet)
    (h.trans (hprobe _) (h.trans (hsender _) (hreceiver _)))

theorem retryTimeout (h : Walk z C echo R) (now : Timepoint) (hreact : ∀ e, R e (react e)) :
    R e (retryTimeout z C now react e) := by
  rw [Endpoint.retryTimeout]
  split
  · exact h.fail now hreact _
  · exact h.call e now trivial

theorem probeTimeout (h : Walk z C echo R) (now : Timepoint) (hreact : ∀ e, R e (react e)) :
    R e (probeTimeout z C now react e) := by
  rw [Endpoint.probeTimeout]
  split
  · exact h.refl e
  · dsimp only
    split
    · split
      · exact h.trans (h.probe e _) (h.sendReliably _ now (isOwn_of_type (by decide) 0 (by simp)))
      · exact h.trans (h.probe e _) (h.fail now hreact _)
    · exact h.probe e _

theorem connect (h : Walk z C echo R) (now : Timepoint) (options : Option ConnectionOptions)
    (receiveHandler closeHandler : Bool) :
    R e (connect z C now options receiveHandler closeHandler e) := by
  have hstart := fun e : Endpoint => h.probe e (e.probe.on e.options now)
  have hown : IsOwn { header := { type := TypeID.h0 } } := isOwn_of_type (by decide) 0 (by simp)
  have hinitiate := fun e : Endpoint =>
    h.trans (h.sendReliably e now hown) (h.waitingFor _ TypeID.h1)
  exact h.trans (h.openUser e options receiveHandler closeHandler)
    (h.trans (hstart _) (hinitiate _))

end Walk

/-! ## The network path -/

theorem length_signature (C : Cipher) (e : Endpoint) (basis : Bytes) :
    (e.signature C basis).length ≤ 32 := by
  rw [signature]
  split
  · simp
  · simp [SHAKey.sign]

theorem length_basis (now : Timepoint) (address : Option Address) :
    (NetworkPath.basis now address).length = 36 := by
  simp [NetworkPath.basis]

/-- The data of a challenge: the basis and the signature, each with its length. -/
theorem challenge_eq (C : Cipher) (now : Timepoint) (e : Endpoint) (address : Option Address) :
    ∃ rest, e.challenge C now address =
      { header := { type := TypeID.authenticateChallenge }
        data := NetworkPath.basis now address ++ leBytes 2 36 ++
          e.signature C (NetworkPath.basis now address) ++
          leBytes 2 (e.signature C (NetworkPath.basis now address)).length
        rest := rest } := by
  have hsignature := length_signature C e (NetworkPath.basis now address)
  obtain ⟨rest, hbasis⟩ := @pushSizedData_of_fits
    { header := { type := TypeID.authenticateChallenge } } (NetworkPath.basis now address)
    (by rw [length_basis]; decide)
  obtain ⟨rest', hpush⟩ := @pushSizedData_of_fits
    { header := { type := TypeID.authenticateChallenge }
      data := NetworkPath.basis now address ++ leBytes 2 36
      rest := rest } (e.signature C (NetworkPath.basis now address))
    (by simp [length_basis, maxPacketSize]; omega)
  rw [length_basis] at hbasis
  rw [challenge]
  dsimp only
  rw [hbasis]
  exact ⟨rest', congrArg Prod.snd hpush⟩

theorem isOwn_challenge (C : Cipher) (now : Timepoint) (e : Endpoint)
    (address : Option Address) : IsOwn (e.challenge C now address) := by
  have hsignature := length_signature C e (NetworkPath.basis now address)
  obtain ⟨rest, h⟩ := challenge_eq C now e address
  rw [h]
  refine ⟨?_, (by decide : TypeID.authenticateChallenge ≠ TypeID.encryptedViaAES),
    (by decide : TypeID.authenticateChallenge ≠ TypeID.encryptedViaPublicKey)⟩
  simp [length_basis]
  omega

/-- What is left to show for every step: the decryption and the network path.  `arrives` bounds
the packets that are received. -/
structure WalkAll (z : Zlib) (C : Cipher) (echo : Bytes → Prop)
    (arrives : Endpoint → Packet → Prop) (R : Endpoint → Endpoint → Prop) : Prop
    extends Walk z C echo R where
  decrypt : ∀ {e packet}, arrives e packet → R e (e.decrypt C packet).2.2
  heard : ∀ {e packet opened e'}, arrives e packet → e.decrypt C packet = (.keep, opened, e') →
    opened.header.type = TypeID.authenticateChallenge → echo opened.data
  challenged : ∀ e now path, R e (e.note (.challenged now path))
  migrate : ∀ (e : Endpoint) path, R e { e with remoteAddress := path }

variable {arrives : Endpoint → Packet → Prop}

theorem WalkAll.sendChallenge (h : WalkAll z C echo arrives R) (now : Timepoint) (path : Address) :
    R e (e.sendChallenge z C now path) := by
  have hown := isOwn_challenge C now e
  refine h.trans (h.challenged e now path) (h.call _ now ?_)
  generalize e.challenge C now = challenge at hown ⊢
  exact MultiPacketPath.forall_both (hown none) (hown (some path))

theorem WalkAll.networkPathOnReceive (h : WalkAll z C echo arrives R) (now : Timepoint)
    {packet : Packet}
    (hecho : packet.header.type = TypeID.authenticateChallenge → echo packet.data)
    (path : Address) : R e (networkPathOnReceive z C now e packet path).2.2 := by
  rw [Endpoint.networkPathOnReceive]
  split
  next htype => exact h.send e now (.inr ⟨rfl, hecho htype⟩)
  · split
    · split
      · split
        · exact h.migrate e path
        · exact h.refl e
      · exact h.sendChallenge now path
    · exact h.refl e

/-- A packet that is neither encrypted nor of the handshake is passed on as it is. -/
theorem decrypt_plain (C : Cipher) (e : Endpoint) {packet : Packet}
    (htype : packet.header.type ∉ [TypeID.encryptedViaPublicKey, TypeID.encryptedViaAES, TypeID.h0,
      TypeID.h1, TypeID.h2, TypeID.h3]) : e.decrypt C packet = (.keep, packet, e) := by
  simp only [List.mem_cons, List.not_mem_nil, or_false, not_or] at htype
  obtain ⟨hrsa, haes, h0, h1, h2, h3⟩ := htype
  rw [decrypt]
  split
  · rfl
  next crypto hcrypto =>
    have hsame : { e with crypto := some crypto } = e := by rw [← hcrypto]
    rw [ConnectionCrypto.onReceive, ConnectionCrypto.decrypt, if_neg hrsa, if_neg haes]
    dsimp only
    rw [ConnectionCrypto.learn, if_neg (not_or.mpr ⟨h0, h1⟩), if_neg (not_or.mpr ⟨h2, h3⟩)]
    dsimp only
    rw [hsame]

/-- Only the options are taken off a packet. -/
theorem onReceive_options {options options' : ConnectionOptions} {packet packet' : Packet}
    (h : HandshakeOptions.onReceive options packet = (.keep, packet', options')) :
    packet'.header = packet.header ∧ (packet.header.type ≠ TypeID.h3 → packet' = packet) := by
  have hheader := Connection.header_onReceive options packet
  rw [h] at hheader
  refine ⟨hheader, fun hne => ?_⟩
  rw [HandshakeOptions.onReceive, if_neg hne] at h
  cases h
  rfl

theorem WalkAll.receive (h : WalkAll z C echo arrives R) (now : Timepoint)
    (reactions : Reactions) {packet : Packet} (harrives : arrives e packet) (path : Address) :
    R e (receive z C now reactions e packet path) := by
  have hdecrypt := h.decrypt harrives
  rw [Endpoint.receive]
  split
  next hrun =>
    rw [hrun] at hdecrypt
    exact hdecrypt
  next opened e' hrun =>
    have hheard := h.heard harrives hrun
    rw [hrun] at hdecrypt
    refine h.trans hdecrypt ?_
    split
    · exact h.refl e'
    next packet' options hoptions =>
      obtain ⟨hheader, hsame⟩ := onReceive_options hoptions
      have hecho : packet'.header.type = TypeID.authenticateChallenge → echo packet'.data := by
        intro htype
        rw [hheader] at htype
        rw [hsame (by rw [htype]; decide)]
        exact hheard htype
      have hsilent := h.silent e' e'.remoteID options e'.handshake e'.receiver e'.probe
        e'.closeReason
      have hpath := h.networkPathOnReceive (e := { e' with options := options }) now hecho path
      refine h.trans hsilent ?_
      split
      next hnetwork =>
        rw [hnetwork] at hpath
        exact hpath
      next hnetwork =>
        rw [hnetwork] at hpath
        exact h.trans hpath (h.accept now reactions _)

/-- The packet that is received is one that arrives. -/
def Receives (arrives : Endpoint → Packet → Prop) (e : Endpoint) : Timepoint × Input → Prop
  | (_, .receive packet _ _) => arrives e packet
  | _ => True

theorem receives_of_forall (h : ∀ e packet, arrives e packet) (e : Endpoint)
    (input : Timepoint × Input) : Receives arrives e input := by
  obtain ⟨_, input⟩ := input
  cases input with
  | receive packet => exact h e packet
  | user | processSchedule | retryTimeout | probeTimeout | close => trivial

/-- **The relation holds across a step.** -/
theorem WalkAll.step (h : WalkAll z C echo arrives R) (e : Endpoint)
    {input : Timepoint × Input} (hinput : Receives arrives e input) : R e (e.step z C input) := by
  obtain ⟨now, input⟩ := input
  cases input with
  | user call => exact h.userCall now call e
  | receive packet path reactions => exact h.receive now reactions hinput path
  | processSchedule reliability => exact h.call e now trivial
  | retryTimeout script => exact h.retryTimeout now (h.userCalls now script)
  | probeTimeout script => exact h.probeTimeout now (h.userCalls now script)
  | close event script => exact h.closeWith now event (h.userCalls now script)

end
end Endpoint
end MrUDP
