import MrUDP.Crypto.ConnectionCrypto

/-!
# The connection with encryption, and what it does to the outside

`mrudp/Connection.cpp` and the parts that only act on their connection, as they are with
`MRUDP_ENABLE_CRYPTO` and as they are without it: an `Endpoint` is a `Connection` with its
encryption, which is absent if it is compiled out.  The methods are those of
`MrUDP.Connection.Connection`; `MrUDP.Endpoint.Plain` shows that without encryption they do the same
to the connection.

With encryption a packet that is sent reliably is encrypted in place, so the packet that waits
for its acknowledgement is the encrypted one.  A packet whose encryption has no defined
behaviour is not sent.

`log` is a ghost: the calls of the user's handlers and what else is of interest, in order.

## Main definitions

* `Notification`, `Endpoint`.
* `Endpoint.send`, `Endpoint.call`: packets are encrypted and sent.
* `Endpoint.receive`: a packet through all layers.
* `Endpoint.step`: the endpoint as a machine.
-/

namespace MrUDP
open Wire
open Connection (Input Reactions)

/-- What is of interest in a run. -/
inductive Notification
  /-- `openUser` registers handlers: a receive handler, a close handler. -/
  | registered (receiveHandler closeHandler : Bool)
  /-- The receive handler is called. -/
  | delivered (data : Bytes) (reliability : Reliability)
  /-- `closed` is set. -/
  | closing
  /-- The close handler is called. -/
  | closed (event : Event)
  /-- The finish timeout is scheduled. -/
  | scheduled (when : Timepoint)
  /-- `mrudp_close_connection` returns. -/
  | returned
  /-- A path is challenged. -/
  | challenged (now : Timepoint) (path : Address)
  /-- A packet is encrypted. -/
  | encrypted (packet sealed : Packet)
  /-- Something without defined behaviour. -/
  | faulted (fault : Fault)
  deriving DecidableEq, Repr

/-- `Connection`, with its encryption unless that is compiled out. -/
structure Endpoint extends Connection where
  crypto : Option ConnectionCrypto := none
  log : List Notification := []

/-! ## The window -/

/-- Replace the packet of a path. -/
def PacketPath.replace (p old : PacketPath) (packet : Packet) : PacketPath :=
  if p = old then { p with packet := packet } else p

/-- Replace the packet of one of the paths. -/
def MultiPacketPath.replace (m : MultiPacketPath) (old : PacketPath) (packet : Packet) :
    MultiPacketPath :=
  ⟨m.front.replace old packet, m.back.map (·.replace old packet)⟩

/-- The packet that was sent is changed in place, so it changes in the window too, if it has
entered the window since that many packets were sent reliably. -/
def Retrier.overwrite (r : Retrier) (since : ℕ) (old : PacketPath) (packet : Packet) : Retrier :=
  match r.window[old.packet.header.id]? with
  | none => r
  | some retry =>
      if retry.serial < since then r
      else
        let retry := { retry with paths := retry.paths.replace old packet }
        { r with window := r.window.insert old.packet.header.id retry }

namespace Endpoint

/-- Record something of interest. -/
def note (n : Notification) (e : Endpoint) : Endpoint := { e with log := e.log ++ [n] }

/-! ## Sending -/

/-- `Connection::canSend`. -/
def canSend (e : Endpoint) : Bool :=
  match e.crypto with
  | none => e.toConnection.canSend
  | some crypto => crypto.canSend

variable (z : Zlib) (C : Cipher) (now : Timepoint) (scripts : List (List UserCall))
  (react : Endpoint → Endpoint)

/-- What the sender reads of the connection. -/
def env (e : Endpoint) : Env := ⟨z, e.canSend, e.options, now⟩

/-- `Connection::send_`. -/
def send_ (e : Endpoint) (packet : Packet) (address : Option Address) : Endpoint :=
  { e with toConnection := e.toConnection.send_ now packet address }

/-- The encryption in `Connection::send`. -/
def encrypt (e : Endpoint) (packet : Packet) : PacketDiscard × Packet × Endpoint :=
  match e.crypto with
  | none => (.keep, packet, e)
  | some crypto =>
      let e := { e with crypto := some { crypto with drawn := crypto.drawn + 1 } }
      match crypto.onSend C packet with
      | .error fault => (.discard, packet, e.note (.faulted fault))
      | .ok (.discard, sealed) => (.discard, sealed, e)
      | .ok (.keep, sealed) => (.keep, sealed, e.note (.encrypted packet sealed))

/-- `Connection::send`, and what has become of the packet. -/
def send (e : Endpoint) (packet : Packet) (address : Option Address := none) : Packet × Endpoint :=
  match HandshakeOptions.onSend e.options packet with
  | (.discard, packet) => (packet, e)
  | (.keep, packet) =>
      match e.encrypt C packet with
      | (.discard, packet, e) => (packet, e)
      | (.keep, packet, e) => (packet, e.send_ now packet address)

/-- One call of `Connection::send`, or of `Connection::resend`.  Without encryption a packet
that is sent reliably is sent as it is. -/
def transmit (since : ℕ) (e : Endpoint) (t : Transmission) : Endpoint :=
  if t.again then e.send_ now t.packet t.address
  else
    let (packet, e) := e.send C now t.packet t.address
    match e.crypto with
    | none => e
    | some _ =>
        { e with sender :=
          { e.sender with retrier := e.sender.retrier.overwrite since ⟨t.packet, t.address⟩ packet } }

/-- Hand the packets in the sender's outbox to the socket. -/
def flush (since : ℕ) (e : Endpoint) : Endpoint :=
  e.sender.outbox.foldl (transmit C now since) { e with sender := { e.sender with outbox := [] } }

/-- A call on the sender, up to the packets it sends. -/
def call (z : Zlib) (C : Cipher) (now : Timepoint) (e : Endpoint) (call : SenderCall) : Endpoint :=
  flush C now e.sender.packetIDGenerator.issued
    { e with sender := e.sender.call (e.env z now) call }

/-- Send one packet reliably on the established path. -/
def sendReliably (e : Endpoint) (packet : Packet) : Endpoint :=
  e.call z C now (.sendReliably ⟨⟨packet, none⟩, none⟩ false)

/-! ## Opening and closing -/

/-- `Connection::openUser`. -/
def openUser (e : Endpoint) (options : Option ConnectionOptions)
    (receiveHandler closeHandler : Bool) : Endpoint :=
  let e' := { e with toConnection := e.toConnection.openUser options receiveHandler closeHandler }
  if e.userDataDisposed then e'.note (.registered receiveHandler closeHandler) else e'

/-- `Connection::closeUser`. -/
def closeUser (event : Event) (e : Endpoint) : Endpoint :=
  if e.userDataDisposed then e
  else
    let closeHandler := e.closeHandler
    let e := { e with userDataDisposed := true, receiveHandler := false, closeHandler := false }
    if closeHandler then
      react (note (.closed event) { e with closeEvents := e.closeEvents ++ [event] })
    else e

/-- `Connection::finishWhenReady`. -/
def finishWhenReady (e : Endpoint) : Endpoint :=
  let interval := toDuration (Arithmetic.ieee.single (e.sender.rtt.duration * 3))
  note (.scheduled (now + milliseconds interval))
    { e with finishTimeout := some (now + milliseconds interval) }

/-- `Connection::close(event)`. -/
def closeWith (event : Event) (e : Endpoint) : Endpoint :=
  if e.closed then e
  else finishWhenReady now (closeUser react event (note .closing { e with closed := true }))

/-- `Connection::possiblyClose`. -/
def possiblyClose (e : Endpoint) : Endpoint :=
  if e.closed then e
  else if e.sender.status = .closed ∧ e.receiver.status = .closed ∧ e.sender.empty = true then
    closeWith now react e.closeReason e
  else e

/-- `Receiver::close`. -/
def closeReceiver (e : Endpoint) : Endpoint :=
  if e.receiver.status ≠ .closed then
    let e := if e.canSend then e.sendReliably z C now { header := { type := TypeID.closeRead } }
      else e
    { e with receiver := { e.receiver with status := .closed } }
  else e

/-- `Connection::close()`. -/
def close (e : Endpoint) : Endpoint :=
  possiblyClose now react (closeReceiver z C now (e.call z C now .close))

/-- `Connection::fail` up to `possiblyClose`. -/
def failParts (event : Event) (e : Endpoint) : Endpoint :=
  call z C now
    { e with
      closeReason := event
      probe := e.probe.close
      receiver := { e.receiver with status := .closed } } .fail

/-- `Connection::fail`. -/
def fail (event : Event) (e : Endpoint) : Endpoint :=
  possiblyClose now react (failParts z C now event e)

/-! ## The user -/

mutual

/-- A call of the user. -/
def userCall (z : Zlib) (C : Cipher) (now : Timepoint) : UserCall → Endpoint → Endpoint
  | .send data reliability, e => e.call z C now (.send data reliability)
  | .close onClose onCloseUser, e =>
      note .returned
        (closeUser (userCalls z C now onCloseUser) .closed
          (close z C now (userCalls z C now onClose) e))
  | .accept options receiveHandler closeHandler, e =>
      e.openUser options receiveHandler closeHandler
  | .setOptions options, e => { e with options := options }

/-- Calls of the user, one after the other. -/
def userCalls (z : Zlib) (C : Cipher) (now : Timepoint) : List UserCall → Endpoint → Endpoint
  | [], e => e
  | call :: calls, e => userCalls z C now calls (userCall z C now call e)

end

/-! ## Receiving -/

/-- A call the receiver makes. -/
def carryOut (e : Endpoint) : ReceiverCall → Endpoint
  | .ack packetID => e.call z C now (.ack packetID)
  | .onAck ack => possiblyClose now react (e.call z C now (.onAck ack))
  | .receive data reliability =>
      if e.receiveHandler then
        react (note (.delivered data reliability)
          { e with delivered := e.delivered ++ [(data, reliability)] })
      else e
  | .close => possiblyClose now react (closeReceiver z C now e)

/-- The calls the receiver makes, each with what the handler it calls does. -/
def carryOutAll (z : Zlib) (C : Cipher) (now : Timepoint) :
    List (List UserCall) → List ReceiverCall → Endpoint → Endpoint
  | _, [], e => e
  | [], call :: calls, e => carryOutAll z C now [] calls (carryOut z C now (fun e => e) e call)
  | script :: scripts, call :: calls, e =>
      carryOutAll z C now scripts calls (carryOut z C now (userCalls z C now script) e call)

/-- `Handshake::initiate`. -/
def initiate (e : Endpoint) : Endpoint :=
  let e := e.sendReliably z C now { header := { type := TypeID.h0 } }
  { e with handshake := { e.handshake with waitingFor := TypeID.h1 } }

/-- `Handshake::onHandshakeComplete`. -/
def onHandshakeComplete (e : Endpoint) : Endpoint :=
  let (calls, receiver) := e.receiver.open z
  let e := carryOutAll z C now scripts calls { e with receiver := receiver }
  e.call z C now .open

/-- The handshake is complete: the last two branches of `Handshake::handlePacket`. -/
def complete (e : Endpoint) (remoteID : ShortConnectionID) (firstNonHandshakePacketID : PacketID) :
    Endpoint :=
  onHandshakeComplete z C now scripts
    { e with remoteID := remoteID
             handshake := ⟨TypeID.handshakeComplete, firstNonHandshakePacketID⟩ }

/-- `Handshake::handlePacket`. -/
def handlePacket (e : Endpoint) (packet : Packet) : Endpoint :=
  if packet.header.type = TypeID.h0 then
    let e := (e.send C now { header := { type := TypeID.h1, id := packet.header.id } }).2
    if e.handshake.waitingFor = TypeID.h0 then
      { e with handshake := { e.handshake with waitingFor := TypeID.h2 } }
    else e
  else if packet.header.type = TypeID.h1 then
    if e.handshake.waitingFor = TypeID.h1 then
      let e := { e with handshake := { e.handshake with waitingFor := TypeID.h3 } }
      e.sendReliably z C now
        (pushValue { header := { type := TypeID.h2 } } (leBytes 2 e.localID.toNat)).2
    else e
  else if packet.header.type = TypeID.h2 then
    let (remoteID, _) := Connection.readRemoteID packet
    let ack : Packet := { header := { type := TypeID.h3, id := packet.header.id } }
    let e := (e.send C now (pushValue ack (leBytes 2 e.localID.toNat)).2).2
    if e.handshake.waitingFor = TypeID.h2 then
      complete z C now scripts e remoteID (packet.header.id + 1)
    else e
  else if packet.header.type = TypeID.h3 then
    let (remoteID, _) := Connection.readRemoteID packet
    if e.handshake.waitingFor = TypeID.h3 then
      complete z C now scripts e remoteID e.handshake.firstNonHandshakePacketID
    else e
  else e

/-- `Handshake::onReceive`, which keeps every packet. -/
def handshakeOnReceive (e : Endpoint) (packet : Packet) : Endpoint :=
  if isHandshake packet.header.type then handlePacket z C now scripts e packet else e

/-- The signature of a challenge, which is empty without encryption. -/
def signature (e : Endpoint) (basis : Bytes) : Bytes :=
  match e.crypto with
  | none => []
  | some crypto => SHAKey.sign C crypto.signer basis

/-- The packet `NetworkPath::sendChallenge` builds for one path. -/
def challenge (e : Endpoint) (address : Option Address) : Packet :=
  let packet : Packet := { header := { type := TypeID.authenticateChallenge } }
  let basis := NetworkPath.basis now address
  let (_, packet) := pushSizedData packet basis
  (pushSizedData packet (e.signature C basis)).2

/-- `NetworkPath::sendChallenge`. -/
def sendChallenge (e : Endpoint) (path : Address) : Endpoint :=
  let paths : MultiPacketPath :=
    ⟨⟨e.challenge C now none, none⟩, some ⟨e.challenge C now (some path), some path⟩⟩
  (e.note (.challenged now path)).call z C now (.sendReliably paths true)

/-- The basis and the signature a response returns. -/
def returned (packet : Packet) : Option (Bytes × Bytes) :=
  match popSizedData packet with
  | (none, _) => none
  | (some signature, packet) => (popSizedData packet).1.map (·, signature)

/-- The check of the signature that ends `NetworkPath::verifyChallengeResponse`. -/
def verifySignature (e : Endpoint) (packet : Packet) : Bool :=
  match e.crypto with
  | none => true
  | some crypto =>
      (returned packet).any fun (basis, signature) => SHAKey.verify C crypto.signer basis signature

/-- `NetworkPath::verifyChallengeResponse`, and the packet with the response taken off. -/
def verifyChallengeResponse (e : Endpoint) (packet : Packet) (path : Address) : Bool × Packet :=
  match NetworkPath.verifyChallengeResponse e.remoteAddress now packet path with
  | (verified, rest) => (verified && e.verifySignature C packet, rest)

/-- `NetworkPath::onReceive`. -/
def networkPathOnReceive (e : Endpoint) (packet : Packet) (path : Address) :
    PacketDiscard × Packet × Endpoint :=
  if packet.header.type = TypeID.authenticateChallenge then
    -- `sendChallengeResponse` sends the challenge back.
    let ack : Packet :=
      { header := { type := TypeID.authenticateResponse, id := packet.header.id }
        data := packet.data }
    (.keep, packet, (e.send C now ack).2)
  else if path ≠ e.remoteAddress then
    if packet.header.type = TypeID.authenticateResponse then
      match e.verifyChallengeResponse C now packet path with
      | (true, packet) => (.keep, packet, { e with remoteAddress := path })
      | (false, packet) => (.discard, packet, e)
    else (.discard, packet, e.sendChallenge z C now path)
  else (.keep, packet, e)

/-- `Sender::onReceive`. -/
def senderOnReceive (e : Endpoint) (packet : Packet) : Endpoint :=
  if isAck packet.header.type then
    possiblyClose now react (e.call z C now (.onAck ⟨packet.header.id, 0⟩))
  else if packet.header.type = TypeID.closeRead then
    possiblyClose now react (e.call z C now .fail)
  else e

/-- `Receiver::onReceive`. -/
def receiverOnReceive (e : Endpoint) (packet : Packet) : Endpoint :=
  let (calls, receiver) := e.receiver.onReceive z packet
  carryOutAll z C now scripts calls { e with receiver := receiver }

/-- `Connection::receive`, once the packet has passed the network path. -/
def accept (reactions : Reactions) (e : Endpoint) (packet : Packet) : Endpoint :=
  let e := handshakeOnReceive z C now reactions.opened e packet
  let e := { e with probe := e.probe.on e.options now }
  let e := senderOnReceive z C now (userCalls z C now reactions.acked) e packet
  receiverOnReceive z C now reactions.received e packet

/-- The decryption in `Connection::receive`. -/
def decrypt (e : Endpoint) (packet : Packet) : PacketDiscard × Packet × Endpoint :=
  match e.crypto with
  | none => (.keep, packet, e)
  | some crypto =>
      match crypto.onReceive C packet with
      | (result, packet, crypto) => (result, packet, { e with crypto := some crypto })

/-- `Connection::receive`. -/
def receive (reactions : Reactions) (e : Endpoint) (packet : Packet) (path : Address) : Endpoint :=
  match e.decrypt C packet with
  | (.discard, _, e) => e
  | (.keep, packet, e) =>
      match HandshakeOptions.onReceive e.options packet with
      | (.discard, _, _) => e
      | (.keep, packet, options) =>
          match networkPathOnReceive z C now { e with options := options } packet path with
          | (.discard, _, e) => e
          | (.keep, packet, e) => accept z C now reactions e packet

/-! ## Timeouts -/

/-- `Retrier::onRetryTimeout`. -/
def retryTimeout (e : Endpoint) : Endpoint :=
  if (e.sender.onRetryTimeout (e.env z now)).1 then fail z C now react .timeout e
  else e.call z C now .retryTimeout

/-- `Probe::onTimeout`. -/
def probeTimeout (e : Endpoint) : Endpoint :=
  if e.probe.status = .closed then e
  else
    let nextProbe := e.probe.nextProbeTime
    let e := { e with probe := { e.probe with isRegistered := false } }
    if nextProbe < now then
      let e := { e with probe := e.probe.on e.options now }
      if e.sender.status = .open then
        e.sendReliably z C now { header := { type := TypeID.probe } }
      else fail z C now react .timeout e
    else { e with probe := e.probe.registerTimeout nextProbe }

/-! ## The endpoint as a machine -/

/-- One thing happens, at its time. -/
def step (e : Endpoint) : Timepoint × Input → Endpoint
  | (now, .user call) => e.userCall z C now call
  | (now, .receive packet path reactions) => e.receive z C now reactions packet path
  | (now, .processSchedule reliability) => e.call z C now (.processSchedule reliability)
  | (now, .retryTimeout script) => e.retryTimeout z C now (userCalls z C now script)
  | (now, .probeTimeout script) => e.probeTimeout z C now (userCalls z C now script)
  | (now, .close event script) => e.closeWith now (userCalls z C now script) event

/-- An endpoint as the constructor leaves it. -/
def fresh (crypto : Option ConnectionCrypto) (id : LongConnectionID)
    (localID : ShortConnectionID) (remoteAddress : Address) (options : ConnectionOptions) :
    Endpoint :=
  { toConnection := Connection.fresh id localID remoteAddress options, crypto := crypto }

/-- `Connection::open`. -/
def start (e : Endpoint) : Endpoint :=
  { e with probe := e.probe.on e.options now }

/-- `Socket::connect`, as far as the new connection is concerned. -/
def connect (options : Option ConnectionOptions) (receiveHandler closeHandler : Bool) (e : Endpoint) :
    Endpoint :=
  initiate z C now (start now (e.openUser options receiveHandler closeHandler))

/-- How an endpoint starts: it is connected by the user, or created by the socket. -/
inductive Started (z : Zlib) (C : Cipher) : Endpoint → Prop
  | connected (crypto : Option ConnectionCrypto) (id : LongConnectionID)
      (localID : ShortConnectionID) (remoteAddress : Address) (socketOptions : ConnectionOptions)
      (now : Timepoint) (options : Option ConnectionOptions)
      (receiveHandler closeHandler : Bool) :
      Started z C (connect z C now options receiveHandler closeHandler
        (fresh crypto id localID remoteAddress socketOptions))
  | created (crypto : Option ConnectionCrypto) (id : LongConnectionID)
      (localID : ShortConnectionID) (remoteAddress : Address) (socketOptions : ConnectionOptions)
      (now : Timepoint) :
      Started z C (start now (fresh crypto id localID remoteAddress socketOptions))

end Endpoint
end MrUDP
