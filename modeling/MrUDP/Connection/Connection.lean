import MrUDP.Connection.Probe
import MrUDP.Lib.Run
import MrUDP.Receiver.Receiver
import MrUDP.Sender.Calls

/-!
# The connection

`mrudp/Connection.cpp`, with the parts that only act on their connection:
`mrudp/Handshake.cpp`, `mrudp/Handshake_Options.cpp` and `mrudp/NetworkPath.cpp`.
Encryption is compiled out, as `mrudp/Config.h` has it, and statistics are left out.

A handler of the user is called in the middle of a method and may call the connection
again.  Every method that can call a handler takes what the handler does as the function
`react`; on the outside that is a list of calls of the user.

A packet handed to the socket is an entry of `transmitted`.  `delivered` and
`closeEvents` record the calls of the receive handler and of the close handler.

## Main definitions

* `Connection`: the state.
* `UserCall`, `Connection.userCalls`: the calls of the user, from outside or in a handler.
* `Connection.receive`: a packet through all layers.
* `Connection.step`: the connection as a machine.
-/

namespace MrUDP
open Wire

/-! ## The parts -/

/-- `Handshake`. -/
structure Handshake where
  waitingFor : TypeID := TypeID.h0
  firstNonHandshakePacketID : PacketID := 0
  deriving DecidableEq, Repr

/-- `PacketDiscard`. -/
inductive PacketDiscard
  | keep
  | discard
  deriving DecidableEq, Repr

/-- A packet handed to the socket, and where it is to go. -/
structure Outgoing where
  packet : Packet
  address : Address
  deriving DecidableEq, Repr

/-- `Connection`.  `receiveHandler` and `closeHandler` say whether the handlers are set. -/
structure Connection where
  id : LongConnectionID
  remoteID : ShortConnectionID := 0
  localID : ShortConnectionID
  remoteAddress : Address
  options : ConnectionOptions
  handshake : Handshake := {}
  sender : Sender := {}
  receiver : Receiver := {}
  probe : Probe := {}
  receiveHandler : Bool := false
  closeHandler : Bool := false
  closeReason : Event := .closed
  closed : Bool := false
  userDataDisposed : Bool := true
  finishTimeout : Option Timepoint := none
  transmitted : List Outgoing := []
  delivered : List (Bytes × Reliability) := []
  closeEvents : List Event := []

/-! ## The options in the handshake -/

namespace HandshakeOptions

/-- The memory image of `HandshakeOptionsData`: `(uint32_t)max(probe_delay_ms, 0)` and
`maximum_retry_attempts`. -/
def bytes (options : ConnectionOptions) : Bytes :=
  leBytes 4 (max options.probeDelayMS.toInt 0).toNat ++
    leBytes 2 options.maximumRetryAttempts.toNat

/-- `Handshake_Options::onSend`. -/
def onSend (options : ConnectionOptions) (packet : Packet) : PacketDiscard × Packet :=
  if packet.header.type = TypeID.h3 then
    match pushValue packet (bytes options) with
    | (true, packet) => (.keep, packet)
    | (false, packet) => (.discard, packet)
  else (.keep, packet)

/-- `Handshake_Options::onReceive`, on the options of the connection. -/
def onReceive (options : ConnectionOptions) (packet : Packet) :
    PacketDiscard × Packet × ConnectionOptions :=
  if packet.header.type = TypeID.h3 then
    match popData packet 6 with
    | none => (.discard, packet, options)
    | some (data, packet) =>
        (.keep, packet,
          { options with
            probeDelayMS := BitVec.ofNat 32 (leNat (data.take 4))
            maximumRetryAttempts := BitVec.ofNat 16 (leNat (data.drop 4)) })
  else (.keep, packet, options)

end HandshakeOptions

/-! ## Challenges -/

namespace NetworkPath

/-- `NetworkPath::Time`: seconds on the steady clock. -/
def time (now : Timepoint) : BitVec 64 := BitVec.ofInt 64 (now.tdiv 1000000000)

/-- What a challenge is about: the time, and the address, or zeros for the path that is
established. -/
def basis (now : Timepoint) (address : Option Address) : Bytes :=
  leBytes 8 (time now).toNat ++ leBytes 28 (address.getD 0).toNat

/-- The packet `NetworkPath::sendChallenge` builds for one path.  Without encryption the
signature is empty. -/
def challenge (now : Timepoint) (address : Option Address) : Packet :=
  let packet : Packet := { header := { type := TypeID.authenticateChallenge } }
  let (_, packet) := pushSizedData packet (basis now address)
  (pushSizedData packet []).2

/-- `NetworkPath::verifyChallengeResponse`, and the packet with the response taken off. -/
def verifyChallengeResponse (remoteAddress : Address) (now : Timepoint) (packet : Packet)
    (path : Address) : Bool × Packet :=
  match popSizedData packet with
  | (none, packet) => (false, packet)
  | (some _, packet) =>
      match popSizedData packet with
      | (none, packet) => (false, packet)
      | (some basis, packet) =>
          if basis.length ≠ 28 + 8 then (false, packet)
          else
            let sentTime := BitVec.ofNat 64 (leNat (basis.take 8))
            let address : Address := BitVec.ofNat 224 (leNat (basis.drop 8))
            if 60 < (time now - sentTime).toNat then (false, packet)
            else if address = 0 then (decide (path = remoteAddress), packet)
            else (decide (address = path), packet)

end NetworkPath

namespace Connection

/-! ## Sending -/

/-- `Connection::canSend`. -/
def canSend (c : Connection) : Bool := 0 < c.remoteID

variable (z : Zlib) (now : Timepoint) (react : Connection → Connection)

/-- What the sender reads of the connection. -/
def env (c : Connection) : Env := ⟨z, c.canSend, c.options, now⟩

/-- `Connection::send_`.  As long as the peer's short identifier is not known, the long
one is pushed on a copy of the packet. -/
def send_ (c : Connection) (packet : Packet) (address : Option Address) : Connection :=
  let packet := { packet with header := { packet.header with connection := c.remoteID } }
  let packet :=
    if packet.header.connection = 0 then (pushValue packet (leBytes 16 c.id.toNat)).2
    else packet
  { c with
    transmitted := c.transmitted ++ [⟨packet, address.getD c.remoteAddress⟩]
    probe := c.probe.on c.options now }

/-- `Connection::send`. -/
def send (c : Connection) (packet : Packet) (address : Option Address := none) : Connection :=
  match HandshakeOptions.onSend c.options packet with
  | (.discard, _) => c
  | (.keep, packet) => c.send_ now packet address

/-- One call of `Connection::send`, or of `Connection::resend`. -/
def transmit (c : Connection) (t : Transmission) : Connection :=
  if t.again then c.send_ now t.packet t.address else c.send now t.packet t.address

/-- Hand the packets in the sender's outbox to the socket. -/
def flush (c : Connection) : Connection :=
  c.sender.outbox.foldl (transmit now) { c with sender := { c.sender with outbox := [] } }

/-- A call on the sender, up to the packets it sends. -/
def call (z : Zlib) (now : Timepoint) (c : Connection) (call : SenderCall) : Connection :=
  flush now { c with sender := c.sender.call (c.env z now) call }

/-- The packet `send_` hands to the socket. -/
def wire (c : Connection) (packet : Packet) (address : Option Address) : Outgoing :=
  let packet := { packet with header := { packet.header with connection := c.remoteID } }
  let packet :=
    if packet.header.connection = 0 then (pushValue packet (leBytes 16 c.id.toNat)).2
    else packet
  ⟨packet, address.getD c.remoteAddress⟩

/-- The packet a call of `Connection::send` or `Connection::resend` hands to the socket. -/
def outgoing (c : Connection) (t : Transmission) : Outgoing :=
  c.wire (if t.again then t.packet else (HandshakeOptions.onSend c.options t.packet).2) t.address

/-- The options are pushed on whatever the room, so no packet is discarded. -/
theorem onSend_keep (options : ConnectionOptions) (packet : Packet) :
    (HandshakeOptions.onSend options packet).1 = .keep := by
  rw [HandshakeOptions.onSend]
  split <;> rfl

theorem send_eq (c : Connection) (packet : Packet) (address : Option Address) :
    c.send now packet address =
      { c with
        transmitted :=
          c.transmitted ++ [c.wire (HandshakeOptions.onSend c.options packet).2 address]
        probe := c.probe.on c.options now } := by
  have hkeep := onSend_keep c.options packet
  rw [send]
  split
  next h =>
    rw [h] at hkeep
    cases hkeep
  next h =>
    rw [h]
    rfl

theorem transmit_eq (c : Connection) (t : Transmission) :
    transmit now c t =
      { c with
        transmitted := c.transmitted ++ [c.outgoing t]
        probe := c.probe.on c.options now } := by
  rw [transmit, outgoing]
  split
  · rfl
  · rw [send_eq]

/-- The outbox goes out in order, and only the probe notices. -/
theorem flush_eq (c : Connection) :
    ∃ probe, c.flush now =
      { c with
        sender := { c.sender with outbox := [] }
        probe := probe
        transmitted := c.transmitted ++ c.sender.outbox.map c.outgoing } := by
  have hfold : ∀ (ts : List Transmission) (c : Connection), ∃ probe,
      ts.foldl (transmit now) c =
        { c with probe := probe, transmitted := c.transmitted ++ ts.map c.outgoing } := by
    intro ts
    induction ts with
    | nil =>
        intro c
        exact ⟨c.probe, by simp⟩
    | cons t ts ih =>
        intro c
        obtain ⟨probe, h⟩ := ih (transmit now c t)
        refine ⟨probe, ?_⟩
        rw [List.foldl_cons, h, transmit_eq, List.map_cons, List.append_assoc]
        rfl
  exact hfold _ _

/-- A packet is sent with its type. -/
theorem type_wire (c : Connection) (packet : Packet) (address : Option Address) :
    (c.wire packet address).packet.header.type = packet.header.type := by
  rw [wire]
  dsimp only
  split
  · rw [header_pushValue]
  · rfl

theorem header_onSend (options : ConnectionOptions) (packet : Packet) :
    (HandshakeOptions.onSend options packet).2.header = packet.header := by
  rw [HandshakeOptions.onSend]
  split
  · exact header_pushValue _ _
  · rfl

theorem type_outgoing (c : Connection) (t : Transmission) :
    (c.outgoing t).packet.header.type = t.packet.header.type := by
  rw [outgoing, type_wire]
  split
  · rfl
  · rw [header_onSend]

/-- What a call on the sender does to the connection. -/
theorem call_eq (c : Connection) (call : SenderCall) :
    ∃ probe, c.call z now call =
      { c with
        sender := { c.sender.call (c.env z now) call with outbox := [] }
        probe := probe
        transmitted := c.transmitted ++
          (c.sender.call (c.env z now) call).outbox.map c.outgoing } :=
  flush_eq now _

theorem handshake_call (c : Connection) (call : SenderCall) :
    (c.call z now call).handshake = c.handshake := by
  obtain ⟨probe, h⟩ := call_eq z now c call
  rw [h]

/-- Send one packet reliably on the established path. -/
def sendReliably (c : Connection) (packet : Packet) : Connection :=
  c.call z now (.sendReliably ⟨⟨packet, none⟩, none⟩ false)

/-! ## Opening and closing -/

/-- `Connection::openUser`. -/
def openUser (c : Connection) (options : Option ConnectionOptions)
    (receiveHandler closeHandler : Bool) : Connection :=
  let c := match options with
    | none => c
    | some options => { c with options := merge options c.options }
  if c.userDataDisposed then
    { c with
      userDataDisposed := false
      receiveHandler := receiveHandler
      closeHandler := closeHandler }
  else c

theorem handshake_openUser (c : Connection) (options : Option ConnectionOptions)
    (receiveHandler closeHandler : Bool) :
    (c.openUser options receiveHandler closeHandler).handshake = c.handshake := by
  cases options <;> simp only [openUser] <;> split <;> rfl

/-- `Connection::closeUser`. -/
def closeUser (event : Event) (c : Connection) : Connection :=
  if c.userDataDisposed then c
  else
    let closeHandler := c.closeHandler
    let c := { c with userDataDisposed := true, receiveHandler := false, closeHandler := false }
    if closeHandler then react { c with closeEvents := c.closeEvents ++ [event] } else c

/-- `Connection::finishWhenReady`. -/
def finishWhenReady (c : Connection) : Connection :=
  let interval := toDuration (Arithmetic.ieee.single (c.sender.rtt.duration * 3))
  { c with finishTimeout := some (now + milliseconds interval) }

/-- `Connection::close(event)`. -/
def closeWith (event : Event) (c : Connection) : Connection :=
  if c.closed then c
  else finishWhenReady now (closeUser react event { c with closed := true })

/-- `Connection::possiblyClose`. -/
def possiblyClose (c : Connection) : Connection :=
  if c.closed then c
  else if c.sender.status = .closed ∧ c.receiver.status = .closed ∧ c.sender.empty = true then
    closeWith now react c.closeReason c
  else c

/-- `Receiver::close`. -/
def closeReceiver (c : Connection) : Connection :=
  if c.receiver.status ≠ .closed then
    let c := if c.canSend then c.sendReliably z now { header := { type := TypeID.closeRead } }
      else c
    { c with receiver := { c.receiver with status := .closed } }
  else c

/-- `Connection::close()`. -/
def close (c : Connection) : Connection :=
  possiblyClose now react (closeReceiver z now (c.call z now .close))

/-- `Connection::fail` up to `possiblyClose`. -/
def failParts (event : Event) (c : Connection) : Connection :=
  call z now
    { c with
      closeReason := event
      probe := c.probe.close
      receiver := { c.receiver with status := .closed } } .fail

/-- `Connection::fail`. -/
def fail (event : Event) (c : Connection) : Connection :=
  possiblyClose now react (failParts z now event c)

end Connection

/-! ## The user -/

/-- A call of the user on a connection. -/
inductive UserCall
  /-- `mrudp_send`. -/
  | send (data : Bytes) (reliability : Reliability)
  /-- `mrudp_close_connection`: what the close handler does if `Connection::close` calls
  it, and what it does if `closeUser` calls it. -/
  | close (onClose onCloseUser : List UserCall)
  /-- `mrudp_accept_ex`. -/
  | accept (options : Option ConnectionOptions) (receiveHandler closeHandler : Bool)
  /-- `mrudp_connection_options_set`. -/
  | setOptions (options : ConnectionOptions)

namespace Connection

mutual

/-- A call of the user. -/
def userCall (z : Zlib) (now : Timepoint) : UserCall → Connection → Connection
  | .send data reliability, c => c.call z now (.send data reliability)
  | .close onClose onCloseUser, c =>
      closeUser (userCalls z now onCloseUser) .closed
        (close z now (userCalls z now onClose) c)
  | .accept options receiveHandler closeHandler, c =>
      c.openUser options receiveHandler closeHandler
  | .setOptions options, c => { c with options := options }

/-- Calls of the user, one after the other. -/
def userCalls (z : Zlib) (now : Timepoint) : List UserCall → Connection → Connection
  | [], c => c
  | call :: calls, c => userCalls z now calls (userCall z now call c)

end

/-! ## Receiving -/

variable (z : Zlib) (now : Timepoint) (react : Connection → Connection)
  (scripts : List (List UserCall))

/-- A call the receiver makes. -/
def carryOut (c : Connection) :
    ReceiverCall → Connection
  | .ack packetID => c.call z now (.ack packetID)
  | .onAck ack => possiblyClose now react (c.call z now (.onAck ack))
  | .receive data reliability =>
      if c.receiveHandler then
        react { c with delivered := c.delivered ++ [(data, reliability)] }
      else c
  | .close => possiblyClose now react (closeReceiver z now c)

/-- The calls the receiver makes, each with what the handler it calls does. -/
def carryOutAll (z : Zlib) (now : Timepoint) :
    List (List UserCall) → List ReceiverCall → Connection → Connection
  | _, [], c => c
  | [], call :: calls, c => carryOutAll z now [] calls (carryOut z now (fun c => c) c call)
  | script :: scripts, call :: calls, c =>
      carryOutAll z now scripts calls (carryOut z now (userCalls z now script) c call)

/-- `Handshake::initiate`. -/
def initiate (c : Connection) : Connection :=
  let c := c.sendReliably z now { header := { type := TypeID.h0 } }
  { c with handshake := { c.handshake with waitingFor := TypeID.h1 } }

/-- `Handshake::onHandshakeComplete`. -/
def onHandshakeComplete (c : Connection) : Connection :=
  let (calls, receiver) := c.receiver.open z
  let c := carryOutAll z now scripts calls { c with receiver := receiver }
  c.call z now .open

/-- `readRemoteID` of `Handshake::handlePacket`. -/
def readRemoteID (packet : Packet) : ShortConnectionID × Packet :=
  match popData packet 2 with
  | none => (0, packet)
  | some (data, packet) => (BitVec.ofNat 16 (leNat data), packet)

/-- The handshake is complete: the last two branches of `Handshake::handlePacket`. -/
def complete (c : Connection) (remoteID : ShortConnectionID) (firstNonHandshakePacketID : PacketID) :
    Connection :=
  onHandshakeComplete z now scripts
    { c with remoteID := remoteID
             handshake := ⟨TypeID.handshakeComplete, firstNonHandshakePacketID⟩ }

/-- `Handshake::handlePacket`. -/
def handlePacket (c : Connection) (packet : Packet) : Connection :=
  if packet.header.type = TypeID.h0 then
    let c := c.send now { header := { type := TypeID.h1, id := packet.header.id } }
    if c.handshake.waitingFor = TypeID.h0 then
      { c with handshake := { c.handshake with waitingFor := TypeID.h2 } }
    else c
  else if packet.header.type = TypeID.h1 then
    if c.handshake.waitingFor = TypeID.h1 then
      let c := { c with handshake := { c.handshake with waitingFor := TypeID.h3 } }
      c.sendReliably z now
        (pushValue { header := { type := TypeID.h2 } } (leBytes 2 c.localID.toNat)).2
    else c
  else if packet.header.type = TypeID.h2 then
    let (remoteID, _) := readRemoteID packet
    let ack : Packet := { header := { type := TypeID.h3, id := packet.header.id } }
    let c := c.send now (pushValue ack (leBytes 2 c.localID.toNat)).2
    if c.handshake.waitingFor = TypeID.h2 then
      complete z now scripts c remoteID (packet.header.id + 1)
    else c
  else if packet.header.type = TypeID.h3 then
    let (remoteID, _) := readRemoteID packet
    if c.handshake.waitingFor = TypeID.h3 then
      complete z now scripts c remoteID c.handshake.firstNonHandshakePacketID
    else c
  else c

/-- `Handshake::onReceive`, which keeps every packet.  What is left of the packet's data is
not read again. -/
def handshakeOnReceive (c : Connection) (packet : Packet) : Connection :=
  if isHandshake packet.header.type then handlePacket z now scripts c packet else c

/-- `NetworkPath::onReceive`. -/
def networkPathOnReceive (c : Connection) (packet : Packet) (path : Address) :
    PacketDiscard × Packet × Connection :=
  if packet.header.type = TypeID.authenticateChallenge then
    -- `sendChallengeResponse` sends the challenge back.
    let ack : Packet :=
      { header := { type := TypeID.authenticateResponse, id := packet.header.id }
        data := packet.data }
    (.keep, packet, c.send now ack)
  else if path ≠ c.remoteAddress then
    if packet.header.type = TypeID.authenticateResponse then
      match NetworkPath.verifyChallengeResponse c.remoteAddress now packet path with
      | (true, packet) => (.keep, packet, { c with remoteAddress := path })
      | (false, packet) => (.discard, packet, c)
    else
      let paths : MultiPacketPath :=
        ⟨⟨NetworkPath.challenge now none, none⟩,
          some ⟨NetworkPath.challenge now (some path), some path⟩⟩
      (.discard, packet, c.call z now (.sendReliably paths true))
  else (.keep, packet, c)

/-- `Sender::onReceive`. -/
def senderOnReceive (c : Connection) (packet : Packet) : Connection :=
  if isAck packet.header.type then
    possiblyClose now react (c.call z now (.onAck ⟨packet.header.id, 0⟩))
  else if packet.header.type = TypeID.closeRead then
    possiblyClose now react (c.call z now .fail)
  else c

/-- `Receiver::onReceive`. -/
def receiverOnReceive (c : Connection) (packet : Packet) : Connection :=
  let (calls, receiver) := c.receiver.onReceive z packet
  carryOutAll z now scripts calls { c with receiver := receiver }

/-- What the user's handlers do while a packet is received. -/
structure Reactions where
  opened : List (List UserCall) := []
  acked : List UserCall := []
  received : List (List UserCall) := []

/-- `Connection::receive`, once the packet has passed the network path. -/
def accept (reactions : Reactions) (c : Connection) (packet : Packet) : Connection :=
  let c := handshakeOnReceive z now reactions.opened c packet
  let c := { c with probe := c.probe.on c.options now }
  let c := senderOnReceive z now (userCalls z now reactions.acked) c packet
  receiverOnReceive z now reactions.received c packet

/-- `Connection::receive`. -/
def receive (reactions : Reactions) (c : Connection) (packet : Packet) (path : Address) :
    Connection :=
  match HandshakeOptions.onReceive c.options packet with
  | (.discard, _, _) => c
  | (.keep, packet, options) =>
      match networkPathOnReceive z now { c with options := options } packet path with
      | (.discard, _, c) => c
      | (.keep, packet, c) => accept z now reactions c packet

/-! ## Timeouts -/

/-- `Retrier::onRetryTimeout`. -/
def retryTimeout (c : Connection) : Connection :=
  if (c.sender.onRetryTimeout (c.env z now)).1 then fail z now react .timeout c
  else c.call z now .retryTimeout

/-- `Probe::onTimeout`. -/
def probeTimeout (c : Connection) : Connection :=
  if c.probe.status = .closed then c
  else
    let nextProbe := c.probe.nextProbeTime
    let c := { c with probe := { c.probe with isRegistered := false } }
    if nextProbe < now then
      let c := { c with probe := c.probe.on c.options now }
      if c.sender.status = .open then
        c.sendReliably z now { header := { type := TypeID.probe } }
      else fail z now react .timeout c
    else { c with probe := c.probe.registerTimeout nextProbe }

/-! ## The connection as a machine -/

/-- What can happen to a connection once it is started. -/
inductive Input
  | user (call : UserCall)
  | receive (packet : Packet) (path : Address) (reactions : Reactions)
  | processSchedule (reliability : Reliability)
  | retryTimeout (script : List UserCall)
  | probeTimeout (script : List UserCall)
  /-- `Connection::close(event)`, by the socket. -/
  | close (event : Event) (script : List UserCall)

/-- One thing happens, at its time. -/
def step (c : Connection) : Timepoint × Input → Connection
  | (now, .user call) => c.userCall z now call
  | (now, .receive packet path reactions) => c.receive z now reactions packet path
  | (now, .processSchedule reliability) => c.call z now (.processSchedule reliability)
  | (now, .retryTimeout script) => c.retryTimeout z now (userCalls z now script)
  | (now, .probeTimeout script) => c.probeTimeout z now (userCalls z now script)
  | (now, .close event script) => c.closeWith now (userCalls z now script) event

/-- A connection as the constructor leaves it. -/
def fresh (id : LongConnectionID) (localID : ShortConnectionID) (remoteAddress : Address)
    (options : ConnectionOptions) : Connection :=
  { id := id, localID := localID, remoteAddress := remoteAddress, options := options }

/-- `Connection::open`. -/
def start (c : Connection) : Connection :=
  { c with probe := c.probe.on c.options now }

/-- `Socket::connect`, as far as the new connection is concerned. -/
def connect (options : Option ConnectionOptions) (receiveHandler closeHandler : Bool)
    (c : Connection) : Connection :=
  initiate z now (start now (c.openUser options receiveHandler closeHandler))

/-- How a connection starts: it is connected by the user, or created by the socket. -/
inductive Started (z : Zlib) : Connection → Prop
  | connected (id : LongConnectionID) (localID : ShortConnectionID) (remoteAddress : Address)
      (socketOptions : ConnectionOptions) (now : Timepoint) (options : Option ConnectionOptions)
      (receiveHandler closeHandler : Bool) :
      Started z (connect z now options receiveHandler closeHandler
        (fresh id localID remoteAddress socketOptions))
  | created (id : LongConnectionID) (localID : ShortConnectionID) (remoteAddress : Address)
      (socketOptions : ConnectionOptions) (now : Timepoint) :
      Started z (start now (fresh id localID remoteAddress socketOptions))

/-- The states a connection can reach. -/
def Reachable (c : Connection) : Prop :=
  ∃ c₀ inputs, Started z c₀ ∧ c = Machine.run (step z) c₀ inputs

end Connection
end MrUDP
