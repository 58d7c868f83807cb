import MrUDP.Lib.Run
import MrUDP.Proxy.Message
import MrUDP.Receiver.Receiver
import MrUDP.Sender.Calls
import MrUDP.Stream.RoundTrip

/-!
# Forwarding a connection

`mrudp/Proxy.cpp`.  What the receiver of a client's connection hands over, one proxy puts on the
wire, and the other sends it on the connection to the target that `on_connection_open` has opened.
That connection puts every chunk into a packet of its own, so a chunk must fit into one; but the
messages of a client whose connection is compressed may be longer than a packet, and are handed over
whole.

The wire passes the batches on as they were sent (`Proxy.framing`).

## Main definitions

* `Sender.reliableData`: the bytes that a sender has taken on to deliver.
* `Proxy.targetOptions`: the options of the connection to the target.
* `Proxy.Relay`: a connection that is forwarded, as a machine.
* `Proxy.forwarding`: a chunk is accepted exactly if it fits into a packet.
* `Proxy.chunk_lost`: a chunk that does not.
-/

namespace MrUDP
open Wire Machine
open Traffic (copying)

/-! ## What a sender takes on -/

namespace Sender

variable {e : Env} {s s' : Sender}

/-- The data of all messages that have entered the reliable queue. -/
def reliableData (s : Sender) : Bytes :=
  (s.dataQueue.generated.filter (·.type = FrameTypeID.data)).flatMap Frame.data

/-- A sender that is not closed and has nothing to compress. -/
structure Plain (s : Sender) : Prop where
  status : s.status ≠ .closed
  queueStatus : s.dataQueue.status = .open
  wf : ∃ b, s.dataQueue.WF b
  buffer : s.dataQueue.compressionBuffer = []

theorem plain_init : Plain {} := ⟨by decide, rfl, ⟨0, .init⟩, rfl⟩

/-- A change that takes on nothing. -/
def Keeps (s s' : Sender) : Prop :=
  s.Plain → s'.Plain ∧ s'.dataQueue.generated = s.dataQueue.generated

theorem Keeps.of_eq (hstatus : s'.status = s.status) (hqueue : s'.dataQueue = s.dataQueue) :
    Keeps s s' := by
  intro h
  obtain ⟨hopen, hplain⟩ := h
  refine ⟨⟨by rwa [hstatus], ?_, ?_, ?_⟩, by rw [hqueue]⟩ <;> rw [hqueue] <;> assumption

theorem Keeps.trans {s'' : Sender} (h : Keeps s s') (h' : Keeps s' s'') : Keeps s s'' := by
  intro hs
  obtain ⟨hs', hgenerated⟩ := h hs
  obtain ⟨hs'', hgenerated'⟩ := h' hs'
  exact ⟨hs'', hgenerated'.trans hgenerated⟩

theorem keeps_transmit {p : Packet} {q : SendQueue} (hq : s.Dequeues e p q) :
    Keeps s (s.transmit e p q) := by
  rintro ⟨hstatus, hopen, ⟨b, hwf⟩, hbuffer⟩
  obtain ⟨-, -, hopen', n, fs, -, hwf', hgenerated, hplain, -⟩ := hwf.of_dequeue hq
  obtain ⟨rfl, hbuffer'⟩ := hplain hbuffer
  exact ⟨⟨hstatus, hopen', ⟨_, hwf'⟩, hbuffer'⟩, hgenerated.trans (List.append_nil _)⟩

/-- Processing the queues takes on nothing. -/
theorem pass_keeps (e : Env) : Pass e Keeps where
  refl _ := .of_eq rfl rfl
  trans := .trans
  setSchedule _ _ reliability := by cases reliability <;> exact .of_eq rfl rfl
  transmit _ _ _ _ := keeps_transmit
  processUnreliableDataQueue s := by
    obtain ⟨-, -, hqueue, hstatus⟩ := processUnreliableDataQueue_frame (e := e) s
    exact .of_eq hstatus hqueue

end Sender

/-- A call that neither sends nor closes. -/
def SenderCall.Peaceful : SenderCall → Prop
  | .send _ _ | .close | .fail => False
  | _ => True

instance : DecidablePred SenderCall.Peaceful := fun call =>
  match call with
  | .send _ _ | .close | .fail => .isFalse id
  | .open | .sendReliably _ _ | .ack _ | .onAck _ | .processSchedule _ | .retryTimeout =>
      .isTrue trivial

namespace Sender

variable {e : Env} {s s' : Sender}

theorem keeps_call {call : SenderCall} (h : call.Peaceful) (s : Sender) :
    Keeps s (s.call e call) := by
  have hpass := pass_keeps e
  cases call with
  | «open» =>
      refine .trans ?_ (.trans (hpass.scheduleDataQueueProcessing _ .reliable false)
        (hpass.scheduleDataQueueProcessing _ .unreliable false))
      split
      · rintro ⟨-, hopen, hwf, hbuffer⟩
        exact ⟨⟨Status.noConfusion, hopen, hwf, hbuffer⟩, rfl⟩
      · exact .of_eq rfl rfl
  | send data reliability => exact h.elim
  | close => exact h.elim
  | fail => exact h.elim
  | sendReliably paths priority => exact .of_eq rfl rfl
  | ack packetID =>
      refine .trans ?_ (hpass.scheduleDataQueueProcessing _ .unreliable false)
      exact .of_eq rfl rfl
  | onAck ack =>
      obtain ⟨hqueue, _⟩ := acknowledge_frame (s := s) e.now ack
      obtain ⟨_, hstatus, _⟩ := acknowledge_unreliable (s := s) e.now ack
      exact .trans (.of_eq hstatus hqueue) (hpass.scheduleDataQueueProcessing _ _ _)
  | processSchedule reliability => exact hpass.processSchedule s reliability
  | retryTimeout =>
      rw [call, onRetryTimeout]
      split <;> exact .of_eq rfl rfl

/-- What is sent unreliably is not taken on. -/
theorem keeps_send_unreliable (data : Bytes) (s : Sender) :
    Keeps s (s.send e data .unreliable).2 := by
  rw [send]
  split
  · dsimp only
    split
    · exact .of_eq rfl rfl
    · rw [enqueue]
      dsimp only
      split
      · refine .trans ?_ ((pass_keeps e).scheduleDataQueueProcessing _ .unreliable false)
        exact .of_eq rfl rfl
      · exact .of_eq rfl rfl
  · exact .of_eq rfl rfl

/-- A chunk that is too long for a packet is refused. -/
theorem send_long (hs : s.Plain) (hmode : e.options.coalesceReliable.mode = .packet) {data : Bytes}
    (hdata : maxPacketDataSize < data.length) :
    s.send e data .reliable = (ErrorCode.packetSizeTooLarge, s) := by
  have hcoalesce : (e.options.coalesce .reliable).mode = .packet := hmode
  rw [send, if_pos hs.status]
  dsimp only
  rw [hcoalesce, if_pos ⟨hdata, by decide, by decide⟩]

/-- **A chunk that fits into a packet is taken on.** -/
theorem send_short (hs : s.Plain) (hmode : e.options.coalesceReliable.mode = .packet) {data : Bytes}
    (hdata : data.length ≤ maxPacketDataSize) :
    (s.send e data .reliable).1 = ErrorCode.ok ∧ (s.send e data .reliable).2.Plain ∧
      (s.send e data .reliable).2.reliableData = s.reliableData ++ data := by
  have hcoalesce : (e.options.coalesce .reliable).mode = .packet := hmode
  obtain ⟨hstatus, hopen, ⟨b, hwf⟩, hbuffer⟩ := hs
  rw [send, if_pos hstatus]
  dsimp only
  rw [hcoalesce, if_neg (fun h => not_lt.mpr hdata h.1)]
  obtain ⟨hwf', fs, henqueues⟩ :=
    @SendQueue.WF.enqueue b data s.dataQueue hwf hopen FrameTypeID.data .packet (.inl hdata)
  -- The sender right after the message has entered the queue.
  let pushed : Sender :=
    { s with dataQueue := s.dataQueue.enqueue FrameTypeID.data data .packet }
  have hpushed : pushed.Plain :=
    ⟨hstatus, henqueues.status.trans hopen, ⟨b, hwf'⟩, henqueues.buffer.trans hbuffer⟩
  have hdata : pushed.reliableData = s.reliableData ++ data := by
    obtain ⟨id, rfl⟩ := henqueues.single (.inr rfl)
    have hgenerated : pushed.dataQueue.generated = s.dataQueue.generated ++
        [⟨id, FrameTypeID.data, data⟩] := henqueues.generated
    rw [reliableData, hgenerated, List.filter_append, List.flatMap_append, reliableData]
    simp
  have hkeeps : Keeps pushed (s.enqueue e FrameTypeID.data data .reliable .packet) := by
    rw [enqueue]
    split
    · exact (pass_keeps e).scheduleDataQueueProcessing _ _ _
    · exact .of_eq rfl rfl
  obtain ⟨hplain, hgenerated⟩ := hkeeps hpushed
  refine ⟨rfl, hplain, ?_⟩
  rw [← hdata, reliableData, hgenerated, reliableData]

end Sender

namespace Proxy

/-! ## The connection to the target -/

/-- `mrudp_default_connection_options`, and what `on_connection_open` changes about them. -/
def openOptions : ConnectionOptions where
  coalesceReliable := ⟨.packet, 5, -1⟩
  coalesceUnreliable := ⟨.none, -1, -1⟩
  probeDelayMS := 30
  maximumRetryAttempts := -1

/-- The options of the connection to the target, on a socket with options `base`. -/
def targetOptions (base : ConnectionOptions) : ConnectionOptions := merge openOptions base

/-- What the target's sender reads.  The handshake may change the other options. -/
def ForTarget (base : ConnectionOptions) (e : Env) : Prop :=
  e.options.coalesceReliable = (targetOptions base).coalesceReliable ∧
    e.options.coalesceUnreliable = (targetOptions base).coalesceUnreliable

instance (base : ConnectionOptions) (e : Env) : Decidable (ForTarget base e) :=
  inferInstanceAs (Decidable (_ ∧ _))

theorem ForTarget.mode {base : ConnectionOptions} {e : Env} (h : ForTarget base e) :
    e.options.coalesceReliable.mode = .packet := by
  rw [h.1]
  rfl

/-! ## A connection that is forwarded -/

/-- What a receiver hands over. -/
def handed (calls : List ReceiverCall) : List (Bytes × Bool) :=
  calls.filterMap fun
    | .receive data reliability => some (data, reliability = .reliable)
    | _ => none

/-- `on_connection_packet`, in `CONNECTION` mode. -/
def Relay.onConnectionPacket (id : ProxyID) (out : Bytes) (data : Bytes) (isReliable : Bool) : Bytes :=
  if data = [] then out else sendQueue out (.data id isReliable data)

/-- A connection that is forwarded: the reassembly buffer of the client's receiver, what one proxy
has to send, the batches on the wire, the messages of a batch that the other proxy has not yet acted
on, and the sender of the connection to the target.

`chunks` are the reliable chunks handed over so far, and `results` those that have been sent to the
target, with what `mrudp_send` returned. -/
structure Relay where
  buffer : Bytes := []
  out : Bytes := []
  wire : List Bytes := []
  messages : List Message := []
  target : Sender := {}
  chunks : List Bytes := []
  results : List (Bytes × ErrorCode) := []

/-- What happens to a connection that is forwarded. -/
inductive RelayEvent
  /-- `Receiver::processReceived`, of the client's connection. -/
  | receive (reliability : Reliability) (frame : Visited)
  /-- `proxy_send_queue`, for another connection. -/
  | queue (message : Message)
  /-- `proxy_tick` sends. -/
  | tick
  /-- `on_wire_packet` is called with a batch. -/
  | arrive
  /-- `on_wire_packet` acts on a message. -/
  | forward (e : Env)
  /-- Something else happens to the connection to the target. -/
  | target (e : Env) (call : SenderCall)

namespace Relay

/-- A chunk is handed over. -/
def hand (id : ProxyID) (s : Relay) (chunk : Bytes × Bool) : Relay :=
  { s with
    out := onConnectionPacket id s.out chunk.1 chunk.2
    chunks := if chunk.2 then s.chunks ++ [chunk.1] else s.chunks }

/-- `on_wire_packet` acts on a message.  What it does about the other connections is left out, and
this one is neither opened again nor closed. -/
def act (id : ProxyID) (e : Env) (s : Relay) : Message → Relay
  | .data id' isReliable bytes =>
      if id' = id then
        if isReliable then
          let (code, target) := s.target.send e bytes .reliable
          { s with target := target, results := s.results ++ [(bytes, code)] }
        else { s with target := (s.target.send e bytes .unreliable).2 }
      else s
  | .open _ _ | .close _ => s

/-- Something happens. -/
def step (z : Zlib) (id : ProxyID) (s : Relay) : RelayEvent → Relay
  | .receive reliability frame =>
      let (calls, buffer) := Receiver.processReceived z reliability s.buffer frame
      (handed calls).foldl (hand id) { s with buffer := buffer }
  | .queue message => { s with out := sendQueue s.out message }
  | .tick => if s.out = [] then s else { s with out := [], wire := s.wire ++ [s.out] }
  | .arrive =>
      match s.messages, s.wire with
      | [], batch :: wire =>
          { s with
            wire := wire
            messages := (onWirePacket batch (BitVec.ofNat 32 batch.length)).1 }
      | _, _ => s
  | .forward e =>
      match s.messages with
      | [] => s
      | message :: messages => { s.act id e message with messages := messages }
  | .target e call => { s with target := s.target.call e call }

/-- Every length fits into its field, and the connection to the target stays open. -/
def Fits (z : Zlib) (id : ProxyID) (base : ConnectionOptions) (s : Relay) : RelayEvent → Prop
  | .receive reliability frame =>
      ∀ chunk ∈ handed (Receiver.processReceived z reliability s.buffer frame).1,
        chunk.1.length < 2 ^ 16
  | .queue message => message.id ≠ id ∧ message.payload.length < 2 ^ 16
  | .tick => s.out.length < 2 ^ 31
  | .arrive => True
  | .forward e => ForTarget base e
  | .target e call => ForTarget base e ∧ call.Peaceful

instance (z : Zlib) (id : ProxyID) (base : ConnectionOptions) (s : Relay) :
    DecidablePred (Fits z id base s) := fun event =>
  match event with
  | .receive _ _ => inferInstanceAs (Decidable (∀ chunk ∈ handed _, _))
  | .queue _ => inferInstanceAs (Decidable (_ ∧ _))
  | .tick => inferInstanceAs (Decidable (s.out.length < 2 ^ 31))
  | .arrive => .isTrue trivial
  | .forward _ => inferInstanceAs (Decidable (ForTarget _ _))
  | .target _ _ => inferInstanceAs (Decidable (_ ∧ _))

/-- The data of a message that is to be sent reliably to the target. -/
def wanted (id : ProxyID) : Message → Option Bytes
  | .data id' true bytes => if id' = id then some bytes else none
  | _ => none

/-- What is on the way: messages to be sent, and batches on the wire. -/
structure OnTheWay (out : Bytes) (wire : List Bytes) (queued : List Message)
    (batches : List (List Message)) : Prop where
  out_eq : out = queued.flatMap Message.bytes
  wire_eq : wire = batches.map (·.flatMap Message.bytes)
  queuedFit : ∀ m ∈ queued, m.payload.length < 2 ^ 16
  batchesFit : ∀ batch ∈ batches, (∀ m ∈ batch, m.payload.length < 2 ^ 16) ∧
    (batch.flatMap Message.bytes).length < 2 ^ 31

/-- The chunks handed over have been sent to the target or are on the way, in order, and the target
has taken on those that fit into a packet. -/
structure Relays (id : ProxyID) (s : Relay) : Prop where
  plain : s.target.Plain
  codes : ∀ r ∈ s.results, r.2 =
    if r.1.length ≤ maxPacketDataSize then ErrorCode.ok else ErrorCode.packetSizeTooLarge
  data : s.target.reliableData =
    ((s.results.map Prod.fst).filter (·.length ≤ maxPacketDataSize)).flatten
  pending : ∃ queued batches, OnTheWay s.out s.wire queued batches ∧ s.chunks.filter (· ≠ []) =
    s.results.map Prod.fst ++ (s.messages ++ batches.flatten ++ queued).filterMap (wanted id)

theorem relays_init (id : ProxyID) : Relays id {} where
  plain := Sender.plain_init
  codes := by simp
  data := rfl
  pending := ⟨[], [], ⟨rfl, rfl, by simp, by simp⟩, rfl⟩

variable {z : Zlib} {id : ProxyID} {base : ConnectionOptions} {s : Relay}

theorem Relays.hand (h : Relays id s) {chunk : Bytes × Bool} (hchunk : chunk.1.length < 2 ^ 16) :
    Relays id (s.hand id chunk) := by
  obtain ⟨data, isReliable⟩ := chunk
  obtain ⟨hplain, hcodes, hdata, queued, batches, hway, hpending⟩ := h
  refine ⟨hplain, hcodes, hdata, ?_⟩
  by_cases hempty : data = []
  · -- An empty chunk is dropped.
    refine ⟨queued, batches, { hway with out_eq := ?_ }, ?_⟩
    · rw [Relay.hand, Relay.onConnectionPacket, if_pos hempty, hway.out_eq]
    · rw [Relay.hand, ← hpending]
      cases isReliable <;> simp [hempty]
  · refine ⟨queued ++ [.data id isReliable data], batches, ⟨?_, hway.wire_eq, ?_, hway.batchesFit⟩, ?_⟩
    · rw [Relay.hand, Relay.onConnectionPacket, if_neg hempty, sendQueue, hway.out_eq,
        List.flatMap_append, List.flatMap_singleton]
    · intro m hm
      rcases List.mem_append.mp hm with hm | hm
      · exact hway.queuedFit m hm
      · rw [List.mem_singleton.mp hm]
        exact hchunk
    · have hsent : s.chunks.filter (· ≠ []) ++ (if isReliable then [data] else []) =
          s.results.map Prod.fst ++ (s.messages ++ batches.flatten ++
            (queued ++ [Message.data id isReliable data])).filterMap (wanted id) := by
        rw [← List.append_assoc, List.filterMap_append, ← List.append_assoc, ← hpending]
        cases isReliable <;> simp [wanted]
      refine Eq.trans ?_ hsent
      rw [Relay.hand]
      cases isReliable <;> simp [hempty]

theorem Relays.hand_all {chunks : List (Bytes × Bool)}
    (hchunks : ∀ chunk ∈ chunks, chunk.1.length < 2 ^ 16) (h : Relays id s) :
    Relays id (chunks.foldl (Relay.hand id) s) := by
  induction chunks generalizing s with
  | nil => exact h
  | cons chunk chunks ih =>
      exact ih (fun c hc => hchunks c (List.mem_cons_of_mem _ hc))
        (h.hand (hchunks chunk List.mem_cons_self))

variable {message : Message} {messages : List Message}

theorem Relays.queue (h : Relays id s) (hid : message.id ≠ id)
    (hsize : message.payload.length < 2 ^ 16) :
    Relays id { s with out := sendQueue s.out message } := by
  obtain ⟨hplain, hcodes, hdata, queued, batches, hway, hpending⟩ := h
  refine ⟨hplain, hcodes, hdata, queued ++ [message], batches,
    ⟨?_, hway.wire_eq, ?_, hway.batchesFit⟩, ?_⟩
  · rw [sendQueue, hway.out_eq, List.flatMap_append, List.flatMap_singleton]
  · intro m hm
    rcases List.mem_append.mp hm with hm | hm
    · exact hway.queuedFit m hm
    · rw [List.mem_singleton.mp hm]
      exact hsize
  · have hother : wanted id message = none := by
      cases message with
      | «open» id' address => rfl
      | close id' => rfl
      | data id' isReliable bytes =>
          cases isReliable with
          | false => rfl
          | true => exact if_neg hid
    have hsame : ∀ before : List Message,
        (before ++ [message]).filterMap (wanted id) = before.filterMap (wanted id) := by
      intro before
      rw [List.filterMap_append, List.filterMap_cons_none hother, List.filterMap_nil,
        List.append_nil]
    rw [hpending, ← List.append_assoc _ queued, hsame]

theorem Relays.tick (h : Relays id s) (hsize : s.out.length < 2 ^ 31) :
    Relays id { s with out := [], wire := s.wire ++ [s.out] } := by
  obtain ⟨hplain, hcodes, hdata, queued, batches, hway, hpending⟩ := h
  refine ⟨hplain, hcodes, hdata, [], batches ++ [queued], ⟨rfl, ?_, by simp, ?_⟩, ?_⟩
  · dsimp only
    rw [hway.wire_eq, List.map_append, List.map_singleton, hway.out_eq]
  · intro batch hbatch
    rcases List.mem_append.mp hbatch with hbatch | hbatch
    · exact hway.batchesFit batch hbatch
    · rw [List.mem_singleton.mp hbatch, ← hway.out_eq]
      exact ⟨hway.queuedFit, hsize⟩
  · dsimp only
    rw [hpending, List.flatten_append, List.flatten_singleton, List.append_nil, List.append_assoc]

theorem Relays.arrive (h : Relays id s) (hmessages : s.messages = []) {batch : Bytes}
    {rest : List Bytes} (hwire : s.wire = batch :: rest) :
    Relays id { s with
      wire := rest, messages := (onWirePacket batch (BitVec.ofNat 32 batch.length)).1 } := by
  obtain ⟨hplain, hcodes, hdata, queued, batches, hway, hpending⟩ := h
  have hmap := hway.wire_eq
  rw [hwire] at hmap
  cases batches with
  | nil => cases hmap
  | cons sent batches =>
      obtain ⟨rfl, rfl⟩ := List.cons.inj hmap
      obtain ⟨hfits, hsize⟩ := hway.batchesFit sent List.mem_cons_self
      have hread := onWirePacket_append hsize hfits []
      rw [List.append_nil] at hread
      refine ⟨hplain, hcodes, hdata, queued, batches, ⟨hway.out_eq, rfl, hway.queuedFit, ?_⟩, ?_⟩
      · exact fun batch hbatch => hway.batchesFit batch (List.mem_cons_of_mem _ hbatch)
      · dsimp only
        rw [hread, hpending, hmessages, List.nil_append, List.flatten_cons]

theorem Relays.target (h : Relays id s) {target : Sender} (hkeeps : s.target.Keeps target) :
    Relays id { s with target := target } := by
  obtain ⟨hplain, hcodes, hdata, hpending⟩ := h
  obtain ⟨hplain', hgenerated⟩ := hkeeps hplain
  refine ⟨hplain', hcodes, ?_, hpending⟩
  rw [← hdata, Sender.reliableData, hgenerated, Sender.reliableData]

/-- A chunk reaches the target. -/
theorem Relays.send (h : Relays id s) {e : Env} (he : ForTarget base e) {bytes : Bytes}
    (hmessages : s.messages = .data id true bytes :: messages) :
    Relays id { s with
      target := (s.target.send e bytes .reliable).2
      results := s.results ++ [(bytes, (s.target.send e bytes .reliable).1)]
      messages := messages } := by
  obtain ⟨hplain, hcodes, hdata, queued, batches, hway, hpending⟩ := h
  have hwanted : wanted id (.data id true bytes) = some bytes := if_pos rfl
  rw [hmessages, List.cons_append, List.cons_append, List.filterMap_cons_some hwanted] at hpending
  obtain ⟨hcode, hplain', hdata'⟩ : (s.target.send e bytes .reliable).1 =
        (if bytes.length ≤ maxPacketDataSize then ErrorCode.ok
          else ErrorCode.packetSizeTooLarge) ∧
      (s.target.send e bytes .reliable).2.Plain ∧
      (s.target.send e bytes .reliable).2.reliableData = s.target.reliableData ++
        if bytes.length ≤ maxPacketDataSize then bytes else [] := by
    split
    next hsize => exact Sender.send_short hplain he.mode hsize
    next hsize =>
      rw [Sender.send_long hplain he.mode (not_le.mp hsize), List.append_nil]
      exact ⟨rfl, hplain, rfl⟩
  refine ⟨hplain', ?_, ?_, queued, batches, hway, ?_⟩
  · intro r hr
    rcases List.mem_append.mp hr with hr | hr
    · exact hcodes r hr
    · rw [List.mem_singleton.mp hr, hcode]
  · dsimp only
    rw [hdata', hdata, List.map_append, List.filter_append, List.flatten_append, List.map_singleton,
      List.filter_singleton]
    by_cases hsize : bytes.length ≤ maxPacketDataSize <;> simp [hsize]
  · dsimp only
    rw [hpending, List.append_cons, List.map_append, List.map_singleton]

/-- A message that is not for the target's reliable stream. -/
theorem Relays.drop (h : Relays id s) (hother : wanted id message = none)
    (hmessages : s.messages = message :: messages) : Relays id { s with messages := messages } := by
  obtain ⟨hplain, hcodes, hdata, queued, batches, hway, hpending⟩ := h
  refine ⟨hplain, hcodes, hdata, queued, batches, hway, ?_⟩
  rw [hpending, hmessages, List.cons_append, List.cons_append, List.filterMap_cons_none hother]

theorem Relays.forward (h : Relays id s) {e : Env} (he : ForTarget base e)
    (hmessages : s.messages = message :: messages) :
    Relays id { s.act id e message with messages := messages } := by
  cases message with
  | «open» id' address => exact h.drop rfl hmessages
  | close id' => exact h.drop rfl hmessages
  | data id' isReliable bytes =>
      by_cases hid : id' = id
      · subst hid
        cases isReliable with
        | true =>
            rw [act, if_pos rfl, if_pos rfl]
            exact h.send he hmessages
        | false =>
            rw [act, if_pos rfl, if_neg Bool.false_ne_true]
            exact (h.drop rfl hmessages).target (Sender.keeps_send_unreliable bytes s.target)
      · rw [act, if_neg hid]
        refine h.drop ?_ hmessages
        cases isReliable with
        | true => exact if_neg hid
        | false => rfl

theorem Relays.step (h : Relays id s) {event : RelayEvent} (hfits : s.Fits z id base event) :
    Relays id (s.step z id event) := by
  cases event with
  | receive reliability frame =>
      exact Relays.hand_all hfits { h with }
  | queue message => exact h.queue hfits.1 hfits.2
  | tick =>
      rw [Relay.step]
      split
      · exact h
      · exact h.tick hfits
  | arrive =>
      rw [Relay.step]
      split
      next batch wire hmessages hwire => exact h.arrive hmessages hwire
      · exact h
  | forward e =>
      rw [Relay.step]
      split
      · exact h
      next message messages hmessages => exact h.forward hfits hmessages
  | target e call => exact h.target (Sender.keeps_call hfits.2 s.target)

/-! ## What reaches the target -/

theorem flatten_filter_eq_iff {l : List Bytes} :
    (l.filter (·.length ≤ maxPacketDataSize)).flatten = l.flatten ↔
      ∀ bytes ∈ l, bytes.length ≤ maxPacketDataSize := by
  refine ⟨fun h => ?_, fun h => ?_⟩
  · have hlength : ∀ l : List Bytes,
        (l.filter (·.length ≤ maxPacketDataSize)).flatten.length ≤ l.flatten.length :=
      fun l => List.filter_sublist.flatten.length_le
    induction l with
    | nil => simp
    | cons bytes l ih =>
        have hshorter := hlength l
        by_cases hsize : bytes.length ≤ maxPacketDataSize
        · rw [List.filter_cons_of_pos (by simpa using hsize), List.flatten_cons, List.flatten_cons,
            List.append_cancel_left_eq] at h
          exact List.forall_mem_cons.mpr ⟨hsize, ih h⟩
        · -- A chunk that is left out is not empty, so something is missing.
          rw [List.filter_cons_of_neg (by simpa using hsize), List.flatten_cons] at h
          have hsame := congrArg List.length h
          rw [List.length_append] at hsame
          omega
  · rw [List.filter_eq_self.mpr (by simpa using h)]

theorem OnTheWay.nothing {queued : List Message} {batches : List (List Message)}
    (h : OnTheWay [] [] queued batches) : queued = [] ∧ batches = [] := by
  refine ⟨?_, List.map_eq_nil_iff.mp h.wire_eq.symm⟩
  cases queued with
  | nil => rfl
  | cons message queued =>
      have hout := congrArg List.length h.out_eq
      rw [List.flatMap_cons, List.length_append, length_message, List.length_nil] at hout
      omega

/-- **What is forwarded is accepted by the target exactly if it fits into a packet**, and its stream
is what was forwarded exactly if all of it does.  What is forwarded is what the client's receiver
has handed over, in order; and when nothing is on the way, it is all of it. -/
theorem forwarding (z : Zlib) (id : ProxyID) (base : ConnectionOptions) (events : List RelayEvent)
    (hfits : Along (step z id) (Fits z id base) {} events) (s : Relay)
    (hs : run (step z id) {} events = s) :
    (∀ r ∈ s.results, r.2 = ErrorCode.ok ↔ r.1.length ≤ maxPacketDataSize) ∧
      s.results.map Prod.fst <+: s.chunks.filter (· ≠ []) ∧
      (s.target.reliableData = (s.results.map Prod.fst).flatten ↔
        ∀ r ∈ s.results, r.1.length ≤ maxPacketDataSize) ∧
      (s.out = [] → s.wire = [] → s.messages = [] →
        (s.target.reliableData = s.chunks.flatten ↔
          ∀ chunk ∈ s.chunks, chunk.length ≤ maxPacketDataSize)) := by
  subst hs
  obtain ⟨-, hcodes, hdata, queued, batches, hway, hpending⟩ :=
    run_invariant (Relays id) (fun _ _ h hfits => h.step hfits) (relays_init id) hfits
  generalize run (step z id) {} events = s at *
  refine ⟨?_, ⟨_, hpending.symm⟩, ?_, ?_⟩
  · intro r hr
    rw [hcodes r hr]
    split
    next hsize => exact iff_of_true rfl hsize
    next hsize => exact iff_of_false (by decide) hsize
  · rw [hdata, flatten_filter_eq_iff, List.forall_mem_map]
  · intro hout hwire hmessages
    rw [hout, hwire] at hway
    obtain ⟨rfl, rfl⟩ := hway.nothing
    rw [hmessages, List.flatten_nil, List.append_nil, List.append_nil, List.filterMap_nil,
      List.append_nil] at hpending
    have hflatten : s.chunks.flatten = (s.chunks.filter (· ≠ [])).flatten :=
      List.flatten_filter_ne_nil.symm
    rw [hdata, ← hpending, hflatten, flatten_filter_eq_iff]
    refine ⟨fun h chunk hchunk => ?_, fun h chunk hchunk => h chunk (List.mem_of_mem_filter hchunk)⟩
    by_cases hempty : chunk = []
    · simp [hempty]
    · exact h chunk (List.mem_filter.mpr ⟨hchunk, by simpa using hempty⟩)

/-- What the target's sender reads, before the handshake. -/
def targetEnv : Env := ⟨copying, false, targetOptions getDefaultConnectionOptions, 0⟩

/-- Two chunks, an empty one between them, and a message for another connection. -/
def twoChunks : List RelayEvent :=
  [.receive .reliable (⟨0, FrameTypeID.data, [1, 2]⟩, []),
    .receive .reliable (⟨1, FrameTypeID.data, []⟩, []), .tick,
    .receive .reliable (⟨2, FrameTypeID.data, [3]⟩, []), .queue (.data 9 true [4]), .arrive, .tick,
    .forward targetEnv, .arrive, .target targetEnv .open, .forward targetEnv, .forward targetEnv]

theorem forwarding_twoChunks :
    (run (step copying 1) {} twoChunks).target.reliableData =
        (run (step copying 1) {} twoChunks).chunks.flatten ∧
      (run (step copying 1) {} twoChunks).chunks = [[1, 2], [], [3]] :=
  ⟨((forwarding copying 1 getDefaultConnectionOptions twoChunks (by decide +kernel) _ rfl).2.2.2
      (by decide +kernel) (by decide +kernel) (by decide +kernel)).mpr (by decide +kernel),
    by decide +kernel⟩

/-- A message of 1500 bytes from a client whose connection is compressed. -/
def longMessage : Bytes := List.replicate 1500 7

/-- The block of the message. -/
def longBlock : Bytes :=
  SendQueue.compressedBlock copying 0 (SendQueue.subframe FrameTypeID.data longMessage)

/-- The block arrives in two frames. -/
def longChunk : List RelayEvent :=
  [.receive .reliable (⟨0, FrameTypeID.dataCompressed, longBlock.take 1000⟩, []),
    .receive .reliable (⟨1, FrameTypeID.dataCompressed, longBlock.drop 1000⟩, []), .tick, .arrive,
    .forward targetEnv]

/-- **A chunk that does not fit into a packet is lost**, although it fits into the field of the
header and the connection is open. -/
theorem chunk_lost :
    Along (step copying 1) (Fits copying 1 getDefaultConnectionOptions) {} longChunk ∧
      (run (step copying 1) {} longChunk).chunks = [longMessage] ∧
      (run (step copying 1) {} longChunk).results =
        [(longMessage, ErrorCode.packetSizeTooLarge)] ∧
      (run (step copying 1) {} longChunk).target.reliableData = [] := by
  decide +kernel

end Relay
end Proxy
end MrUDP
