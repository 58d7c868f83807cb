import MrUDP.Proxy.Relay
import MrUDP.Proxy.Wire

/-!
# Two proxies and the bytes between them

`mrudp/Proxy.cpp`.  What a pair of proxies has to tell each other goes over one connection, as
bytes: the ticker of the one makes a batch of the messages that have gathered, compresses it and
puts its length in front; the connection hands it over to the other in any pieces; and the ticker of
the other takes the batches out of a ring buffer and the messages out of the batches.

The bytes between are the messages between.  So everything that holds of a pair that passes messages
holds of a pair that passes bytes.

## Main definitions

* `Proxy.Tunnel`: two proxies, the bytes between them and their ring buffers, as a machine.
* `Proxy.Transit`: the messages that are in a stream of bytes and a ring buffer.
* `Proxy.Tunnel.Carries`: the machine refines a pair that passes messages.
* `Proxy.Tunnel.forwards_over_wire`: each connection is sent what the other hands over.
-/

namespace MrUDP
open Wire Machine
open Traffic (copying copying_lossless)

namespace Proxy

variable {z : Zlib}

/-! ## Messages in transit -/

/-- The length of a message fits in its header. -/
def Message.Short (message : Message) : Prop := message.payload.length < 2 ^ 16

/-- The bytes of a batch of messages. -/
structure Carried (z : Zlib) (bytes : Bytes) (messages : List Message) : Prop where
  frame : IsFrame z bytes (messages.flatMap Message.bytes)
  length : (messages.flatMap Message.bytes).length < 2 ^ 31
  short : ∀ m ∈ messages, m.Short

/-- A batch can be sent unless it is too long. -/
theorem exists_frame (hz : z.Lossless) (level : ℤ) {out : Bytes} (hout : out.length + 9 < 2 ^ 31) :
    ∃ bytes, frame z level out = some bytes := by
  have hpayload : (payload z level out).length ≤ out.length + 5 := by
    rw [payload]
    split
    next dest hdest =>
      split at hdest
      · have hwithin := hz.within _ _ _ _ hdest
        rw [List.length_cons, List.length_append, length_leBytes]
        omega
      · cases hdest
    · rw [List.length_cons]
      omega
  rw [frame, if_pos (by omega)]
  exact ⟨_, rfl⟩

theorem carried_frame (hz : z.Lossless) {level : ℤ} {messages : List Message} {bytes : Bytes}
    (hlength : (messages.flatMap Message.bytes).length + 9 < 2 ^ 31)
    (hshort : ∀ m ∈ messages, m.Short)
    (hframe : frame z level (messages.flatMap Message.bytes) = some bytes) :
    Carried z bytes messages :=
  ⟨isFrame_frame hz (by omega) hframe, by omega, hshort⟩

/-- The messages that are in a ring buffer and in the bytes that have yet to arrive. -/
def Transit (z : Zlib) (stream : Bytes) (buffer : CircularBuffer UInt8) (pending : List Message) :
    Prop :=
  buffer.Valid ∧ ∃ parts : List (Bytes × List Message), (∀ p ∈ parts, Carried z p.1 p.2) ∧
    buffer.content ++ stream = (parts.map Prod.fst).flatten ∧
    pending = (parts.map Prod.snd).flatten

section
variable {stream : Bytes} {buffer : CircularBuffer UInt8} {pending : List Message}

theorem transit_empty (z : Zlib) : Transit z [] {} [] :=
  ⟨CircularBuffer.valid_empty, [], by simp, rfl, rfl⟩

/-- A batch is sent. -/
theorem Transit.send (h : Transit z stream buffer pending) {bytes : Bytes} {messages : List Message}
    (hcarried : Carried z bytes messages) :
    Transit z (stream ++ bytes) buffer (pending ++ messages) := by
  obtain ⟨hvalid, parts, hparts, hbytes, hpending⟩ := h
  refine ⟨hvalid, parts ++ [(bytes, messages)], ?_, ?_, ?_⟩
  · intro p hp
    obtain hp | hp := List.mem_append.mp hp
    · exact hparts p hp
    · rw [List.mem_singleton.mp hp]
      exact hcarried
  · rw [← List.append_assoc, hbytes]
    simp
  · rw [hpending]
    simp

/-- Bytes arrive, if there is room for them. -/
theorem Transit.arrive (h : Transit z stream buffer pending) (size : ℕ)
    (hfits : CircularBuffer.FitsWrite buffer (stream.take size).length) :
    ∃ b, buffer.write (.data (stream.take size)) = some b ∧
      Transit z (stream.drop size) b pending := by
  obtain ⟨hvalid, parts, hparts, hbytes, hpending⟩ := h
  obtain ⟨b, hwrite, hvalid', -, -, -, hcontent⟩ :=
    @CircularBuffer.write_eq _ buffer _ (.data (stream.take size)) hvalid (by simp) hfits
  refine ⟨b, hwrite, hvalid', parts, hparts, ?_, hpending⟩
  rw [hcontent, List.append_assoc]
  exact (congrArg _ (List.take_append_drop size stream)).trans hbytes

/-- What `on_wire_packet` makes of the batches, whatever lies behind them in memory. -/
def messagesOf (behind : Bytes) (batches : List Bytes) : List Message :=
  batches.flatMap fun batch => (onWirePacket (batch ++ behind) (BitVec.ofNat 32 batch.length)).1

theorem messagesOf_carried (behind : Bytes) {parts : List (Bytes × List Message)}
    (hparts : ∀ p ∈ parts, Carried z p.1 p.2) :
    messagesOf behind (parts.map fun p => p.2.flatMap Message.bytes) =
      (parts.map Prod.snd).flatten := by
  rw [messagesOf, List.flatMap_map, ← List.flatMap_def]
  apply List.flatMap_congr
  intro p hp
  obtain ⟨-, hlength, hshort⟩ := hparts p hp
  rw [onWirePacket_append hlength hshort]

/-- The batches that have arrived are taken out. -/
theorem Transit.parse (h : Transit z stream buffer pending) (behind : Bytes) :
    ∃ batches b rest, receiveLoop z buffer.size_ buffer = some (batches, b) ∧
      pending = messagesOf behind batches ++ rest ∧ Transit z stream b rest := by
  obtain ⟨hvalid, parts, hparts, hbytes, rfl⟩ := h
  have hfst : (parts.map fun p => (p.1, p.2.flatMap Message.bytes)).map Prod.fst =
      parts.map Prod.fst := by
    rw [List.map_map]
    rfl
  have hframes : ∀ p ∈ parts.map fun p => (p.1, p.2.flatMap Message.bytes), IsFrame z p.1 p.2 := by
    intro p hp
    obtain ⟨q, hq, rfl⟩ := List.mem_map.mp hp
    exact (hparts q hq).frame
  obtain ⟨k, b, hloop, hvalid', -, hcontent, -⟩ := receiveLoop_eq hframes hvalid
    (by rw [hfst, ← hbytes]; exact List.prefix_append ..) le_rfl
  refine ⟨_, b, ((parts.drop k).map Prod.snd).flatten, hloop, ?_, hvalid', parts.drop k, ?_, ?_,
    rfl⟩
  · rw [← List.map_take, List.map_map]
    have htake := @messagesOf_carried z behind (parts.take k) fun p hp =>
      hparts p (List.mem_of_mem_take hp)
    refine Eq.trans ?_ (congrArg (· ++ _) htake.symm)
    rw [← List.flatten_append, ← List.map_append, List.take_append_drop]
  · exact fun p hp => hparts p (List.mem_of_mem_drop hp)
  · rw [List.map_take, hfst] at hcontent
    rw [hcontent, List.append_assoc] at hbytes
    have hsplit : (parts.map Prod.fst).flatten = ((parts.map Prod.fst).take k).flatten ++
        ((parts.drop k).map Prod.fst).flatten := by
      rw [List.map_drop, ← List.flatten_append, List.take_append_drop]
    rw [hsplit] at hbytes
    exact List.append_cancel_left hbytes

/-- Where there are no bytes there are no messages. -/
theorem Transit.eq_nil (h : Transit z [] buffer pending) (hsize : buffer.size_ = 0) :
    pending = [] := by
  obtain ⟨hvalid, parts, hparts, hbytes, rfl⟩ := h
  have hempty : (parts.map Prod.fst).flatten = [] := by
    rw [← hbytes, List.append_nil, ← List.length_eq_zero_iff, hvalid.length_content, hsize]
  cases parts with
  | nil => rfl
  | cons p parts =>
      obtain ⟨-, payload, hlayout, -⟩ := (hparts p List.mem_cons_self).frame
      have hlength := congrArg List.length hempty
      rw [List.map_cons, List.flatten_cons, List.length_append, hlayout, List.length_append,
        length_leBytes] at hlength
      simp at hlength

end

/-! ## Short messages -/

theorem length_read {input input' : DataIn} {size : ℕ} {bytes : Bytes}
    (h : input.read size = some (bytes, input')) : input'.data.length ≤ input.data.length := by
  rw [DataIn.read] at h
  split at h
  · cases h
  · obtain ⟨-, rfl⟩ := Prod.mk.inj (Option.some.inj h)
    simp

theorem length_readAddress {input input' : DataIn} {address : ProxyAddress}
    (h : input.readAddress = some (address, input')) :
    input'.data.length ≤ input.data.length := by
  rw [DataIn.readAddress] at h
  split at h
  · cases h
  next hfirst =>
    split at h
    · split at h
      · cases h
      next hsecond =>
        obtain ⟨⟨port, rest⟩, hthird, heq⟩ := Option.map_eq_some_iff.mp h
        obtain ⟨-, rfl⟩ := Prod.mk.inj heq
        exact (length_read hthird).trans ((length_read hsecond).trans (length_read hfirst))
    · cases h

section
variable {s t : Proxy} {id : ProxyID}

theorem short_queue (hs : ∀ m ∈ s.out, m.Short) {message : Message} (hmessage : message.Short) :
    ∀ m ∈ (s.queue message).out, m.Short := by
  intro m hm
  obtain hm | hm := List.mem_append.mp hm
  · exact hs m hm
  · rwa [List.mem_singleton.mp hm]

theorem short_onProxyPacket (hs : ∀ m ∈ s.out, m.Short) {data : Bytes}
    (hdata : data.length < 2 ^ 16) (isReliable : Bool) :
    ∀ m ∈ (s.onProxyPacket id data isReliable).out, m.Short := by
  rw [onProxyPacket]
  split
  · exact hs
  · exact short_queue hs hdata

/-- What a short packet makes a proxy queue is short. -/
theorem short_onConnectionPacket (hs : ∀ m ∈ s.out, m.Short) {data : Bytes}
    (hdata : data.length < 2 ^ 16) (isReliable : Bool) :
    ∀ m ∈ (s.onConnectionPacket id data isReliable).out, m.Short := by
  rw [onConnectionPacket]
  split
  · exact hs
  next entry hentry =>
    split
    · exact hs
    · split
      · rw [onModePacket]
        split
        · exact hs
        next magic input hread =>
          split
          · exact hs
          · split
            · split
              · exact hs
              next address input' haddress =>
                have hopen : (Message.open id address).Short := by
                  rw [Message.Short, Message.payload, length_address]
                  norm_num
                refine short_onProxyPacket ?_ ?_ isReliable
                · exact short_queue hs hopen
                have hle := (length_readAddress haddress).trans (length_read hread)
                exact lt_of_le_of_lt hle hdata
            · exact hs
      · exact hs
      · exact short_onProxyPacket hs hdata isReliable

theorem short_notice (id : ProxyID) (mode : ProxyMode) : ∀ m ∈ notice id mode, m.Short := by
  intro m hm
  rw [mem_notice hm, Message.Short]
  norm_num [Message.payload]

theorem Parts.short {h : Handle} {entry : ProxyConnection} (hp : Parts s t h id entry)
    (hs : ∀ m ∈ s.out, m.Short) : ∀ m ∈ t.out, m.Short := by
  obtain ⟨dead, connections, rfl⟩ := hp.eq
  intro m hm
  exact (List.mem_append.mp hm).elim (hs m) (short_notice id entry.mode m)

/-- What a proxy queues is short, if what is handed over is. -/
theorem Balanced.short_step {side : Side} {j : Journal} (hb : Balanced side s j)
    (hs : ∀ m ∈ s.out, m.Short) {event : ProxyEvent}
    (hevent : ∀ h data isReliable, event = .packet h data isReliable → data.length < 2 ^ 16)
    (hclose : event ≠ .close) : ∀ m ∈ (s.step event).out, m.Short := by
  simp only [step, hb.closed_eq, Bool.false_eq_true, if_false]
  cases event with
  | accept => exact hs
  | packet h data isReliable =>
      dsimp only
      split
      · exact hs
      · exact short_onConnectionPacket hs (hevent h data isReliable rfl) isReliable
  | closed h =>
      cases hh : s.handlers[h]? with
      | none => simpa only [closeUser, hh] using hs
      | some id =>
          obtain ⟨entry, -, hp⟩ := hb.accounts.exists_parts hh
          exact hp.short hs
  | tick ready =>
      obtain ⟨misused, out, heq, rfl | rfl⟩ := s.tick_eq ready <;> dsimp only <;> rw [heq]
      · exact hs
      · simp
  | message message connects =>
      dsimp only
      split
      · exact hs
      · cases message with
        | «open» id address => cases connects <;> exact hs
        | close id =>
            obtain ⟨h, entry, -, -, hp⟩ | ⟨-, connections, heq, -⟩ :=
              hb.accounts.initiateConnectionClose_cases id
            · exact hp.short hs
            · rw [onMessage, heq]
              exact hs
        | data id isReliable bytes =>
            obtain ⟨misused, heq⟩ := s.exists_use_eq (s.connection id)
            rw [onMessage, heq]
            exact hs
  | close => exact absurd rfl hclose

end

/-! ## The machine -/

/-- Two proxies with their journals and the messages they have taken out of batches, and for each
the bytes that are on their way to it and its ring buffer. -/
structure Tunnel where
  traced : Traced
  stream : Side → Bytes := fun _ => []
  buffer : Side → CircularBuffer UInt8 := fun _ => {}

/-- What happens to two proxies. -/
inductive TunnelEvent
  /-- A connection is accepted. -/
  | accept (side : Side)
  /-- A connection hands over data. -/
  | packet (side : Side) (h : Handle) (data : Bytes) (isReliable : Bool)
  /-- The library closes a connection. -/
  | closed (side : Side) (h : Handle)
  /-- The ticker sends, if it can, with a compression level. -/
  | tick (side : Side) (ready : Bool) (level : ℤ)
  /-- The wire hands over bytes. -/
  | arrive (side : Side) (size : ℕ)
  /-- The ticker takes messages out of what has arrived, with something behind it in memory. -/
  | parse (side : Side) (behind : Bytes)
  /-- The ticker comes to the next message. -/
  | receive (side : Side) (connects : Bool)
  deriving DecidableEq

namespace Tunnel

/-- The proxies at the beginning, and whether the wire could be made. -/
def «open» (options : Side → ProxyOptions) (connects : Bool) : Tunnel where
  traced := Traced.open options connects

/-- What `proxy_tick` sends. -/
def tick (z : Zlib) (x : Tunnel) (side : Side) (ready : Bool) (level : ℤ) : Option Tunnel :=
  let s := x.traced.pair.proxy side
  let traced := x.traced.step (.tick side ready false)
  if (traced.pair.proxy side).out = s.out then some { x with traced }
  else
    (frame z level (s.out.foldl sendQueue [])).map fun bytes =>
      { x with
        traced
        stream := Function.update x.stream side.other (x.stream side.other ++ bytes) }

/-- `proxy_receive_queue`. -/
def arrive (x : Tunnel) (side : Side) (size : ℕ) : Option Tunnel :=
  ((x.buffer side).write (.data ((x.stream side).take size))).map fun b =>
    { x with
      stream := Function.update x.stream side ((x.stream side).drop size)
      buffer := Function.update x.buffer side b }

/-- Messages have been taken out of batches. -/
def append (x : Traced) (side : Side) (messages : List Message) : Traced :=
  { x with pair :=
    { x.pair with
      incoming := Function.update x.pair.incoming side (x.pair.incoming side ++ messages) } }

/-- The loop of `proxy_tick` over what has arrived, with the parsing of `on_wire_packet`. -/
def parse (z : Zlib) (x : Tunnel) (side : Side) (behind : Bytes) : Option Tunnel :=
  if (x.traced.pair.proxy side).wire = none then some x
  else
    (receiveLoop z (x.buffer side).size_ (x.buffer side)).map fun (batches, b) =>
      { x with
        traced := append x.traced side (messagesOf behind batches)
        buffer := Function.update x.buffer side b }

/-- Something happens, unless something went wrong before. -/
def step (z : Zlib) (x : Option Tunnel) (event : TunnelEvent) : Option Tunnel :=
  x.bind fun x =>
    match event with
    | .accept side => some { x with traced := x.traced.step (.accept side) }
    | .packet side h data isReliable =>
        some { x with traced := x.traced.step (.packet side h data isReliable) }
    | .closed side h => some { x with traced := x.traced.step (.closed side h) }
    | .tick side ready level => x.tick z side ready level
    | .arrive side size => x.arrive side size
    | .parse side behind => x.parse z side behind
    | .receive side connects => some { x with traced := x.traced.step (.receive side connects) }

/-- What a connection hands over is not for the ring buffer.  The bytes of the wire come by
themselves, those behind its magic number too; and only the wire that the other proxy has made says
that it is one. -/
def offWire (x : Tunnel) (side : Side) (h : Handle) (data : Bytes) : Bool :=
  let s := x.traced.pair.proxy side
  match s.handlers[h]? with
  | none => true
  | some id =>
      match s.connections[id]? with
      | none => true
      | some entry =>
          match entry.mode with
          | .wire => false
          | .connection => true
          | .none =>
              match DataIn.read ⟨data, data.length⟩ 8 with
              | none => true
              | some (magic, input) =>
                  BitVec.ofNat 64 (leNat magic) ≠ s.options.magicWire ||
                    input.data = [] && side = .accepting && s.wire.isNone &&
                      (x.traced.pair.proxy side.other).wire.isSome

/-- What may happen: there is a number for a connection that is accepted, the length of what is
handed over fits in 16 bits and that of a batch in 31, there is room in the ring buffer, and the
wire is not closed. -/
def Admits (x : Option Tunnel) : TunnelEvent → Prop
  | .accept side => ∀ x' ∈ x, (x'.traced.pair.proxy side).allocated < 2 ^ 24
  | .packet side h data _ => data.length < 2 ^ 16 ∧ ∀ x' ∈ x, x'.offWire side h data = true
  | .closed side h => ∀ x' ∈ x, (x'.traced.pair.proxy side).wire ≠ some h
  | .tick side _ _ => ∀ x' ∈ x,
      ((x'.traced.pair.proxy side).out.flatMap Message.bytes).length + 9 < 2 ^ 31
  | .arrive side size => ∀ x' ∈ x,
      CircularBuffer.FitsWrite (x'.buffer side) ((x'.stream side).take size).length
  | .parse _ _ | .receive _ _ => True

instance : ∀ (x : Option Tunnel) (event : TunnelEvent), Decidable (Admits x event)
  | x, .accept _ => Option.decidableForallMem x
  | x, .packet side h data _ =>
      inferInstanceAs (Decidable (data.length < 2 ^ 16 ∧ ∀ x' ∈ x, x'.offWire side h data = true))
  | x, .closed _ _ => Option.decidableForallMem x
  | x, .tick _ _ _ => Option.decidableForallMem x
  | x, .arrive _ _ => Option.decidableForallMem x
  | _, .parse _ _ => isTrue trivial
  | _, .receive _ _ => isTrue trivial

/-! ## The refinement -/

/-- The pair that passes messages: those that are still bytes are behind the others. -/
def whole (x : Tunnel) (pending : Side → List Message) : Traced where
  pair :=
    { proxy := x.traced.pair.proxy
      incoming := fun side => x.traced.pair.incoming side ++ pending side }
  journal := x.traced.journal

/-- The bytes between the proxies are messages, and with them it is a pair that passes messages. -/
structure Carries (z : Zlib) (x : Tunnel) (pending : Side → List Message) : Prop where
  transit : ∀ side, Transit z (x.stream side) (x.buffer side) (pending side)
  kept : (x.whole pending).Kept
  short : ∀ side, ∀ m ∈ (x.traced.pair.proxy side).out, m.Short

variable {x : Tunnel} {pending : Side → List Message} {side : Side}

/-- What a proxy has queued is short after something has happened to it. -/
theorem Carries.short_step (h : Carries z x pending) {proxy : Side → Proxy} {event : ProxyEvent}
    (hproxy : proxy =
      Function.update x.traced.pair.proxy side ((x.traced.pair.proxy side).step event))
    (hevent : ∀ h data isReliable, event = .packet h data isReliable → data.length < 2 ^ 16)
    (hclose : event ≠ .close) : ∀ side, ∀ m ∈ (proxy side).out, m.Short := by
  subst hproxy
  have hb : Balanced side (x.traced.pair.proxy side) _ := h.kept.balanced side
  refine Traced.forall_side side ?_ ?_
  · rw [Function.update_self]
    exact hb.short_step (h.short side) hevent hclose
  · rw [Function.update_of_ne (Side.other_ne side)]
    exact h.short side.other

/-- Something happens to one of the proxies that the wire has no part in. -/
theorem Carries.of_step (h : Carries z x pending) {traced : Traced} {event : ProxyEvent}
    (hkept : Traced.Kept (whole { x with traced } pending))
    (hproxy : traced.pair.proxy =
      Function.update x.traced.pair.proxy side ((x.traced.pair.proxy side).step event))
    (hevent : ∀ h data isReliable, event = .packet h data isReliable → data.length < 2 ^ 16)
    (hclose : event ≠ .close) : Carries z { x with traced } pending :=
  ⟨h.transit, hkept, h.short_step hproxy hevent hclose⟩

theorem Carries.accept (h : Carries z x pending)
    (hroom : (x.traced.pair.proxy side).allocated < 2 ^ 24) :
    Carries z { x with traced := x.traced.step (.accept side) } pending :=
  h.of_step (h.kept.accept hroom) rfl (by simp) (by simp)

theorem Carries.packet (h : Carries z x pending) (c : Handle) {data : Bytes}
    (hdata : data.length < 2 ^ 16) (isReliable : Bool) :
    Carries z { x with traced := x.traced.step (.packet side c data isReliable) } pending := by
  refine h.of_step (h.kept.packet c data isReliable) rfl ?_ (by simp)
  rintro c' data' isReliable' ⟨⟩
  exact hdata

theorem Carries.closed (h : Carries z x pending) (c : Handle) :
    Carries z { x with traced := x.traced.step (.closed side c) } pending :=
  h.of_step (h.kept.closed c) rfl (by simp) (by simp)

/-- The next message that has been taken out of a batch is acted on. -/
theorem Carries.receive (h : Carries z x pending) (connects : Bool) :
    Carries z { x with traced := x.traced.step (.receive side connects) } pending := by
  cases hincoming : x.traced.pair.incoming side with
  | nil =>
      rw [Traced.step_receive_idle (.inl hincoming)]
      exact h
  | cons message messages =>
      by_cases hwire : (x.traced.pair.proxy side).wire = none
      · rw [Traced.step_receive_idle (.inr hwire)]
        exact h
      · have hstep := Traced.step_receive hincoming hwire connects
        have hfront : (x.whole pending).pair.incoming side =
            message :: (messages ++ pending side) :=
          congrArg (· ++ pending side) hincoming
        have hwhole : (x.whole pending).step (.receive side connects) =
            whole { x with traced := x.traced.step (.receive side connects) } pending := by
          rw [Traced.step_receive hfront hwire connects, hstep]
          simp only [whole, Traced.mk.injEq, Pair.mk.injEq, true_and, and_true]
          funext side'
          by_cases hside : side' = side
          · subst side'
            rw [Function.update_self, Function.update_self]
          · rw [Function.update_of_ne hside, Function.update_of_ne hside]
        have hproxy : (x.traced.step (.receive side connects)).pair.proxy =
            Function.update x.traced.pair.proxy side
              ((x.traced.pair.proxy side).step (.message message connects)) := by rw [hstep]
        refine h.of_step ?_ hproxy (by simp) (by simp)
        rw [← hwhole]
        exact h.kept.receive connects

/-- With messages, what the ticker sends has been sent at once. -/
theorem whole_tick (x : Tunnel) (pending : Side → List Message) (side : Side) (ready : Bool)
    (stream : Side → Bytes) :
    whole { x with traced := x.traced.step (.tick side ready false), stream }
        (Function.update pending side.other (pending side.other ++
          if ((x.traced.pair.proxy side).step (.tick ready)).out = [] then
            (x.traced.pair.proxy side).out else [])) =
      (x.whole pending).step (.tick side ready true) := by
  simp only [whole, Traced.step, Pair.step, Pair.event, Pair.update, Traced.mk.injEq, Pair.mk.injEq,
    true_and, and_true, and_false, if_false, Bool.false_eq_true]
  funext side'
  by_cases hside : side' = side.other
  · subst side'
    rw [Function.update_self, Function.update_self, Function.update_self]
    split
    · rw [List.append_assoc]
    · rw [List.append_nil]
  · rw [Function.update_of_ne hside, Function.update_of_ne hside, Function.update_of_ne hside]

/-- What the ticker sends is in transit. -/
theorem Carries.tick (hz : z.Lossless) (h : Carries z x pending) (ready : Bool) (level : ℤ)
    (hlength :
      ((x.traced.pair.proxy side).out.flatMap Message.bytes).length + 9 < 2 ^ 31) :
    ∃ x' pending', x.tick z side ready level = some x' ∧ Carries z x' pending' := by
  have hb : Balanced side (x.traced.pair.proxy side) _ := h.kept.balanced side
  obtain ⟨-, -, hout⟩ := hb.tick ready
  have hkept : ((x.whole pending).step (.tick side ready true)).Kept := h.kept.tick ready
  have hself : (x.traced.step (.tick side ready false)).pair.proxy side =
      (x.traced.pair.proxy side).step (.tick ready) := Function.update_self ..
  have hbytes : (x.traced.pair.proxy side).out.foldl sendQueue [] =
      (x.traced.pair.proxy side).out.flatMap Message.bytes := by
    rw [foldl_sendQueue, List.nil_append]
  have hwhole := x.whole_tick pending side ready
  simp only [Tunnel.tick, hself, hbytes]
  by_cases hsame : ((x.traced.pair.proxy side).step (.tick ready)).out =
      (x.traced.pair.proxy side).out
  · -- Nothing is sent.
    rw [if_pos hsame]
    refine ⟨_, pending, rfl, h.of_step ?_ rfl (by simp) (by simp)⟩
    have hnothing : (if ((x.traced.pair.proxy side).step (.tick ready)).out = [] then
        (x.traced.pair.proxy side).out else []) = [] := by
      split
      next hempty => exact hsame.symm.trans hempty
      · rfl
    have hwhole := hwhole x.stream
    rw [hnothing, List.append_nil, Function.update_eq_self] at hwhole
    rw [hwhole]
    exact hkept
  · have hsent := hout.resolve_left hsame
    obtain ⟨bytes, hframe⟩ := exists_frame hz level hlength
    rw [if_neg hsame, hframe, Option.map_some]
    have hwhole := hwhole (Function.update x.stream side.other (x.stream side.other ++ bytes))
    rw [if_pos hsent] at hwhole
    refine ⟨_, Function.update pending side.other
      (pending side.other ++ (x.traced.pair.proxy side).out), rfl, ?_, ?_, ?_⟩
    · have hcarried := carried_frame hz hlength (h.short side) hframe
      refine Traced.forall_side side ?_ ?_
      · dsimp only
        rw [Function.update_of_ne (Side.ne_other side), Function.update_of_ne (Side.ne_other side)]
        exact h.transit side
      · dsimp only
        rw [Function.update_self, Function.update_self]
        exact (h.transit side.other).send hcarried
    · rw [hwhole]
      exact hkept
    · have hproxy : (x.traced.step (.tick side ready false)).pair.proxy = Function.update
          x.traced.pair.proxy side ((x.traced.pair.proxy side).step (.tick ready)) := rfl
      exact h.short_step hproxy (by simp) (by simp)

/-- Bytes arrive. -/
theorem Carries.arrive (h : Carries z x pending) (size : ℕ)
    (hfits : CircularBuffer.FitsWrite (x.buffer side) ((x.stream side).take size).length) :
    ∃ x', x.arrive side size = some x' ∧ Carries z x' pending := by
  obtain ⟨b, hwrite, htransit⟩ := (h.transit side).arrive size hfits
  rw [Tunnel.arrive, hwrite]
  refine ⟨_, rfl, ?_, h.kept, h.short⟩
  refine Traced.forall_side side ?_ ?_
  · dsimp only
    rwa [Function.update_self, Function.update_self]
  · dsimp only
    rw [Function.update_of_ne (Side.other_ne side), Function.update_of_ne (Side.other_ne side)]
    exact h.transit side.other

/-- Messages are taken out of what has arrived. -/
theorem Carries.parse (h : Carries z x pending) (behind : Bytes) :
    ∃ x' pending', x.parse z side behind = some x' ∧ Carries z x' pending' := by
  rw [Tunnel.parse]
  split
  · exact ⟨x, pending, rfl, h⟩
  · obtain ⟨batches, b, rest, hloop, hpending, htransit⟩ := (h.transit side).parse behind
    rw [hloop]
    have hwhole : whole
        { x with
          traced := append x.traced side (messagesOf behind batches)
          buffer := Function.update x.buffer side b } (Function.update pending side rest) =
        x.whole pending := by
      simp only [whole, append, Traced.mk.injEq, Pair.mk.injEq, true_and, and_true]
      funext side'
      by_cases hside : side' = side
      · subst side'
        rw [Function.update_self, Function.update_self, List.append_assoc, ← hpending]
      · rw [Function.update_of_ne hside, Function.update_of_ne hside]
    refine ⟨_, Function.update pending side rest, rfl, ?_, by rw [hwhole]; exact h.kept, h.short⟩
    refine Traced.forall_side side ?_ ?_
    · dsimp only
      rwa [Function.update_self, Function.update_self]
    · dsimp only
      rw [Function.update_of_ne (Side.other_ne side), Function.update_of_ne (Side.other_ne side)]
      exact h.transit side.other

/-- **One step.** -/
theorem Carries.step (hz : z.Lossless) (h : Carries z x pending) {event : TunnelEvent}
    (hadmits : Admits (some x) event) :
    ∃ x' pending', step z (some x) event = some x' ∧ Carries z x' pending' := by
  cases event with
  | accept side => exact ⟨_, pending, rfl, h.accept (hadmits x rfl)⟩
  | packet side c data isReliable => exact ⟨_, pending, rfl, h.packet c hadmits.1 isReliable⟩
  | closed side c => exact ⟨_, pending, rfl, h.closed c⟩
  | tick side ready level => exact h.tick hz ready level (hadmits x rfl)
  | arrive side size =>
      obtain ⟨x', hx', hcarries⟩ := h.arrive size (hadmits x rfl)
      exact ⟨x', pending, hx', hcarries⟩
  | parse side behind => exact h.parse behind
  | receive side connects => exact ⟨_, pending, rfl, h.receive connects⟩

theorem carries_open (z : Zlib) (options : Side → ProxyOptions) (connects : Bool) :
    Carries z (Tunnel.open options connects) fun _ => [] := by
  have hwhole : (Tunnel.open options connects).whole (fun _ => []) =
      Traced.open options connects := rfl
  refine ⟨fun _ => transit_empty z, ?_, ?_⟩
  · rw [hwhole]
    exact Traced.kept_open options connects
  · intro side
    cases side <;> cases connects <;> simp [Tunnel.open, Traced.open, Pair.open, Proxy.open, use,
      enter]

/-- In every run the bytes between the proxies are messages. -/
theorem carries_run (hz : z.Lossless) (options : Side → ProxyOptions) (connects : Bool)
    {events : List TunnelEvent}
    (h : Along (step z) Admits (some (Tunnel.open options connects)) events) :
    ∃ x pending, run (step z) (some (Tunnel.open options connects)) events = some x ∧
      Carries z x pending := by
  refine run_invariant (fun x => ∃ x' pending, x = some x' ∧ Carries z x' pending) ?_
    ⟨_, _, rfl, carries_open z options connects⟩ h
  rintro x event ⟨x', pending, rfl, hcarries⟩ hadmits
  exact hcarries.step hz hadmits

/-- Nothing is on its way: no messages, and no bytes. -/
def Quiet (x : Tunnel) : Prop :=
  x.traced.Quiet ∧ ∀ side, x.stream side = [] ∧ (x.buffer side).size_ = 0

theorem Carries.quiet (h : Carries z x pending) (hquiet : x.Quiet) : (x.whole pending).Quiet := by
  intro side
  obtain ⟨hstream, hsize⟩ := hquiet.2 side
  have htransit := h.transit side
  rw [hstream] at htransit
  refine ⟨?_, (hquiet.1 side).2⟩
  change x.traced.pair.incoming side ++ pending side = []
  rw [(hquiet.1 side).1, htransit.eq_nil hsize]
  rfl

/-- **Forwarding over a wire.**  Two proxies pass bytes to each other, in batches, compressed or
not, which arrive in any pieces; connections are accepted, hand over data and close in any order.
Then nothing goes wrong on the wire.  A connection that a proxy was told to make belongs to one that
the other has accepted and that has asked for its address.  What is sent on either of the two is
what the other has handed over, from the beginning on and in order; and when nothing is on its way,
either both have ended, or neither has and nothing is missing.  What a client of `connect` asks for
is the address it gave and all it hands over behind. -/
theorem forwards_over_wire (hz : z.Lossless) (options : Side → ProxyOptions) (connects : Bool)
    {events : List TunnelEvent}
    (h : Along (step z) Admits (some (Tunnel.open options connects)) events) :
    ∃ x, run (step z) (some (Tunnel.open options connects)) events = some x ∧
      ∀ (side : Side) (k : Handle) (id : ProxyID) (address : ProxyAddress) (data : List Chunk),
        (x.traced.journal side.other).number k = some id →
        (x.traced.journal side.other).origin k = .connection address data →
        ∃ h asked, (x.traced.journal side).number h = some id ∧
          (x.traced.journal side).origin h = .undecided ∧
          (x.traced.journal side).request (x.traced.pair.proxy side).options h =
            .connection address asked ∧
          (x.traced.journal side.other).sent k <+: asked ∧
          (x.traced.journal side).sent h <+:
            Traced.filled ((x.traced.journal side.other).handed k) ∧
          (x.Quiet → (x.traced.Calls side h ↔ x.traced.Calls side.other k) ∧
            (x.traced.Calls side h → (x.traced.journal side.other).sent k = asked ∧
              (x.traced.journal side).sent h =
                Traced.filled ((x.traced.journal side.other).handed k))) ∧
          ∀ isReliable remote rest chunks,
            (x.traced.pair.proxy side).options.magicConnection ≠
              (x.traced.pair.proxy side).options.magicWire →
            (x.traced.journal side).handed h = (isReliable,
              connect (x.traced.pair.proxy side).options.magicConnection remote ++ rest) :: chunks →
            address = remote ∧ asked = Traced.filled ((isReliable, rest) :: chunks) := by
  obtain ⟨x, pending, hrun, hcarries⟩ := carries_run hz options connects h
  refine ⟨x, hrun, ?_⟩
  intro side k id address data hk horigin
  obtain ⟨h, asked, hh, haccepted, hrequest, hsent, hback, hquiet⟩ :=
    @Traced.Kept.forwards (x.whole pending) side id address hcarries.kept k data hk horigin
  refine ⟨h, asked, hh, haccepted, hrequest, hsent, hback, fun hq => hquiet (hcarries.quiet hq), ?_⟩
  intro isReliable remote rest chunks hmagic hhanded
  have hconnect := request_connect hmagic haccepted hhanded
  exact Request.connection.inj (hrequest.symm.trans hconnect)

/-- A client is connected, and something goes either way. -/
def roundTrip : List TunnelEvent :=
  [.accept .connecting,
    .packet .connecting 1 (connect 13 (ProxyAddress.mk 0x0100007F#32 0x5000#16) ++ [7]) true,
    .accept .accepting, .packet .accepting 0 (leBytes 8 42) true,
    .tick .connecting true 0, .arrive .accepting 10, .arrive .accepting 90, .parse .accepting [255],
    .receive .accepting true, .receive .accepting true,
    .packet .accepting 1 [8, 9] false, .tick .accepting true 1, .arrive .connecting 50,
    .parse .connecting [], .receive .connecting true]

theorem forwards_over_wire_roundTrip :
    ∃ x h asked, run (step copying) (some (Tunnel.open (fun _ => {}) true)) roundTrip = some x ∧
      (x.traced.journal .connecting).number h = some 1 ∧
      (x.traced.journal .connecting).origin h = .undecided ∧
      (x.traced.journal .accepting).sent 1 <+: asked ∧
      (x.traced.journal .connecting).sent h <+:
        Traced.filled ((x.traced.journal .accepting).handed 1) := by
  obtain ⟨x, hrun, hforwards⟩ :=
    @forwards_over_wire copying copying_lossless (fun _ => {}) true roundTrip (by decide +kernel)
  have hmade : (run (step copying) (some (Tunnel.open (fun _ => {}) true)) roundTrip).map
      (fun x => ((x.traced.journal .accepting).number 1, (x.traced.journal .accepting).origin 1)) =
      some (some 1, .connection (ProxyAddress.mk 0x0100007F#32 0x5000#16) []) := by
    decide +kernel
  rw [hrun] at hmade
  obtain ⟨hnumber, horigin⟩ := Prod.mk.inj (Option.some.inj hmade)
  obtain ⟨h, asked, hh, haccepted, -, hsent, hback, -⟩ :=
    hforwards .connecting 1 1 _ [] hnumber horigin
  exact ⟨x, h, asked, hrun, hh, haccepted, hsent, hback⟩

end Tunnel

end Proxy
end MrUDP
