import MrUDP.Proxy.Handles
import MrUDP.Proxy.Identifiers

/-!
# The journal of a proxy

`mrudp/Proxy.cpp`.  A client's first packet says where it wants to be connected to; the proxy that
accepted it tells the other, which makes the connection; and from then on what either of the two
connections hands over is sent on the other one.

A journal is kept of what the connections of a proxy hand over and what is sent on them, and of the
messages between.  The messages about one number are what the connection with that number has asked
for, in order, and what is sent on a connection is what came about its number, from the beginning
on.

## Main definitions

* `Proxy.Request`: what a proxy takes a connection for, by what it has handed over.
* `Proxy.Journal`, `Proxy.Journal.note`: what has happened at one proxy.
* `Proxy.Parts`: what the end of a connection does to a proxy.
* `Proxy.Takes`: what a packet can do to a proxy.
* `Proxy.Accounts`: a proxy agrees with its journal.
-/

namespace MrUDP
open Wire Machine
open Std (ExtTreeMap LawfulEqCmp)

namespace Proxy

/-! ## What a connection asks for -/

/-- Data that is handed over or sent, and whether it is reliable. -/
abbrev Chunk := Bool × Bytes

/-- What a proxy takes a connection for: it has not said, it is the wire, or it is to be forwarded
to an address, with the data so far. -/
inductive Request
  | undecided
  | wire
  | connection (address : ProxyAddress) (data : List Chunk)
  deriving DecidableEq, Repr

namespace Request

/-- The mode of the entry. -/
def mode : Request → ProxyMode
  | .undecided => .none
  | .wire => .wire
  | .connection _ _ => .connection

/-- The data to be forwarded. -/
def data : Request → List Chunk
  | .connection _ data => data
  | .undecided | .wire => []

/-- One more chunk to be forwarded, if there is something in it. -/
def forward (address : ProxyAddress) (data : List Chunk) (chunk : Chunk) : Request :=
  .connection address (if chunk.2 = [] then data else data ++ [chunk])

/-- What `on_mode_packet` takes a connection for. -/
def first (options : ProxyOptions) (chunk : Chunk) : Request :=
  match DataIn.read ⟨chunk.2, chunk.2.length⟩ 8 with
  | none => .undecided
  | some (magic, input) =>
      if BitVec.ofNat 64 (leNat magic) = options.magicWire then .wire
      else if BitVec.ofNat 64 (leNat magic) = options.magicConnection then
        match input.readAddress with
        | none => .undecided
        | some (address, input) => forward address [] (chunk.1, input.data)
      else .undecided

/-- What `on_connection_packet` takes a connection for. -/
def take (options : ProxyOptions) : Request → Chunk → Request
  | .undecided, chunk => first options chunk
  | .wire, _ => .wire
  | .connection address data, chunk => forward address data chunk

/-- The messages about it, with the first one if the other proxy is still to be told. -/
def messages (announces : Bool) (id : ProxyID) : Request → List Message
  | .undecided | .wire => []
  | .connection address data =>
      (if announces then [.open id address] else []) ++ data.map fun chunk =>
        .data id chunk.1 chunk.2

/-- A connection stays what it was taken for. -/
theorem foldl_take_connection (options : ProxyOptions) (address : ProxyAddress)
    (data chunks : List Chunk) :
    chunks.foldl (take options) (.connection address data) =
      .connection address (data ++ chunks.filter (·.2 ≠ [])) := by
  induction chunks generalizing data with
  | nil => simp
  | cons chunk chunks ih =>
      rw [List.foldl_cons, take, forward, ih]
      by_cases hempty : chunk.2 = [] <;> simp [hempty]

theorem foldl_take_wire (options : ProxyOptions) (chunks : List Chunk) :
    chunks.foldl (take options) .wire = .wire := by
  induction chunks with
  | nil => rfl
  | cons chunk chunks ih => exact ih

end Request

/-! ## Messages about a number -/

/-- The data of the messages about a number. -/
def dataOf (id : ProxyID) (messages : List Message) : List Chunk :=
  messages.filterMap fun
    | .data id' isReliable bytes => if id' = id then some (isReliable, bytes) else none
    | .open _ _ | .close _ => none

/-- The messages about a number, but for those that close it. -/
def traffic (id : ProxyID) (messages : List Message) : List Message :=
  messages.filter fun
    | .open id' _ | .data id' _ _ => id' = id
    | .close _ => false

section
variable {id : ProxyID}

@[simp] theorem dataOf_nil : dataOf id [] = [] := rfl

@[simp] theorem dataOf_append (messages messages' : List Message) :
    dataOf id (messages ++ messages') = dataOf id messages ++ dataOf id messages' :=
  List.filterMap_append ..

@[simp] theorem traffic_nil : traffic id [] = [] := rfl

@[simp] theorem traffic_append (messages messages' : List Message) :
    traffic id (messages ++ messages') = traffic id messages ++ traffic id messages' :=
  List.filter_append ..

theorem dataOf_mono {messages messages' : List Message} (h : messages <+: messages') :
    dataOf id messages <+: dataOf id messages' := h.filterMap _

/-- The data of the messages is that of the traffic. -/
theorem dataOf_traffic (messages : List Message) :
    dataOf id (traffic id messages) = dataOf id messages := by
  induction messages with
  | nil => rfl
  | cons message messages ih =>
      cases message with
      | «open» id' address =>
          by_cases hid : id' = id <;> simp_all [dataOf, traffic]
      | close id' => simp_all [dataOf, traffic]
      | data id' isReliable bytes =>
          by_cases hid : id' = id <;> simp_all [dataOf, traffic]

/-- Messages about a number are its traffic, and not that of another. -/
theorem traffic_messages (announces : Bool) (id' : ProxyID) (request : Request) :
    traffic id (request.messages announces id') =
      if id' = id then request.messages announces id else [] := by
  cases request with
  | undecided => simp [Request.messages]
  | wire => simp [Request.messages]
  | connection address data =>
      by_cases hid : id' = id
      · subst hid
        cases announces <;> simp [Request.messages, traffic, List.filter_map, Function.comp_def]
      · cases announces <;>
          simp [Request.messages, traffic, List.filter_map, Function.comp_def, hid]

theorem dataOf_messages (announces : Bool) (request : Request) :
    dataOf id (request.messages announces id) = request.data := by
  cases request with
  | undecided => rfl
  | wire => rfl
  | connection address data =>
      cases announces <;>
        simp [Request.messages, Request.data, dataOf, List.filterMap_map]

end

/-! ## The journal -/

/-- What has happened at a proxy: the messages that `proxy_send_queue` was called with, and those
that `on_wire_packet` has come to; and for each connection the number of the entry it was made for,
what it was taken for then, what it has handed over, and what `mrudp_send` was called with. -/
structure Journal where
  queued : List Message := []
  acted : List Message := []
  number : Handle → Option ProxyID := fun _ => none
  origin : Handle → Request := fun _ => .undecided
  handed : Handle → List Chunk := fun _ => []
  sent : Handle → List Chunk := fun _ => []

namespace Journal

/-- A connection is made for an entry. -/
def enter (j : Journal) (h : Handle) (id : ProxyID) (origin : Request) : Journal :=
  { j with
    number := Function.update j.number h (some id)
    origin := Function.update j.origin h origin }

/-- A connection hands over data. -/
def hand (j : Journal) (h : Handle) (chunk : Chunk) : Journal :=
  { j with handed := Function.update j.handed h (j.handed h ++ [chunk]) }

/-- Data is sent on a connection, if there is one. -/
def send (j : Journal) (chunk : Chunk) : Option Handle → Journal
  | none => j
  | some h => { j with sent := Function.update j.sent h (j.sent h ++ [chunk]) }

/-- What a proxy does about a message. -/
def act (s : Proxy) (connects : Bool) (j : Journal) : Message → Journal
  | .open id address => if connects then j.enter s.handles id (.connection address []) else j
  | .close _ => j
  | .data id isReliable bytes => j.send (isReliable, bytes) (s.connection id)

/-- Something happens to a proxy. -/
def note (s : Proxy) (j : Journal) (event : ProxyEvent) : Journal :=
  if s.closed then j
  else
    let j := { j with queued := j.queued ++ (s.step event).out.drop s.out.length }
    match event with
    | .accept => j.enter s.handles s.nextProxyID .undecided
    | .packet h data isReliable =>
        if s.handlers[h]?.isSome then j.hand h (isReliable, data) else j
    | .message message connects =>
        if s.wire = none then j
        else act s connects { j with acted := j.acted ++ [message] } message
    | .closed _ | .tick _ | .close => j

/-- What a connection is taken for now. -/
def request (j : Journal) (options : ProxyOptions) (h : Handle) : Request :=
  (j.handed h).foldl (Request.take options) (j.origin h)

/-- Whether the other proxy is to be told of a connection. -/
def announces (j : Journal) (h : Handle) : Bool := j.origin h = .undecided

variable {j : Journal} {options : ProxyOptions} {h : Handle}

/-- A connection that has not said what it is for is one that was accepted. -/
theorem announces_of_undecided (hrequest : j.request options h = .undecided) :
    j.announces h = true := by
  cases horigin : j.origin h with
  | undecided => simp [announces, horigin]
  | wire => simp [request, horigin, Request.foldl_take_wire] at hrequest
  | connection address data => simp [request, horigin, Request.foldl_take_connection] at hrequest

end Journal

/-! ## Closing -/

/-- What the other proxy is told when the connection of an entry closes. -/
def notice (id : ProxyID) : ProxyMode → List Message
  | .connection => [.close id]
  | .none | .wire => []

section
variable {s t : Proxy} {h : Handle} {id : ProxyID} {entry : ProxyConnection}

/-- A connection does not call back its entry any more.  The entry goes, unless it has no mode, and
the other proxy is told. -/
structure Parts (s t : Proxy) (h : Handle) (id : ProxyID) (entry : ProxyConnection) : Prop where
  eq : ∃ dead connections, t = { s with
    handlers := s.handlers.erase h
    out := s.out ++ notice id entry.mode
    dead
    connections }
  dead : ∀ c ∈ t.dead, c = h ∨ c ∈ s.dead
  entry : ∀ e, t.connections[id]? = some e → e.connection = none
  others : ∀ k, id ≠ k → t.connections[k]? = s.connections[k]?

theorem Parts.handlers (hp : Parts s t h id entry) (c : Handle) :
    t.handlers[c]? = if h = c then none else s.handlers[c]? := by
  obtain ⟨dead, connections, rfl⟩ := hp.eq
  simp only [ExtTreeMap.getElem?_erase, LawfulEqCmp.compare_eq_iff_eq]

/-- The `switch` of `on_connection_close`. -/
theorem parts_onClosed (hmoved : s.moved = false) {dead : List Handle}
    (hdead : ∀ c ∈ dead, c = h ∨ c ∈ s.dead) {connections : ExtTreeMap ProxyID ProxyConnection}
    (hentry : connections[id]? = some { entry with connection := none })
    (hothers : ∀ k, id ≠ k → connections[k]? = s.connections[k]?) :
    Parts s (onClosed { s with handlers := s.handlers.erase h, dead, connections } id) h id
      entry := by
  have herase (k : ProxyID) (hk : id ≠ k) : (connections.erase id)[k]? = s.connections[k]? := by
    simp only [ExtTreeMap.getElem?_erase, LawfulEqCmp.compare_eq_iff_eq, if_neg hk]
    exact hothers k hk
  simp only [onClosed, hentry]
  cases hmode : entry.mode with
  | none =>
      refine ⟨⟨dead, connections, by simp [notice, hmode]⟩, hdead, ?_, hothers⟩
      intro e he
      obtain rfl := Option.some.inj (hentry.symm.trans he)
      rfl
  | wire =>
      simp only [eraseConnection, hmoved, Bool.false_eq_true, if_false]
      exact ⟨⟨dead, connections.erase id, by simp [notice, hmode, hmoved]⟩, hdead, by simp, herase⟩
  | connection =>
      simp only [queue, eraseConnection, hmoved, Bool.false_eq_true, if_false]
      exact ⟨⟨dead, connections.erase id, by simp [notice, hmode, hmoved]⟩, hdead, by simp, herase⟩

/-- The library closes a connection that no other shares its entry with. -/
theorem parts_closeUser (hmoved : s.moved = false) (hid : s.handlers[h]? = some id)
    (hentry : s.connections[id]? = some entry) (hlive : h ∉ s.dead)
    (hown : ∀ c, entry.connection = some c → c = h) :
    Parts s (closeUser closeConnection s h) h id entry := by
  have hlookup (s' : Proxy) (hs' : s'.connections = s.connections) (k : ProxyID) :
      (s'.setConnection id none).connections[k]? =
        if id = k then s.connections[k]?.map ({ · with connection := none })
        else s.connections[k]? := by
    rw [getElem?_setConnection, hs']
  have hset {dead : List Handle} (hdead : ∀ c ∈ dead, c = h ∨ c ∈ s.dead) :
      Parts s ((setConnection { s with handlers := s.handlers.erase h, dead } id none).onClosed id)
        h id entry := by
    refine parts_onClosed hmoved hdead ?_ ?_
    · refine (hlookup { s with handlers := s.handlers.erase h, dead } rfl id).trans ?_
      rw [if_pos rfl, hentry]
      rfl
    · intro k hk
      refine (hlookup { s with handlers := s.handlers.erase h, dead } rfl k).trans ?_
      rw [if_neg hk]
  simp only [closeUser, hid, onConnectionClose, hentry]
  cases hc : entry.connection with
  | none => exact hset fun c hc => .inr hc
  | some c =>
      obtain rfl := hown c hc
      rw [@closeConnection_of_silent { s with handlers := s.handlers.erase c } c hlive (by simp)]
      exact hset fun c hc => List.mem_cons.mp hc

/-- The other proxy closes a connection that calls back its entry. -/
theorem parts_initiateConnectionClose (hmoved : s.moved = false) (hid : s.handlers[h]? = some id)
    (hentry : s.connections[id]? = some entry) (hlive : h ∉ s.dead)
    (hown : entry.connection = some h) : Parts s (s.initiateConnectionClose id) h id entry := by
  have hempty : (s.setConnection id none).connections[id]? =
      some { entry with connection := none } := by
    rw [getElem?_setConnection, if_pos rfl, hentry]
    rfl
  simp only [initiateConnectionClose, hentry, hown]
  rw [@closeConnection_of_empty (s.setConnection id none) h id _ hlive hid hempty rfl]
  refine parts_onClosed hmoved (fun c hc => List.mem_cons.mp hc) ?_ ?_
  · refine (getElem?_setConnection (s.setConnection id none) id id none).trans ?_
    rw [if_pos rfl, hempty]
    rfl
  · intro k hk
    refine (getElem?_setConnection (s.setConnection id none) id k none).trans ?_
    rw [if_neg hk, getElem?_setConnection, if_neg hk]

end

/-! ## Packets -/

section
variable {s : Proxy} {id : ProxyID} {entry : ProxyConnection}

/-- What a packet does to a proxy, by what its connection is taken for: the entry learns the new
mode, and the messages that are new are queued. -/
structure Takes (s t : Proxy) (id : ProxyID) (entry : ProxyConnection) (new : List Message)
    (mode : ProxyMode) : Prop where
  eq : ∃ connections wire, t = { s with out := s.out ++ new, connections, wire }
  entry : t.connections[id]? = some { entry with mode }
  others : ∀ k, id ≠ k → t.connections[k]? = s.connections[k]?

/-- Nothing is new. -/
theorem Takes.refl (hentry : s.connections[id]? = some entry) :
    Takes s s id entry [] entry.mode where
  eq := ⟨s.connections, s.wire, by simp⟩
  entry := hentry
  others _ _ := rfl

/-- The entry learns its mode, and messages are queued. -/
theorem Takes.insert (s : Proxy) (id : ProxyID) (entry : ProxyConnection) (new : List Message)
    (mode : ProxyMode) (wire : Option Handle) :
    Takes s { s with
      out := s.out ++ new
      connections := s.connections.insert id { entry with mode }
      wire } id entry new mode where
  eq := ⟨_, _, rfl⟩
  entry := by simp
  others k hk := by
    simp only [ExtTreeMap.getElem?_insert, LawfulEqCmp.compare_eq_iff_eq, if_neg hk]

/-- `on_mode_packet`. -/
theorem takes_onModePacket (hentry : s.connections[id]? = some entry) (hmode : entry.mode = .none)
    (data : Bytes) (isReliable : Bool) :
    Takes s (s.onModePacket id entry data isReliable) id entry
      ((Request.first s.options (isReliable, data)).messages true id)
      (Request.first s.options (isReliable, data)).mode := by
  have hrefl : Takes s s id entry [] .none := by
    rw [← hmode]
    exact .refl hentry
  rw [onModePacket, Request.first]
  dsimp only
  cases hread : DataIn.read ⟨data, data.length⟩ 8 with
  | none => exact hrefl
  | some read =>
      obtain ⟨magic, input⟩ := read
      dsimp only
      by_cases hwire : BitVec.ofNat 64 (leNat magic) = s.options.magicWire
      · rw [if_pos hwire, if_pos hwire]
        have hinsert := Takes.insert s id entry [] .wire entry.connection
        rwa [List.append_nil] at hinsert
      · rw [if_neg hwire, if_neg hwire]
        by_cases hconnection : BitVec.ofNat 64 (leNat magic) = s.options.magicConnection
        · rw [if_pos hconnection, if_pos hconnection]
          cases hread : input.readAddress with
          | none => exact hrefl
          | some read =>
              obtain ⟨address, input⟩ := read
              dsimp only
              by_cases hdata : input.data = []
              · rw [onProxyPacket, if_pos hdata, Request.forward, if_pos hdata]
                exact .insert s id entry [.open id address] .connection s.wire
              · rw [onProxyPacket, if_neg hdata, Request.forward, if_neg hdata, queue, queue]
                dsimp only
                rw [List.append_assoc]
                exact .insert s id entry [.open id address, .data id isReliable input.data]
                  .connection s.wire
        · rw [if_neg hconnection, if_neg hconnection]
          exact hrefl

/-- `on_connection_packet`, on a connection that is taken for what its entry says. -/
theorem takes_onConnectionPacket (hentry : s.connections[id]? = some entry) {request : Request}
    (hmode : entry.mode = request.mode) {announces : Bool}
    (hannounces : request = .undecided → announces = true) (data : Bytes) (isReliable : Bool) :
    ∃ new, (request.take s.options (isReliable, data)).messages announces id =
        request.messages announces id ++ new ∧
      Takes s (s.onConnectionPacket id data isReliable) id entry new
        (request.take s.options (isReliable, data)).mode := by
  have hrefl : Takes s s id entry [] request.mode := by
    rw [← hmode]
    exact .refl hentry
  rw [onConnectionPacket, hentry]
  dsimp only
  by_cases hdata : data = []
  · -- An empty packet is not looked at, and is not the first of anything.
    have htake : request.take s.options (isReliable, data) = request := by
      subst hdata
      cases request <;> simp [Request.take, Request.first, DataIn.read, Request.forward]
    rw [htake, if_pos hdata]
    exact ⟨[], (List.append_nil _).symm, hrefl⟩
  · rw [if_neg hdata]
    cases request with
    | undecided =>
        rw [hannounces rfl]
        refine ⟨_, rfl, ?_⟩
        simp only [show entry.mode = ProxyMode.none from hmode]
        exact takes_onModePacket hentry hmode data isReliable
    | wire =>
        simp only [show entry.mode = ProxyMode.wire from hmode]
        exact ⟨[], rfl, hrefl⟩
    | connection address chunks =>
        simp only [show entry.mode = ProxyMode.connection from hmode, onProxyPacket, if_neg hdata,
          Request.take, Request.forward]
        refine ⟨[.data id isReliable data], ?_, ⟨s.connections, s.wire, rfl⟩, ?_, fun _ _ => rfl⟩
        · simp [Request.messages]
        · rw [Request.mode, ← show entry.mode = ProxyMode.connection from hmode]
          exact hentry

end

/-! ## The ticker -/

/-- Using a connection changes at most the record. -/
theorem exists_use_eq (s : Proxy) (c : Option Handle) :
    ∃ misused, s.use c = { s with misused } := by
  cases c with
  | none => exact ⟨s.misused, rfl⟩
  | some h =>
      simp only [use]
      split
      · exact ⟨_, rfl⟩
      · exact ⟨s.misused, rfl⟩

/-- The ticker sends everything or nothing. -/
theorem tick_eq (s : Proxy) (ready : Bool) :
    ∃ misused out, s.tick ready = { s with misused, out } ∧ (out = s.out ∨ out = []) := by
  unfold tick
  split
  · exact ⟨s.misused, s.out, rfl, .inl rfl⟩
  · obtain ⟨misused, heq⟩ := s.exists_use_eq s.wire
    obtain ⟨misused', heq'⟩ := exists_use_eq { s with misused } s.wire
    dsimp only
    rw [heq]
    split
    · exact ⟨misused', [], by rw [heq'], .inr rfl⟩
    · exact ⟨misused, s.out, rfl, .inl rfl⟩

end Proxy
end MrUDP
