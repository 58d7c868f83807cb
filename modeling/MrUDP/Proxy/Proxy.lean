import MrUDP.Lib.Run
import MrUDP.Proxy.Message

/-!
# The connections of a proxy

`mrudp/Proxy.cpp`.  A proxy has an entry for every connection it forwards, and for the wire.  The
library calls back with a pointer to the entry, and what it calls closes the connection of the entry,
which calls back in turn: closing runs through `on_connection_close` again while the first call has
not returned.

Connections are names here (`Handle`), and the library's part is what matters about them: which
entry a connection calls back, and which connections `mrudp_close_connection` has been called for.
The bytes of the wire are in `MrUDP.Proxy.Wire`; what arrives is here a message at a time.

## Main definitions

* `Proxy`: the state of a proxy, with the library's part.
* `Proxy.closeConnection`: `mrudp_close_connection`, with the calls back.
* `Proxy.onSocketAccept`, `Proxy.onConnectionPacket`, `Proxy.onConnectionClose`, `Proxy.tick`,
  `Proxy.onMessage`, `Proxy.close`: what a proxy does.
* `Proxy.step`: the same, as a machine.
* `Proxy.closeConnectionWithin_eq`: the calls back end.
-/

namespace MrUDP
open Wire Machine
open Std (ExtTreeMap LawfulEqCmp)

/-- `mrudp_connection_t`, as a name. -/
abbrev Handle := ℕ

/-- `ProxyMode`. -/
inductive ProxyMode
  | none
  | wire
  | connection
  deriving DecidableEq, Repr

/-- `ProxyConnection`.  Its identifier is the key of the entry. -/
structure ProxyConnection where
  mode : ProxyMode
  connection : Option Handle := none
  deriving DecidableEq, Repr

/-- `mrudp_proxy_options_t`, with the values of `options_default`. -/
structure ProxyOptions where
  magicWire : BitVec 64 := 42
  magicConnection : BitVec 64 := 13
  deriving DecidableEq, Repr

/-- `Proxy`.

`out` has messages for bytes, and `moved` says that the entries have been moved out of the proxy, by
`close`.  `handles` is the number of connections the library has made,
`handlers` the entry that each calls back as long as it does, and `dead` has the connections that
`mrudp_close_connection` has been called for.

The last four fields are a record: the connections that were used after that, the number of
identifiers taken, those that `on_connection_open` was called with, and those whose entry was written
while a connection called it back. -/
structure Proxy where
  options : ProxyOptions := {}
  closed : Bool := false
  wire : Option Handle := none
  out : List Proxy.Message := []
  nextProxyID : ProxyID := 0
  connections : ExtTreeMap ProxyID ProxyConnection := ∅
  moved : Bool := false
  handles : ℕ := 0
  handlers : ExtTreeMap Handle ProxyID := ∅
  dead : List Handle := []
  misused : List Handle := []
  allocated : ℕ := 0
  opened : List ProxyID := []
  overwritten : List ProxyID := []

namespace Proxy

/-! ## Identifiers -/

/-- `ProxyID_SERVER`. -/
def serverID : ProxyID := 0xFF000000#32

/-- `ProxyID_CONNECTION`. -/
def connectionID : ProxyID := ~~~serverID

/-- `incrementProxyID`. -/
def incrementProxyID (id : ProxyID) : ProxyID :=
  (id &&& serverID) ||| ((id + 1) &&& connectionID)

/-- Whether a connection calls back the entry with the identifier. -/
def isLive (s : Proxy) (id : ProxyID) : Bool := s.handlers.toList.any (·.2 = id)

/-! ## Entries -/

/-- `proxy_send_queue`. -/
def queue (s : Proxy) (message : Message) : Proxy := { s with out := s.out ++ [message] }

/-- A connection is passed to the library. -/
def use (s : Proxy) : Option Handle → Proxy
  | none => s
  | some h => if h ∈ s.dead then { s with misused := h :: s.misused } else s

/-- An entry is written for a connection that calls it back. -/
def enter (s : Proxy) (id : ProxyID) (entry : ProxyConnection) : Proxy :=
  { s with
    connections := s.connections.insert id entry
    handles := s.handles + 1
    handlers := s.handlers.insert s.handles id
    overwritten := if s.isLive id then id :: s.overwritten else s.overwritten }

/-- The connection of the entry with the identifier. -/
def connection (s : Proxy) (id : ProxyID) : Option Handle :=
  s.connections[id]?.bind (·.connection)

/-- `connection->connection = …`. -/
def setConnection (s : Proxy) (id : ProxyID) (connection : Option Handle) : Proxy :=
  { s with connections := s.connections.modify id fun entry => { entry with connection } }

/-! ## Closing -/

/-- `on_connection_close(Proxy *, ProxyConnection *)`, which does not find an entry that has been
moved. -/
def eraseConnection (s : Proxy) (id : ProxyID) : Proxy :=
  if s.moved then s else { s with connections := s.connections.erase id }

/-- The `switch` of `on_connection_close(void *, mrudp_event_t)`, with `on_wire_close` and
`on_proxy_close`. -/
def onClosed (s : Proxy) (id : ProxyID) : Proxy :=
  match s.connections[id]? with
  | none => s
  | some entry =>
      match entry.mode with
      | .none => s
      | .wire => s.eraseConnection id
      | .connection => (s.queue (.close id)).eraseConnection id

/-- `on_connection_close(void *, mrudp_event_t)`. -/
def onConnectionClose (closeConnection : Proxy → Option Handle → Proxy) (s : Proxy)
    (id : ProxyID) : Proxy :=
  match s.connections[id]? with
  | none => s
  | some entry =>
      ((closeConnection s entry.connection).setConnection id none).onClosed id

/-- `Connection::closeUser`: the entry is called back, once. -/
def closeUser (closeConnection : Proxy → Option Handle → Proxy) (s : Proxy) (h : Handle) : Proxy :=
  match s.handlers[h]? with
  | none => s
  | some id => onConnectionClose closeConnection { s with handlers := s.handlers.erase h } id

/-- `mrudp_close_connection`, up to a depth of calls back. -/
def closeConnectionWithin : ℕ → Proxy → Option Handle → Proxy
  | _, s, none => s
  | 0, s, some _ => s
  | depth + 1, s, some h =>
      if h ∈ s.dead then s.use (some h)
      else closeUser (closeConnectionWithin depth) { s with dead := h :: s.dead } h

/-- `mrudp_close_connection`.  A connection calls back once, so the depth is the number of those that
have not. -/
def closeConnection (s : Proxy) (h : Option Handle) : Proxy :=
  closeConnectionWithin (s.handlers.size + 1) s h

/-- `initiate_connection_close`. -/
def initiateConnectionClose (s : Proxy) (id : ProxyID) : Proxy :=
  match s.connections[id]? with
  | none => s
  | some entry => closeConnection (s.setConnection id none) entry.connection

/-! ## Opening -/

/-- `open`, with or without an address to connect to, and whether the connection could be made.  The
entry of the wire does not get the connection. -/
def «open» (options : ProxyOptions) : Option Bool → Proxy
  | none => { options, nextProxyID := serverID }
  | some connects =>
      let s : Proxy :=
        { options, nextProxyID := incrementProxyID 0, allocated := 1 }
      let s :=
        if connects then { s.enter 0 ⟨.wire, none⟩ with wire := some 0 }
        else { s with connections := s.connections.insert 0 ⟨.wire, none⟩ }
      s.use s.wire

/-- `on_socket_accept` and `on_wire_socket_accept`, which differ in an option of the connection. -/
def onSocketAccept (s : Proxy) : Proxy :=
  { s.enter s.nextProxyID ⟨.none, some s.handles⟩ with
    nextProxyID := incrementProxyID s.nextProxyID
    allocated := s.allocated + 1 }

/-- `on_connection_open`, and whether the connection could be made. -/
def onConnectionOpen (s : Proxy) (id : ProxyID) (connects : Bool) : Proxy :=
  let s := { s with opened := s.opened ++ [id] }
  if connects then s.enter id ⟨.connection, some s.handles⟩
  else
    { s with
      connections := s.connections.insert id ⟨.connection, none⟩
      overwritten := if s.isLive id then id :: s.overwritten else s.overwritten }

/-! ## Packets -/

/-- `on_proxy_packet`, if there is something in the packet. -/
def onProxyPacket (s : Proxy) (id : ProxyID) (data : Bytes) (isReliable : Bool) : Proxy :=
  if data = [] then s else s.queue (.data id isReliable data)

/-- `on_mode_packet`. -/
def onModePacket (s : Proxy) (id : ProxyID) (entry : ProxyConnection) (data : Bytes)
    (isReliable : Bool) : Proxy :=
  match DataIn.read ⟨data, data.length⟩ 8 with
  | none => s
  | some (magic, input) =>
      if BitVec.ofNat 64 (leNat magic) = s.options.magicWire then
        { s with
          connections := s.connections.insert id { entry with mode := .wire }
          wire := entry.connection }
      else if BitVec.ofNat 64 (leNat magic) = s.options.magicConnection then
        match input.readAddress with
        | none => s
        | some (address, input) =>
            let s := s.queue (.open id address)
            let s :=
              { s with connections := s.connections.insert id { entry with mode := .connection } }
            s.onProxyPacket id input.data isReliable
      else s

/-- `on_connection_packet`.  In `WIRE` mode it is kept for `proxy_tick`. -/
def onConnectionPacket (s : Proxy) (id : ProxyID) (data : Bytes) (isReliable : Bool) : Proxy :=
  match s.connections[id]? with
  | none => s
  | some entry =>
      if data = [] then s
      else
        match entry.mode with
        | .none => s.onModePacket id entry data isReliable
        | .wire => s
        | .connection => s.onProxyPacket id data isReliable

/-! ## The ticker -/

/-- `proxy_tick`, up to what has arrived.  `ready` is whether the state of the wire could be had and
few enough packets are on the way. -/
def tick (s : Proxy) (ready : Bool) : Proxy :=
  if s.wire = none ∨ s.out = [] then s
  else
    let s := s.use s.wire
    if ready then { s.use s.wire with out := [] } else s

/-- What `on_wire_packet` does about a message, and whether a connection could be made for it. -/
def onMessage (s : Proxy) (connects : Bool) : Message → Proxy
  | .open id _ => s.onConnectionOpen id connects
  | .close id => s.initiateConnectionClose id
  | .data id _ _ => s.use (s.connection id)

/-! ## The end -/

/-- `close`.  The sockets have no part in it: closing one does not close its connections. -/
def close (s : Proxy) : Proxy :=
  -- `closed` is set first, for the ticker, and closing a connection does not look at it.
  let s := { s.closeConnection s.wire with closed := true, wire := none, moved := true }
  let s := s.connections.keys.foldl (fun s id => s.closeConnection (s.connection id)) s
  { s with connections := ∅ }

end Proxy

/-- What happens to a proxy. -/
inductive ProxyEvent
  /-- A connection is accepted. -/
  | accept
  /-- A connection hands over data. -/
  | packet (h : Handle) (data : Bytes) (isReliable : Bool)
  /-- The library closes a connection. -/
  | closed (h : Handle)
  /-- The ticker sends, if it can. -/
  | tick (ready : Bool)
  /-- The ticker comes to a message that has arrived. -/
  | message (message : Proxy.Message) (connects : Bool)
  /-- The proxy is closed. -/
  | close
  deriving DecidableEq, Repr

namespace Proxy

/-- Something happens.  A proxy that has been closed is gone. -/
def step (s : Proxy) (event : ProxyEvent) : Proxy :=
  if s.closed then s
  else
    match event with
    | .accept => s.onSocketAccept
    | .packet h data isReliable =>
        match s.handlers[h]? with
        | none => s
        | some id => s.onConnectionPacket id data isReliable
    | .closed h => closeUser closeConnection s h
    | .tick ready => s.tick ready
    | .message message connects => if s.wire = none then s else s.onMessage connects message
    | .close => s.close

/-! ## What the parts do -/

theorem isLive_iff {s : Proxy} {id : ProxyID} :
    s.isLive id = true ↔ ∃ h : Handle, s.handlers[h]? = some id := by
  simp only [isLive, List.any_eq_true, Prod.exists, ExtTreeMap.mem_toList_iff_getElem?_eq_some,
    decide_eq_true_eq, exists_eq_right]

theorem getElem?_setConnection (s : Proxy) (id k : ProxyID) (c : Option Handle) :
    (s.setConnection id c).connections[k]? =
      if id = k then s.connections[k]?.map ({ · with connection := c }) else s.connections[k]? := by
  simp only [setConnection, ExtTreeMap.getElem?_modify, LawfulEqCmp.compare_eq_iff_eq]
  split
  · subst id
    rfl
  · rfl

/-- When a connection has been closed its entry is erased or kept, and the other proxy may be
told. -/
theorem onClosed_eq (s : Proxy) (id : ProxyID) :
    ∃ closes connections, s.onClosed id = { s with out := s.out ++ closes, connections } ∧
      (∀ message ∈ closes, message = .close id) ∧
      (connections = s.connections ∨ connections = s.connections.erase id) := by
  unfold onClosed
  split
  · exact ⟨[], _, by simp, by simp, .inl rfl⟩
  · split
    · exact ⟨[], _, by simp, by simp, .inl rfl⟩
    · unfold eraseConnection
      split
      · exact ⟨[], _, by simp, by simp, .inl rfl⟩
      · exact ⟨[], _, by simp, by simp, .inr rfl⟩
    · unfold eraseConnection
      split
      · exact ⟨[.close id], _, rfl, by simp, .inl rfl⟩
      · exact ⟨[.close id], _, rfl, by simp, .inr rfl⟩

/-- A connection that has not been closed may be used. -/
theorem use_eq {s : Proxy} {c : Option Handle} (h : ∀ h ∈ c, h ∉ s.dead) : s.use c = s := by
  cases c with
  | none => rfl
  | some c => exact if_neg (h c rfl)

/-! ## The calls back end -/

theorem size_erase_lt {t : ExtTreeMap Handle ProxyID} {h : Handle} {id : ProxyID}
    (hid : t[h]? = some id) : (t.erase h).size < t.size := by
  have hmem : h ∈ t := ExtTreeMap.mem_iff_isSome_getElem?.mpr (by simp [hid])
  have hpos : 0 < t.size := by
    rw [← ExtTreeMap.length_keys]
    exact List.length_pos_of_mem (ExtTreeMap.mem_keys.mpr hmem)
  rw [ExtTreeMap.size_erase, if_pos (ExtTreeMap.contains_iff_mem.mpr hmem)]
  omega

/-- Every call back takes away the handler it came from, so more depth makes no difference. -/
theorem closeConnectionWithin_eq {depth depth' : ℕ} {s : Proxy} (h : s.handlers.size < depth)
    (h' : s.handlers.size < depth') (c : Option Handle) :
    closeConnectionWithin depth s c = closeConnectionWithin depth' s c := by
  induction depth generalizing depth' s c with
  | zero => omega
  | succ depth ih =>
      cases depth' with
      | zero => omega
      | succ depth' =>
          cases c with
          | none => rfl
          | some c =>
              simp only [closeConnectionWithin, closeUser]
              cases hid : s.handlers[c]? with
              | none => rfl
              | some id =>
                  have hsize := size_erase_lt hid
                  simp only [onConnectionClose]
                  congr 1
                  split
                  · rfl
                  · rw [@ih depth' _ (by dsimp only; omega) (by dsimp only; omega)]

end Proxy
end MrUDP
