import MrUDP.Connection.Invariants

/-!
# The socket

`mrudp/Socket.cpp`.  A socket finds the connection a packet is for, by the short identifier
in the header or, if that is zero, by the long identifier at the end of the packet, and
creates connections for the H0 packets it is willing to accept.

A connection is an object named by its position in `objects`, and stays there when it
leaves the look-up tables.  What the user's handlers and the system do while a packet is
received is an input, as are the random numbers.

## Main definitions

* `getLookUp`, `Socket.findConnection`: which connection a packet is for.
* `Socket.generateConnection`: a new connection, unless it is refused.
* `Socket.step`: the socket as a machine.
-/

namespace MrUDP
open Wire

/-- `Socket::LookUp`. -/
structure LookUp where
  shortID : ShortConnectionID := 0
  longID : LongConnectionID := 0
  deriving DecidableEq, Repr

/-- `Socket::getLookUp`, and the packet with the long identifier taken off. -/
def getLookUp (packet : Packet) : LookUp × Packet :=
  if packet.header.connection = 0 then
    match popData packet 16 with
    | none => ({}, packet)
    | some (data, packet) => ({ longID := BitVec.ofNat 128 (leNat data) }, packet)
  else ({ shortID := packet.header.connection }, packet)

/-- The long identifier is taken off a packet that carries it. -/
theorem getLookUp_long {packet : Packet} {front : Bytes} {id : LongConnectionID}
    (hconnection : packet.header.connection = 0)
    (hdata : packet.data = front ++ leBytes 16 id.toNat) :
    getLookUp packet =
      ({ longID := id },
        { packet with data := front, rest := leBytes 16 id.toNat ++ packet.rest }) := by
  have hpop := popData_append packet front (leBytes 16 id.toNat) hdata
  rw [length_leBytes] at hpop
  simp only [getLookUp, if_pos hconnection, hpop]
  rw [ofNat_leNat_leBytes id (by norm_num)]

theorem getLookUp_short {packet : Packet} (hconnection : packet.header.connection ≠ 0) :
    getLookUp packet = ({ shortID := packet.header.connection }, packet) := by
  rw [getLookUp, if_neg hconnection]

theorem header_getLookUp (packet : Packet) : (getLookUp packet).2.header = packet.header := by
  rw [getLookUp]
  split
  · split
    · rfl
    next h => exact header_popData h
  · rfl

/-- `Socket`.  `acceptHandler` and `shouldAccept` say whether the handlers are set, and
`options` are those of the service.  `finished` are the objects whose finish timeout has
run out. -/
structure Socket where
  options : ConnectionOptions
  userDataDisposed : Bool := true
  shouldAccept : Bool := false
  acceptHandler : Bool := false
  objects : List Connection := []
  connections : Std.ExtTreeMap LongConnectionID ℕ := ∅
  receiveConnections : Std.ExtTreeMap ShortConnectionID ℕ := ∅
  shortConnectionIDs : Finset ShortConnectionID := ∅
  finished : Finset ℕ := ∅

/-- What happens around the socket while it receives a packet: the random number that is
drawn, whether `shouldAccept` and `acceptHandler` succeed and whether the connection can be
opened, what `acceptHandler` does with the connection, what the close handler does if the
connection is not accepted, and what the handlers do while the connection receives. -/
structure Surroundings where
  random : ShortConnectionID
  shouldAccept : Bool := true
  opens : Bool := true
  accepts : Bool := true
  script : List UserCall := []
  onClose : List UserCall := []
  reactions : Connection.Reactions := {}

namespace Socket

/-! ## Short identifiers -/

/-- `Socket::isFull`. -/
def isFull (s : Socket) : Bool := s.shortConnectionIDs.card = 2 ^ 16 - 1 - 1

/-- The loop of `Socket::acquireShortConnectionID`. -/
def acquireLoop (used : Finset ShortConnectionID) : ℕ → ShortConnectionID →
    Option ShortConnectionID
  | 0, _ => none
  | fuel + 1, id => if id = 0 ∨ id ∈ used then acquireLoop used fuel (id + 1) else some id

/-- `Socket::acquireShortConnectionID`: the identifier.  The loop does not end if all
identifiers are taken. -/
def acquireShortConnectionID (used : Finset ShortConnectionID) (random : ShortConnectionID) :
    Option ShortConnectionID :=
  acquireLoop used (2 ^ 16) random

/-- The identifier the search ends with, whatever the bound on its length, is free. -/
theorem acquireLoop_free {used : Finset ShortConnectionID} {id : ShortConnectionID} (fuel : ℕ)
    (random : ShortConnectionID) (h : acquireLoop used fuel random = some id) :
    id ≠ 0 ∧ id ∉ used := by
  induction fuel generalizing random with
  | zero => cases h
  | succ fuel ih =>
      rw [acquireLoop] at h
      split at h
      · exact ih _ h
      next hfree =>
        cases h
        exact not_or.mp hfree

/-- **An identifier acquired is not zero, and was free.** -/
theorem acquireShortConnectionID_spec {used : Finset ShortConnectionID}
    {random id : ShortConnectionID} (h : acquireShortConnectionID used random = some id) :
    id ≠ 0 ∧ id ∉ used :=
  acquireLoop_free _ _ h

/-! ## The tables -/

/-- `Socket::insert`, of a new object. -/
def insert (s : Socket) (c : Connection) : Socket :=
  { s with
    objects := s.objects ++ [c]
    connections := s.connections.insert c.id s.objects.length
    receiveConnections := s.receiveConnections.insert c.localID s.objects.length }

/-- `Socket::erase`. -/
def erase (s : Socket) (c : Connection) : Socket :=
  { s with
    receiveConnections := s.receiveConnections.erase c.localID
    connections := s.connections.erase c.id
    shortConnectionIDs := s.shortConnectionIDs.erase c.localID }

/-- `Socket::findConnection`. -/
def findConnection (s : Socket) (lookup : LookUp) : Option ℕ :=
  if lookup.longID ≠ 0 then s.connections[lookup.longID]?
  else if lookup.shortID ≠ 0 then s.receiveConnections[lookup.shortID]?
  else none

/-- Something happens to one object. -/
def modify (s : Socket) (k : ℕ) (f : Connection → Connection) : Socket :=
  { s with objects := s.objects.modify k f }

/-- A connection as `acceptHandler` leaves it. -/
def created (z : Zlib) (now : Timepoint) (script : List UserCall) (id : LongConnectionID)
    (localID : ShortConnectionID) (remoteAddress : Address) (options : ConnectionOptions) :
    Connection :=
  Connection.userCalls z now script
    (Connection.start now (Connection.fresh id localID remoteAddress options))

/-- `Socket::generateConnection`.  A connection that cannot be opened is gone at once; one
that is not accepted is closed, but stays in the tables. -/
def generateConnection (z : Zlib) (now : Timepoint) (s : Socket) (lookup : LookUp)
    (packet : Packet) (remoteAddress : Address) (o : Surroundings) : Option ℕ × Socket :=
  if s.isFull then (none, s)
  else if packet.header.type ≠ TypeID.h0 then (none, s)
  else if lookup.longID = 0 then (none, s)
  else if s.acceptHandler = false then (none, s)
  else if s.shouldAccept = true ∧ o.shouldAccept = false then (none, s)
  else match acquireShortConnectionID s.shortConnectionIDs o.random with
    | none => (none, s)
    | some localID =>
        let s := { s with shortConnectionIDs := Insert.insert localID s.shortConnectionIDs }
        if o.opens = false then
          (none, s.erase (Connection.fresh lookup.longID localID remoteAddress s.options))
        else
          let c := created z now o.script lookup.longID localID remoteAddress s.options
          if o.accepts = false then
            (none, s.insert
              (Connection.closeWith now (Connection.userCalls z now o.onClose) .notAccepted c))
          else (some s.objects.length, s.insert c)

/-- `Socket::findOrGenerateConnection`. -/
def findOrGenerateConnection (z : Zlib) (now : Timepoint) (s : Socket) (lookup : LookUp)
    (packet : Packet) (remoteAddress : Address) (o : Surroundings) : Option ℕ × Socket :=
  match s.findConnection lookup with
  | some k => (some k, s)
  | none => s.generateConnection z now lookup packet remoteAddress o

/-- `Socket::receive`. -/
def receive (z : Zlib) (now : Timepoint) (s : Socket) (packet : Packet)
    (remoteAddress : Address) (o : Surroundings) : Socket :=
  let (lookup, packet) := getLookUp packet
  match s.findOrGenerateConnection z now lookup packet remoteAddress o with
  | (none, s) => s
  | (some k, s) => s.modify k fun c => c.receive z now o.reactions packet remoteAddress

/-! ## The user -/

/-- `Socket::listen`. -/
def listen (s : Socket) (shouldAccept acceptHandler : Bool) : Socket :=
  if s.userDataDisposed then
    { s with
      userDataDisposed := false
      shouldAccept := shouldAccept
      acceptHandler := acceptHandler }
  else s

/-- `Socket::close`. -/
def close (s : Socket) : Socket :=
  if s.userDataDisposed then s else { s with userDataDisposed := true, acceptHandler := false }

/-- `Socket::connect`, with the identifiers it draws. -/
def connect (z : Zlib) (now : Timepoint) (s : Socket) (remoteAddress : Address)
    (options : Option ConnectionOptions) (receiveHandler closeHandler : Bool)
    (longID : LongConnectionID) (random : ShortConnectionID) (opens : Bool) : Socket :=
  match acquireShortConnectionID s.shortConnectionIDs random with
  | none => s
  | some localID =>
      let s := { s with shortConnectionIDs := Insert.insert localID s.shortConnectionIDs }
      let c := Connection.fresh longID localID remoteAddress s.options
      if opens then s.insert (c.connect z now options receiveHandler closeHandler)
      else s.erase c

/-- `Connection::finish`, when the finish timeout of an object runs out. -/
def finish (s : Socket) (k : ℕ) : Socket :=
  match s.objects[k]? with
  | none => s
  | some c =>
      if c.finishTimeout.isSome = true ∧ k ∉ s.finished then
        { s.erase c with finished := Insert.insert k s.finished }
      else s

/-! ## The socket as a machine -/

/-- Something happens to a connection that does not come through its socket. -/
def isInternal : Connection.Input → Bool
  | .receive _ _ _ => false
  | _ => true

/-- What can happen to a socket. -/
inductive Input
  | listen (shouldAccept acceptHandler : Bool)
  | close
  | connect (remoteAddress : Address) (options : Option ConnectionOptions)
      (receiveHandler closeHandler : Bool) (longID : LongConnectionID)
      (random : ShortConnectionID) (opens : Bool)
  | receive (packet : Packet) (remoteAddress : Address) (o : Surroundings)
  | object (k : ℕ) (input : Connection.Input)
  | finish (k : ℕ)

/-- One thing happens, at its time. -/
def step (z : Zlib) (s : Socket) : Timepoint × Input → Socket
  | (_, .listen shouldAccept acceptHandler) => s.listen shouldAccept acceptHandler
  | (_, .close) => s.close
  | (now, .connect remoteAddress options receiveHandler closeHandler longID random opens) =>
      s.connect z now remoteAddress options receiveHandler closeHandler longID random opens
  | (now, .receive packet remoteAddress o) => s.receive z now packet remoteAddress o
  | (now, .object k input) =>
      if isInternal input then s.modify k fun c => c.step z (now, input) else s
  | (_, .finish k) => s.finish k

/-- The states a socket can reach. -/
def Reachable (z : Zlib) (s : Socket) : Prop :=
  ∃ options inputs, s = Machine.run (step z) { options := options } inputs

/-! ## The objects -/

theorem mem_modify {objects : List Connection} {k : ℕ} {f : Connection → Connection}
    {c : Connection} (h : c ∈ objects.modify k f) :
    c ∈ objects ∨ ∃ c' ∈ objects, c = f c' := by
  obtain ⟨i, hi⟩ := List.mem_iff_getElem?.mp h
  rw [List.getElem?_modify] at hi
  cases hc : objects[i]? with
  | none => simp [hc] at hi
  | some c' =>
      have hmem := List.mem_of_getElem? hc
      by_cases hk : k = i
      · right
        exact ⟨c', hmem, by simpa [hc, hk] using hi.symm⟩
      · left
        have hsame : c' = c := by simpa [hc, hk] using hi
        rwa [← hsame]

end Socket

namespace Connection

variable {z : Zlib} {c : Connection}

theorem Reachable.step (h : Reachable z c) (input : Timepoint × Input) :
    Reachable z (c.step z input) := by
  obtain ⟨c₀, inputs, hstarted, rfl⟩ := h
  exact ⟨c₀, inputs ++ [input], hstarted, by simp⟩

theorem Reachable.userCalls (now : Timepoint) (script : List UserCall) (h : Reachable z c) :
    Reachable z (userCalls z now script c) := by
  induction script generalizing c with
  | nil => rwa [Connection.userCalls]
  | cons call script ih =>
      rw [Connection.userCalls]
      exact ih (h.step (now, .user call))

theorem Reachable.of_started (h : Started z c) : Reachable z c := ⟨c, [], h, rfl⟩

end Connection

namespace Socket

variable {z : Zlib} {now : Timepoint} {s : Socket}

theorem reachable_created (script : List UserCall) (id : LongConnectionID)
    (localID : ShortConnectionID) (remoteAddress : Address) (options : ConnectionOptions) :
    Connection.Reachable z (created z now script id localID remoteAddress options) := by
  apply Connection.Reachable.userCalls
  exact .of_started (.created id localID remoteAddress options now)

end Socket
end MrUDP
