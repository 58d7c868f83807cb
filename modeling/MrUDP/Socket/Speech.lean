import MrUDP.Connection.Transmitted
import MrUDP.Socket.Socket

/-!
# What a connection says in its handshake

A handshake packet is said to the peer when it is transmitted, and again whenever the
retrier sends it again.  A `Speech` is what may be said: which types of handshake packets,
and what they carry.  As long as a connection receives no handshake packet, it keeps to its
speech, and its handshake, its identifiers and its options stay as they are.

## Main definitions

* `Speech`, `Speech.Allows`: what may be said.
* `Connection.Arrives`: how a packet that was transmitted reaches the peer's connection.
* `Connection.Says`: a connection keeps to its speech.
* `Connection.keepsFront_says`, `Connection.receive_handshake`: steps without, and with, a
  handshake packet.
-/

namespace MrUDP
open Wire

/-- What may be said in a handshake packet: its type, and what it carries. -/
abbrev Speech := TypeID → Bytes → Prop

namespace Speech

/-- The packet is no handshake packet, or says what may be said. -/
def Allows (speech : Speech) (packet : Packet) : Prop :=
  isHandshake packet.header.type = true → speech packet.header.type packet.data

/-- What waits may be said, and is not an H3; what is said leaves room for a long identifier. -/
structure Fits (waiting spoken : Speech) : Prop where
  sub : ∀ type data, waiting type data → spoken type data
  h3 : ∀ data, ¬ waiting TypeID.h3 data
  small : ∀ type data, spoken type data → data.length ≤ 8

variable {speech : Speech}

theorem allows_of_type {packet : Packet} (h : isHandshake packet.header.type = false) :
    speech.Allows packet := by
  intro htype
  rw [h] at htype
  cases htype

theorem indifferent (speech : Speech) : Sender.Indifferent speech.Allows where
  id _ _ h := h
  data p h := allows_of_type (by rw [h]; rfl)

end Speech

namespace Connection

/-! ## From one connection to the other -/

/-- How a packet that was transmitted arrives: in a buffer with some other bytes behind it, and
with the long identifier taken off. -/
def Arrives (o : Outgoing) (packet : Packet) : Prop :=
  ∃ rest, packet = (getLookUp { o.packet with rest := rest }).2

/-- The packet that is transmitted as long as the peer's short identifier is not known. -/
theorem wire_long {c : Connection} (hid : c.remoteID = 0) {p : Packet}
    (hfits : p.data.length + 16 ≤ maxPacketSize) (address : Option Address) :
    (c.wire p address).packet =
      { p with header := { p.header with connection := 0 }
               data := p.data ++ leBytes 16 c.id.toNat
               rest := p.rest.drop 16 } := by
  have hpush : pushData { p with header := { p.header with connection := 0 } }
      (leBytes 16 c.id.toNat) = _ := pushData_of_fits (by simpa using hfits)
  simp only [wire, hid, if_true, pushValue, hpush, length_leBytes]

theorem wire_short {c : Connection} (hid : c.remoteID ≠ 0) (p : Packet)
    (address : Option Address) :
    (c.wire p address).packet =
      { p with header := { p.header with connection := c.remoteID } } := by
  simp only [wire, hid, if_false]

theorem header_wire (c : Connection) (p : Packet) (address : Option Address) :
    (c.wire p address).packet.header = { p.header with connection := c.remoteID } := by
  rw [wire]
  dsimp only
  split
  · rw [header_pushValue]
  · rfl

/-- A packet that leaves room for a long identifier arrives as it was. -/
theorem arrives_wire {c : Connection} {p packet : Packet} {address : Option Address}
    (h : Arrives (c.wire p address) packet) :
    packet.header = { p.header with connection := c.remoteID } ∧
      (p.data.length + 16 ≤ maxPacketSize → packet.data = p.data) := by
  obtain ⟨rest, rfl⟩ := h
  refine ⟨?_, fun hfits => ?_⟩
  · rw [header_getLookUp]
    exact header_wire c p address
  · by_cases hid : c.remoteID = 0
    · rw [wire_long hid hfits, getLookUp_long rfl rfl]
    · rw [wire_short hid, getLookUp_short hid]

/-! ## Keeping to a speech -/

/-- What waits in the window or is about to be sent, and what was transmitted, as it arrives. -/
structure Says (waiting spoken : Speech) (c : Connection) : Prop where
  waits : c.sender.Waits waiting.Allows
  posts : c.sender.Posts waiting.Allows
  transmitted : ∀ o ∈ c.transmitted, ∀ packet, Arrives o packet → spoken.Allows packet

section
variable {waiting spoken : Speech} {c : Connection}

theorem Says.of_eq (h : Says waiting spoken c) {c' : Connection} (hsender : c'.sender = c.sender)
    (htransmitted : c'.transmitted = c.transmitted) : Says waiting spoken c' where
  waits := hsender ▸ h.waits
  posts := hsender ▸ h.posts
  transmitted := htransmitted ▸ h.transmitted

theorem Says.mono (h : Says waiting spoken c) {waiting' spoken' : Speech}
    (hwaiting : ∀ type data, waiting type data → waiting' type data)
    (hspoken : ∀ type data, spoken type data → spoken' type data) : Says waiting' spoken' c where
  waits k paths n hk path hpath htype := hwaiting _ _ (h.waits k paths n hk path hpath htype)
  posts t ht htype := hwaiting _ _ (h.posts t ht htype)
  transmitted o ho packet hp htype := hspoken _ _ (h.transmitted o ho packet hp htype)

/-- What is allowed on the wire is allowed when it arrives. -/
theorem allows_of_wire (hsmall : ∀ type data, spoken type data → data.length ≤ 8) {p : Packet}
    (hp : spoken.Allows p) {address : Option Address} {packet : Packet}
    (h : Arrives (c.wire p address) packet) : spoken.Allows packet := by
  obtain ⟨hheader, hdata⟩ := arrives_wire h
  intro htype
  rw [hheader] at htype ⊢
  have hsaid := hp htype
  have hlength := hsmall _ _ hsaid
  rw [hdata (by simp only [maxPacketSize]; omega)]
  exact hsaid

theorem onSend_of_ne_h3 (options : ConnectionOptions) {p : Packet}
    (h : p.header.type ≠ TypeID.h3) : HandshakeOptions.onSend options p = (.keep, p) := by
  rw [HandshakeOptions.onSend, if_neg h]

theorem Says.sender {z : Zlib} {now : Timepoint} {ok : Packet → Prop}
    (hok : ∀ p, ok p → waiting.Allows p) (h : Says waiting spoken c) {s : Sender}
    (hchange : Sender.Change (c.env z now) ok c.sender s) :
    Says waiting spoken { c with sender := s } where
  waits := hchange.waits waiting.indifferent hok h.waits
  posts := by
    refine hchange.posts waiting.indifferent hok h.waits (.inr fun p hp => ?_) h.posts
    exact Speech.allows_of_type (by rw [hp]; rfl)
  transmitted := h.transmitted

theorem Says.flush (hfits : Speech.Fits waiting spoken) (now : Timepoint)
    (h : Says waiting spoken c) : Says waiting spoken (c.flush now) := by
  obtain ⟨probe, hflush⟩ := flush_eq now c
  rw [hflush]
  refine ⟨h.waits, by simp [Sender.Posts], fun o ho packet hp => ?_⟩
  rcases List.mem_append.mp ho with ho | ho
  · exact h.transmitted o ho packet hp
  · obtain ⟨t, ht, rfl⟩ := List.mem_map.mp ho
    have hallowed : waiting.Allows t.packet := h.posts t ht
    have hsame : c.outgoing t = c.wire t.packet t.address := by
      rw [outgoing]
      split
      · rfl
      · by_cases htype : t.packet.header.type = TypeID.h3
        · exact absurd (htype ▸ hallowed (by rw [htype]; rfl)) (hfits.h3 _)
        · rw [onSend_of_ne_h3 _ htype]
    rw [hsame] at hp
    exact allows_of_wire hfits.small (fun htype => hfits.sub _ _ (hallowed htype)) hp

/-- A call on the sender, if what it sends past the queues may be said. -/
theorem Says.call (hfits : Speech.Fits waiting spoken) {z : Zlib} (now : Timepoint)
    {call : SenderCall} (hcall : call.Sends waiting.Allows) (h : Says waiting spoken c) :
    Says waiting spoken (c.call z now call) := by
  apply Says.flush hfits
  exact sender_of_changes (P := Says waiting spoken)
    (fun c s' hchange hc => hc.sender (fun _ hp => hp) hchange) (Sender.call_changes hcall) h

/-- An answer, as it is with the options pushed on it. -/
theorem Says.send (hsmall : ∀ type data, spoken type data → data.length ≤ 8)
    (h : Says waiting spoken c) (now : Timepoint) {packet : Packet}
    (hpacket : spoken.Allows (HandshakeOptions.onSend c.options packet).2) :
    Says waiting spoken (c.send now packet) := by
  rw [send_eq]
  refine ⟨h.waits, h.posts, fun o ho p hp => ?_⟩
  rcases List.mem_append.mp ho with ho | ho
  · exact h.transmitted o ho p hp
  · rw [List.mem_singleton.mp ho] at hp
    exact allows_of_wire hsmall hpacket hp

end

/-! ## Steps without a handshake packet -/

/-- What the handshake is about. -/
structure Standing where
  handshake : Handshake
  id : LongConnectionID
  localID : ShortConnectionID
  remoteID : ShortConnectionID
  options : ConnectionOptions

def standing (c : Connection) : Standing := ⟨c.handshake, c.id, c.localID, c.remoteID, c.options⟩

/-- A property of the standing, and a speech that depends on it. -/
def Stands (T : Standing → Prop) (waiting spoken : Standing → Speech) (c : Connection) : Prop :=
  T c.standing ∧ Says (waiting c.standing) (spoken c.standing) c

section
variable {z : Zlib} {T : Standing → Prop} {waiting spoken : Standing → Speech}

theorem Stands.of_eq {c c' : Connection} (h : Stands T waiting spoken c)
    (hstanding : c'.standing = c.standing) (hsender : c'.sender = c.sender)
    (htransmitted : c'.transmitted = c.transmitted) : Stands T waiting spoken c' := by
  obtain ⟨hT, hspeech⟩ := h
  refine ⟨hstanding ▸ hT, ?_⟩
  rw [hstanding]
  exact hspeech.of_eq hsender htransmitted

theorem standing_call (now : Timepoint) (c : Connection) (call : SenderCall) :
    (c.call z now call).standing = c.standing := by
  obtain ⟨probe, h⟩ := call_eq z now c call
  rw [h]
  rfl

theorem standing_send (now : Timepoint) (c : Connection) (packet : Packet) :
    (c.send now packet).standing = c.standing := by
  rw [send_eq]
  rfl

/-- A call on the sender leaves the standing alone. -/
theorem Stands.call (hfits : ∀ f, T f → Speech.Fits (waiting f) (spoken f)) (now : Timepoint)
    {c : Connection} {call : SenderCall} (hcall : call.Sends (waiting c.standing).Allows)
    (h : Stands T waiting spoken c) : Stands T waiting spoken (c.call z now call) := by
  obtain ⟨hT, hspeech⟩ := h
  rw [Stands, standing_call]
  exact ⟨hT, hspeech.call (hfits _ hT) now hcall⟩

theorem keeps_says {free : Prop} (hfits : ∀ f, T f → Speech.Fits (waiting f) (spoken f))
    (hoptions : ∀ {c : Connection} (options : ConnectionOptions), free →
      Stands T waiting spoken c → Stands T waiting spoken { c with options := options }) :
    Keeps z free (Stands T waiting spoken) := by
  refine keeps_of_change ?_ hoptions
  intro c c' hchange hc
  cases hchange with
  | sender now hs =>
      refine ⟨hc.1, hc.2.sender (fun p hp => Speech.allows_of_type ?_) hs⟩
      rcases hp with hp | hp <;> rw [hp] <;> rfl
  | flush now =>
      have hstanding : (c.flush now).standing = c.standing := by
        obtain ⟨probe, h⟩ := flush_eq now c
        rw [h]
        rfl
      rw [Stands, hstanding]
      exact ⟨hc.1, hc.2.flush (hfits _ hc.1) now⟩
  | probe | receiver | user => exact hc.of_eq rfl rfl rfl

/-- **Without handshake packets nothing changes** in the standing and in what may be said. -/
theorem keepsFront_says (hfits : ∀ f, T f → Speech.Fits (waiting f) (spoken f)) :
    KeepsFront z False (fun type => isHandshake type = false) (Stands T waiting spoken) := by
  refine { keeps_says (z := z) hfits fun _ hfree => hfree.elim with
    negotiate := fun _ hheard => absurd hheard (by decide)
    send := ?_
    sendReliably := ?_
    waitingFor := fun _ hheard => absurd hheard (by decide)
    complete := fun _ _ _ _ hheard => absurd hheard (by decide)
    remoteAddress := fun _ hc => hc.of_eq rfl rfl rfl }
  · intro c now packet hpacket hc
    have htype : packet.header.type = TypeID.authenticateResponse := by
      rcases hpacket with ⟨_, hheard⟩ | ⟨_, hheard⟩ | htype
      · exact absurd hheard (by decide)
      · exact absurd hheard (by decide)
      · exact htype
    rw [Stands, standing_send]
    refine ⟨hc.1, hc.2.send (hfits _ hc.1).small now (Speech.allows_of_type ?_)⟩
    rw [header_onSend, htype]
    rfl
  · intro c now paths priority hpaths hc
    refine hc.call hfits now fun path hpath => Speech.allows_of_type ?_
    rcases hpaths path hpath with ⟨_, hheard⟩ | htype
    · exact absurd hheard (by decide)
    · rw [htype]
      rfl

end

/-! ## A handshake packet -/

/-- **A handshake packet** changes the options if it is an H3, and is then handled or, if it
comes from another address, discarded. -/
theorem receive_handshake {z : Zlib} {P : Connection → Prop}
    (hP : KeepsFront z False (fun type => isHandshake type = false) P) {c : Connection}
    (now : Timepoint) {reactions : Reactions} (hreactions : reactions.Within False)
    {packet : Packet} (htype : isHandshake packet.header.type = true) (path : Address)
    {packet' : Packet} {options : ConnectionOptions}
    (honReceive : HandshakeOptions.onReceive c.options packet = (.keep, packet', options))
    (hdiscarded : P { c with options := options })
    (hhandled : P (handlePacket z now reactions.opened { c with options := options } packet')) :
    P (c.receive z now reactions packet path) := by
  have hheader : packet'.header = packet.header := by
    have := header_onReceive c.options packet
    rwa [honReceive] at this
  have hchallenge : packet'.header.type ≠ TypeID.authenticateChallenge := by
    rw [hheader]
    rintro h
    rw [h] at htype
    cases htype
  have hresponse : packet'.header.type ≠ TypeID.authenticateResponse := by
    rw [hheader]
    rintro h
    rw [h] at htype
    cases htype
  have hpath := hP.networkPathOnReceive now packet' path hdiscarded
  simp only [receive, honReceive]
  by_cases hsame : path = c.remoteAddress
  · have hkeep : networkPathOnReceive z now { c with options := options } packet' path =
        (.keep, packet', { c with options := options }) := by
      rw [networkPathOnReceive, if_neg hchallenge, if_neg (not_not.mpr hsame)]
    rw [hkeep]
    apply hP.receiverOnReceive now hreactions.2.2
    apply hP.senderOnReceive now (hP.userCalls now _ hreactions.2.1)
    apply hP.probe
    rw [handshakeOnReceive, if_pos (by rw [hheader]; exact htype)]
    exact hhandled
  · have hdiscard : (networkPathOnReceive z now { c with options := options } packet' path).1 =
        .discard := by
      rw [networkPathOnReceive, if_neg hchallenge, if_pos hsame, if_neg hresponse]
    split
    next hrun =>
      rw [hrun] at hpath
      exact hpath
    next hrun =>
      rw [hrun] at hdiscard
      cases hdiscard

end Connection
end MrUDP
