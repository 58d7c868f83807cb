import MrUDP.Endpoint.Legible

/-!
# From one end to the other

On its way out a packet passes through the options, the encryption and the addressing, each of
which pushes bytes on the same stack; on its way in it passes through them in the opposite order.
It comes out as it went in, if there was room for everything that was pushed on it.  The same holds
for the packet that is kept for sending it again, however it is addressed by then.

## Main definitions

* `Endpoint.packedSize`: how long a packet becomes on its way out.
* `Endpoint.unpack`: a packet on its way in.
* `Endpoint.pipeline`: what is packed is unpacked.
* `Endpoint.packet_discarded`: there is not always room.
-/

namespace MrUDP
open Wire
open ConnectionCrypto (SameKeys Knows Understood)

namespace Endpoint

variable {C : Cipher} {e peer : Endpoint}

/-! ## Sizes -/

/-- The bytes `Handshake_Options::onSend` pushes. -/
def optionsSize (type : TypeID) : ℕ := if type = TypeID.h3 then 6 else 0

/-- A bound on the length of a packet when it is handed to the socket. -/
def packedSize (e : Endpoint) (packet : Packet) : ℕ :=
  let n := packet.data.length + optionsSize packet.header.type
  let n := match e.crypto with
    | none => n
    | some crypto => crypto.sealedSize packet.header.type n
  if e.remoteID = 0 then n + 16 else n

/-- No handshake packet, which carries keys or options. -/
def IsPlain (packet : Packet) : Prop :=
  packet.header.type ∉ [TypeID.h0, TypeID.h1, TypeID.h2, TypeID.h3]

/-- Whatever is enqueued leaves enough room, if there is no encryption or the session key is
known. -/
theorem packedSize_le {packet : Packet} (hlength : packet.data.length ≤ maxPacketPostFrameSize)
    (hcrypto : ∀ c, e.crypto = some c → c.canSend = true ∧ IsPlain packet) :
    e.packedSize packet ≤ maxPacketSize := by
  have hmax : maxPacketPostFrameSize = 1436 := by decide
  have hoptions : optionsSize packet.header.type ≤ 6 := by
    rw [optionsSize]
    split <;> omega
  rw [packedSize]
  cases hc : e.crypto with
  | none =>
      dsimp only
      split <;> simp only [maxPacketSize] <;> omega
  | some c =>
      obtain ⟨hcan, hplain⟩ := hcrypto c hc
      obtain ⟨key, hkey⟩ := Option.isSome_iff_exists.mp hcan
      simp only [IsPlain, List.mem_cons, List.not_mem_nil, or_false, not_or] at hplain
      have htag : c.tagSize packet.header.type = 0 := by simp [ConnectionCrypto.tagSize, hplain]
      have hoptions : optionsSize packet.header.type = 0 := by simp [optionsSize, hplain]
      simp only [ConnectionCrypto.sealedSize, hkey, htag, hoptions, aesSize, maxPacketSize]
      split <;> omega

/-! ## The way in -/

/-- `Socket::getLookUp`, `ConnectionCrypto::onReceive` and `Handshake_Options::onReceive`. -/
def unpack (C : Cipher) (e : Endpoint) (packet : Packet) : Option (LookUp × Packet) :=
  let (lookup, packet) := getLookUp packet
  match e.decrypt C packet with
  | (.discard, _, _) => none
  | (.keep, packet, e) =>
      match HandshakeOptions.onReceive e.options packet with
      | (.discard, _, _) => none
      | (.keep, packet, _) => some (lookup, packet)

/-- How the peer finds the connection a packet is for. -/
def lookUp (e : Endpoint) : LookUp :=
  if e.remoteID = 0 then { longID := e.id } else { shortID := e.remoteID }

/-- The peer's socket finds the connection that is registered under both identifiers. -/
theorem findConnection_lookUp {s : Socket} {k : ℕ} (hnull : e.id ≠ 0)
    (hlong : s.connections[e.id]? = some k)
    (hshort : e.remoteID ≠ 0 → s.receiveConnections[e.remoteID]? = some k) :
    s.findConnection e.lookUp = some k := by
  rw [lookUp]
  split
  · rw [Socket.findConnection, if_pos hnull, hlong]
  next hid => rw [Socket.findConnection, if_neg (not_not.mpr rfl), if_pos hid, hshort hid]

/-! ## Keys -/

/-- Both sides encrypt, and what the one knows of the other's keys is right; or neither does. -/
def Matches (C : Cipher) (e peer : Endpoint) : Prop :=
  (e.crypto = none ∧ peer.crypto = none) ∨
    ∃ c c', e.crypto = some c ∧ peer.crypto = some c' ∧ Sound C c c' ∧ c.Knows c'

/-- The peer has the same keys. -/
def SamePeer (peer peer' : Endpoint) : Prop :=
  (peer.crypto = none ∧ peer'.crypto = none) ∨
    ∃ c c', peer.crypto = some c ∧ peer'.crypto = some c' ∧ SameKeys c c'

/-- A type that only the encryption gives to a packet is taken for encrypted, so it must not be sent
while no key is known. -/
def Typed (e : Endpoint) (packet : Packet) : Prop :=
  ∀ c, e.crypto = some c → c.remoteSessionKey = none → c.remotePublicKey = none →
    packet.header.type ≠ TypeID.encryptedViaAES ∧
      packet.header.type ≠ TypeID.encryptedViaPublicKey

/-! ## Layer by layer -/

/-- The options that were pushed are taken off. -/
theorem onReceive_onSend (options : ConnectionOptions) {packet : Packet}
    (hfits : packet.data.length + optionsSize packet.header.type ≤ maxPacketSize) :
    ∃ pushed, HandshakeOptions.onSend options packet = (.keep, pushed) ∧
      pushed.header = packet.header ∧
      pushed.data.length = packet.data.length + optionsSize packet.header.type ∧
      ∀ theirs (arrived : Packet), arrived.header.type = pushed.header.type →
        arrived.data = pushed.data →
        ∃ opened options', HandshakeOptions.onReceive theirs arrived = (.keep, opened, options') ∧
          opened.header = arrived.header ∧ opened.data = packet.data := by
  by_cases htype : packet.header.type = TypeID.h3
  · rw [optionsSize, if_pos htype, ← HandshakeOptions.length_bytes options] at hfits ⊢
    rw [HandshakeOptions.onSend, if_pos htype, pushValue, pushData_of_fits hfits]
    refine ⟨_, rfl, rfl, by simp, ?_⟩
    intro theirs arrived harrived hdata
    obtain ⟨opened, options', honReceive, hheader, hopened, _⟩ :=
      HandshakeOptions.onReceive_bytes (harrived.trans htype) hdata theirs
    exact ⟨opened, options', honReceive, hheader, hopened⟩
  · refine ⟨packet, Connection.onSend_of_ne_h3 options htype, rfl, ?_, ?_⟩
    · rw [optionsSize, if_neg htype, Nat.add_zero]
    · intro theirs arrived harrived hdata
      rw [← harrived] at htype
      exact ⟨arrived, theirs, HandshakeOptions.onReceive_of_ne_h3 theirs htype, rfl, hdata⟩

/-- The identifier that was pushed is taken off. -/
theorem getLookUp_wire {p : Packet} {n : ℕ} (hlength : p.data.length ≤ n)
    (hfits : (if e.remoteID = 0 then n + 16 else n) ≤ maxPacketSize) (address : Option Address)
    (rest : Bytes) :
    (e.wire p address).packet.data.length ≤ maxPacketSize ∧
      ∃ arrived, getLookUp { (e.wire p address).packet with rest := rest } = (e.lookUp, arrived) ∧
        arrived.header = { p.header with connection := e.remoteID } ∧ arrived.data = p.data := by
  rw [lookUp]
  by_cases hid : e.remoteID = 0
  · rw [if_pos hid] at hfits ⊢
    rw [Connection.wire_long hid (by omega), getLookUp_long rfl rfl]
    refine ⟨?_, _, rfl, ?_, rfl⟩
    · simp only [List.length_append, length_leBytes]
      omega
    · rw [hid]
  · rw [if_neg hid] at hfits ⊢
    rw [Connection.wire_short hid, getLookUp_short hid]
    exact ⟨by dsimp only; omega, _, rfl, rfl, rfl⟩

/-- What was encrypted is decrypted. -/
theorem decrypt_encrypt (hkeys : Matches C e peer) {packet : Packet} (htyped : e.Typed packet)
    {n : ℕ}
    (hn : n = match e.crypto with
      | none => packet.data.length
      | some crypto => crypto.sealedSize packet.header.type packet.data.length)
    (hfits : n ≤ maxPacketSize) :
    ∃ sealed e', e.encrypt C packet = (.keep, sealed, e') ∧ e'.toConnection = e.toConnection ∧
      sealed.data.length ≤ n ∧
      ∀ peer', SamePeer peer peer' → ∀ arrived : Packet,
        arrived.header.type = sealed.header.type → arrived.header.id = sealed.header.id →
        arrived.data = sealed.data →
        ∃ opened peer'', peer'.decrypt C arrived = (.keep, opened, peer'') ∧
          peer''.options = peer'.options ∧ opened.header.type = packet.header.type ∧
          opened.header.id = packet.header.id ∧ opened.data = packet.data := by
  rcases hkeys with ⟨hmine, hpeer⟩ | ⟨c, c', hmine, hpeer, hsound, hknows⟩
  · rw [hmine] at hn
    refine ⟨packet, e, by rw [encrypt, hmine], rfl, hn.ge, ?_⟩
    intro peer' hsame arrived htype hid hdata
    have hpeer' : peer'.crypto = none := by
      rcases hsame with ⟨_, h⟩ | ⟨_, _, h, _⟩
      · exact h
      · rw [hpeer] at h
        cases h
    exact ⟨arrived, peer', by rw [decrypt, hpeer'], rfl, htype, hid, hdata⟩
  · rw [hmine] at hn
    dsimp only at hn
    obtain ⟨sealed, hsealed, _, hlength, hunderstood⟩ := ConnectionCrypto.exists_onSend
      hsound.lawful hsound.mine hsound.peer hknows (hn ▸ hfits) (htyped c hmine)
    rw [encrypt, hmine]
    dsimp only
    rw [hsealed]
    refine ⟨sealed, _, rfl, rfl, hn ▸ hlength, ?_⟩
    intro peer' hsame arrived htype hid hdata
    rcases hsame with ⟨h, _⟩ | ⟨k, k', h, hpeer', hsame⟩
    · rw [hpeer] at h
      cases h
    · obtain rfl : c' = k := Option.some.inj (hpeer.symm.trans h)
      obtain ⟨rest, honReceive⟩ := hunderstood k' hsame arrived htype hid hdata
      rw [decrypt, hpeer']
      dsimp only
      rw [honReceive]
      exact ⟨_, _, rfl, rfl, rfl, rfl, rfl⟩

/-! ## All layers -/

/-- **The way in undoes the way out.**  Whatever is enqueued leaves enough room.  A packet with
enough room is transmitted, and what is kept of it for sending it again arrives as the packet it
was, at the connection it is for; also if the peer's identifier has become known in the meantime,
and whatever the peer has learned. -/
theorem pipeline (hkeys : Matches C e peer) (packet : Packet) (now : Timepoint)
    (address : Option Address) :
    (packet.data.length ≤ maxPacketPostFrameSize →
      (∀ c, e.crypto = some c → c.canSend = true ∧ IsPlain packet) →
      e.packedSize packet ≤ maxPacketSize) ∧
    (e.packedSize packet ≤ maxPacketSize → e.Typed packet →
      ∃ sealed e', e.send C now packet address = (sealed, e') ∧
        e'.transmitted = e.transmitted ++ [e.wire sealed address] ∧
        ∀ later peer' : Endpoint, later.id = e.id → (later.remoteID = 0 → e.remoteID = 0) →
          SamePeer peer peer' → ∀ now' address',
            (later.send_ now' sealed address').transmitted =
              later.transmitted ++ [later.wire sealed address'] ∧
            (later.wire sealed address').packet.data.length ≤ maxPacketSize ∧
            (∀ rest, ∃ opened,
              peer'.unpack C { (later.wire sealed address').packet with rest := rest } =
                some (later.lookUp, opened) ∧
              opened.header.type = packet.header.type ∧ opened.header.id = packet.header.id ∧
              opened.data = packet.data) ∧
            ∀ (s : Socket) k, e.id ≠ 0 → s.connections[e.id]? = some k →
              (later.remoteID ≠ 0 → s.receiveConnections[later.remoteID]? = some k) →
              s.findConnection later.lookUp = some k) := by
  refine ⟨packedSize_le, fun hfits htyped => ?_⟩
  rw [packedSize] at hfits
  generalize hn : (match e.crypto with
    | none => packet.data.length + optionsSize packet.header.type
    | some crypto => crypto.sealedSize packet.header.type
        (packet.data.length + optionsSize packet.header.type)) = n at hfits
  have hsealed : n ≤ maxPacketSize := by
    split at hfits <;> omega
  have hroom : packet.data.length + optionsSize packet.header.type ≤ n := by
    rw [← hn]
    split
    · exact le_rfl
    next c _ =>
      exact le_trans (Nat.le_add_right _ _) (ConnectionCrypto.le_sealedSize c _ _)
  obtain ⟨pushed, honSend, hheader, hpushed, honReceive⟩ :=
    onReceive_onSend e.options (hroom.trans hsealed)
  rw [← hpushed, ← hheader] at hn
  obtain ⟨sealed, e', hencrypt, hsame, hlength, hdecrypt⟩ :=
    decrypt_encrypt hkeys (by rw [Typed, hheader]; exact htyped) hn.symm hsealed
  have hsend : e.send C now packet address = (sealed, e'.send_ now sealed address) := by
    rw [send, honSend]
    dsimp only
    rw [hencrypt]
  refine ⟨sealed, _, hsend, ?_, ?_⟩
  · rw [send_, hsame]
    rfl
  · intro later peer' hid hremote hpeer now' address'
    have hfits' : (if later.remoteID = 0 then n + 16 else n) ≤ maxPacketSize := by
      by_cases hzero : later.remoteID = 0
      · rw [if_pos (hremote hzero)] at hfits
        rwa [if_pos hzero]
      · rwa [if_neg hzero]
    refine ⟨rfl, (getLookUp_wire hlength hfits' address' []).1, fun rest => ?_, ?_⟩
    · obtain ⟨_, arrived, hlookup, harrived, hdata⟩ := getLookUp_wire hlength hfits' address' rest
      obtain ⟨opened, peer'', hopen, _, htype, hid', hopened⟩ := hdecrypt peer' hpeer arrived
        (by rw [harrived]) (by rw [harrived]) hdata
      obtain ⟨final, options, hfinal, hfinalHeader, hfinalData⟩ :=
        honReceive peer''.options opened htype hopened
      rw [unpack, hlookup]
      dsimp only
      rw [hopen]
      dsimp only
      rw [hfinal]
      refine ⟨final, rfl, ?_, ?_, hfinalData⟩
      · rw [hfinalHeader, htype, hheader]
      · rw [hfinalHeader, hid', hheader]
    · intro s k hnull hlong hshort
      rw [← hid] at hnull hlong
      exact findConnection_lookUp hnull hlong hshort

/-! ## With room and without -/

/-- As many bytes as are ever enqueued for one packet. -/
def full : Packet :=
  { header := { type := TypeID.dataReliable, id := 1 }
    data := List.replicate maxPacketPostFrameSize 0 }

/-- A side with some knowledge of the keys of the peer. -/
def knowing (publicKey : Option Bytes) (sessionKey : Option AESKey) : Endpoint :=
  Endpoint.fresh
    (some { ConnectionCrypto.numbered 1 with
      remotePublicKey := publicKey
      remoteSessionKey := sessionKey }) 5 3 1 Connection.immediate

/-- The peer. -/
def known : Endpoint := Endpoint.fresh (some (.numbered 2)) 5 7 2 Connection.immediate

theorem matches_knowing (publicKey : Option Bytes) (sessionKey : Option AESKey)
    (hpublic : ∀ key, publicKey = some key → key = leBytes 1 2)
    (hsession : ∀ key, sessionKey = some key → key = 2) :
    Matches .marking (knowing publicKey sessionKey) known := by
  refine .inr ⟨_, _, rfl, rfl, ⟨Cipher.lawful_marking, ?_, ?_⟩, ⟨hpublic, hsession⟩⟩
  · exact Cipher.pairs_marking (by simp [ConnectionCrypto.numbered, rsaKeySize]) _
  · exact Cipher.pairs_marking (by simp [ConnectionCrypto.numbered, rsaKeySize]) _

/-- With the session key, a full packet arrives, also if it is first sent under the long identifier
and sent again under the short one. -/
theorem pipeline_full : ∃ sealed e' opened,
    (knowing none (some 2)).send .marking 0 full none = (sealed, e') ∧
      known.unpack .marking
        ({ knowing none (some 2) with remoteID := 7 }.toConnection.wire sealed none).packet =
          some ({ shortID := 7 }, opened) ∧
      opened.data = full.data := by
  obtain ⟨hroom, hpacked⟩ :=
    pipeline (matches_knowing none (some 2) (by simp) (by simp)) full 0 none
  obtain ⟨sealed, e', hsend, _, hlater⟩ := hpacked
    (hroom (by simp [full]) (by rintro c ⟨⟩; exact ⟨rfl, by rw [IsPlain]; decide⟩))
    (by rintro c ⟨⟩ hnone; cases hnone)
  obtain ⟨_, _, hopen, _⟩ := hlater { knowing none (some 2) with remoteID := 7 } known rfl
    (by simp) (.inr ⟨_, _, rfl, rfl, rfl, rfl, rfl⟩) 0 none
  obtain ⟨opened, hunpack, _, _, hdata⟩ := hopen _
  exact ⟨sealed, e', opened, hsend, hunpack, hdata⟩

/-- With the public key only, a full packet is discarded. -/
theorem packet_discarded :
    Matches .marking (knowing (some (leBytes 1 2)) none) known ∧
      full.data.length ≤ maxPacketPostFrameSize ∧
      ((knowing (some (leBytes 1 2)) none).send .marking 0 full none).2.transmitted = [] :=
  ⟨matches_knowing _ _ (by simp) (by simp), by decide +kernel, by decide +kernel⟩

end Endpoint
end MrUDP
