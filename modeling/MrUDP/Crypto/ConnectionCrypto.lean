import MrUDP.Connection.Connection
import MrUDP.Crypto.Cipher

/-!
# The encryption of a connection

`mrudp/Crypto.cpp`.  The first handshake packet of each side carries the side's public key,
the second one its session key.  A packet is encrypted with the peer's session key, or else
with the peer's public key, or, as long as neither is known, not at all.

## Main definitions

* `HostCrypto`, `ConnectionCrypto`: the keys.
* `ConnectionCrypto.onSend`, `ConnectionCrypto.onReceive`.
* `ConnectionCrypto.sealedSize`: how long a packet becomes.
* `ConnectionCrypto.onReceive_onSend`: a side that knows the peer's keys is understood.
-/

namespace MrUDP
open Wire

/-- `HostCrypto`.  The random source is the numbers it gives. -/
structure HostCrypto where
  random : ℕ → Draw
  privateKey : Bytes
  publicKey : Bytes

/-- `ConnectionCrypto`, and the `signer` of the connection's `NetworkPath`.  `drawn` counts the
packets that random numbers were drawn for. -/
structure ConnectionCrypto where
  host : HostCrypto
  localSessionKey : AESKey
  signer : SHAKey
  remotePublicKey : Option Bytes := none
  remoteSessionKey : Option AESKey := none
  drawn : ℕ := 0

namespace ConnectionCrypto

/-- `ConnectionCrypto::canSend`. -/
def canSend (c : ConnectionCrypto) : Bool := c.remoteSessionKey.isSome

/-! ## Receiving -/

/-- The first half of `ConnectionCrypto::onReceive`. -/
def decrypt (C : Cipher) (c : ConnectionCrypto) (packet : Packet) : Option Packet :=
  if packet.header.type = TypeID.encryptedViaPublicKey then
    RSAKey.decrypt C c.host.privateKey packet
  else if packet.header.type = TypeID.encryptedViaAES then
    AESKey.decrypt C c.localSessionKey packet
  else some packet

/-- The second half of `ConnectionCrypto::onReceive`: the key a handshake packet carries is
taken off, and kept if it is the first one. -/
def learn (C : Cipher) (c : ConnectionCrypto) (packet : Packet) :
    Option (Packet × ConnectionCrypto) :=
  if packet.header.type = TypeID.h0 ∨ packet.header.type = TypeID.h1 then
    match popSizedData packet with
    | (none, _) => none
    | (some key, packet) =>
        if C.d2iPublicKey key then
          some (packet, { c with remotePublicKey := c.remotePublicKey.or (some key) })
        else none
  else if packet.header.type = TypeID.h2 ∨ packet.header.type = TypeID.h3 then
    match popData packet 32 with
    | none => none
    | some (key, packet) =>
        some (packet, { c with
          remoteSessionKey := c.remoteSessionKey.or (some (BitVec.ofNat 256 (leNat key))) })
  else some (packet, c)

/-- `ConnectionCrypto::onReceive`. -/
def onReceive (C : Cipher) (c : ConnectionCrypto) (packet : Packet) :
    PacketDiscard × Packet × ConnectionCrypto :=
  match c.decrypt C packet with
  | none => (.discard, packet, c)
  | some packet =>
      match c.learn C packet with
      | none => (.discard, packet, c)
      | some (packet, c) => (.keep, packet, c)

/-! ## Sending -/

/-- The first half of `ConnectionCrypto::onSend`: the key a handshake packet carries. -/
def teach (c : ConnectionCrypto) (packet : Packet) : Bool × Packet :=
  if packet.header.type = TypeID.h0 ∨ packet.header.type = TypeID.h1 then
    pushSizedData packet c.host.publicKey
  else if packet.header.type = TypeID.h2 ∨ packet.header.type = TypeID.h3 then
    pushValue packet (leBytes 32 c.localSessionKey.toNat)
  else (true, packet)

/-- The second half of `ConnectionCrypto::onSend`. -/
def encrypt (C : Cipher) (c : ConnectionCrypto) (packet : Packet) : Except Fault (Bool × Packet) :=
  let draw := c.host.random c.drawn
  match c.remoteSessionKey, c.remotePublicKey with
  | some key, _ =>
      match AESKey.encrypt C key packet maxPacketPostCryptoSize draw with
      | .error fault => .error fault
      | .ok packet => .ok (true, packet)
  | none, some key => RSAKey.encrypt C key packet maxPacketPostCryptoSize draw
  | none, none => .ok (true, packet)

/-- `ConnectionCrypto::onSend`.  The packet is changed in place, also if it is discarded. -/
def onSend (C : Cipher) (c : ConnectionCrypto) (packet : Packet) :
    Except Fault (PacketDiscard × Packet) :=
  match c.teach packet with
  | (false, packet) => .ok (.discard, packet)
  | (true, packet) =>
      match c.encrypt C packet with
      | .error fault => .error fault
      | .ok (false, packet) => .ok (.discard, packet)
      | .ok (true, packet) => .ok (.keep, packet)

/-! ## What is learned -/

/-- The keys of a side, which nothing changes. -/
structure SameKeys (c c' : ConnectionCrypto) : Prop where
  host : c'.host = c.host
  localSessionKey : c'.localSessionKey = c.localSessionKey
  signer : c'.signer = c.signer

/-- A side after a handshake packet of the peer, or any other packet. -/
def meet (c peer : ConnectionCrypto) (type : TypeID) : ConnectionCrypto :=
  if type = TypeID.h0 ∨ type = TypeID.h1 then
    { c with remotePublicKey := c.remotePublicKey.or (some peer.host.publicKey) }
  else if type = TypeID.h2 ∨ type = TypeID.h3 then
    { c with remoteSessionKey := c.remoteSessionKey.or (some peer.localSessionKey) }
  else c

/-- What a side knows of its peer is right. -/
structure Knows (c peer : ConnectionCrypto) : Prop where
  publicKey : ∀ key, c.remotePublicKey = some key → key = peer.host.publicKey
  sessionKey : ∀ key, c.remoteSessionKey = some key → key = peer.localSessionKey

/-! ## Sizes -/

/-- The length of the key a handshake packet carries. -/
def tagSize (c : ConnectionCrypto) (type : TypeID) : ℕ :=
  if type = TypeID.h0 ∨ type = TypeID.h1 then c.host.publicKey.length + 2
  else if type = TypeID.h2 ∨ type = TypeID.h3 then 32
  else 0

/-- A bound on the length of a packet once it is encrypted. -/
def sealedSize (c : ConnectionCrypto) (type : TypeID) (n : ℕ) : ℕ :=
  match c.remoteSessionKey, c.remotePublicKey with
  | some _, _ => aesSize (n + c.tagSize type)
  | none, some _ => rsaSize (n + c.tagSize type)
  | none, none => n + c.tagSize type

theorem le_sealedSize (c : ConnectionCrypto) (type : TypeID) (n : ℕ) :
    n + c.tagSize type ≤ c.sealedSize type n := by
  rw [sealedSize]
  split
  · rw [aesSize]
    omega
  · rw [rsaSize, aesSize]
    omega
  · exact le_rfl

/-! ## Sides that know each other's keys understand each other -/

variable {C : Cipher} {c peer : ConnectionCrypto}

/-- The bytes of the key a handshake packet carries. -/
def tag (c : ConnectionCrypto) (type : TypeID) : Bytes :=
  if type = TypeID.h0 ∨ type = TypeID.h1 then
    c.host.publicKey ++ leBytes 2 c.host.publicKey.length
  else if type = TypeID.h2 ∨ type = TypeID.h3 then leBytes 32 c.localSessionKey.toNat
  else []

theorem length_tag (c : ConnectionCrypto) (type : TypeID) :
    (c.tag type).length = c.tagSize type := by
  rw [tag, tagSize]
  split
  · simp
  · split
    · simp
    · rfl

theorem teach_eq {packet : Packet}
    (h : packet.data.length + c.tagSize packet.header.type ≤ maxPacketSize) :
    ∃ rest, c.teach packet =
      (true, { packet with data := packet.data ++ c.tag packet.header.type, rest := rest }) := by
  rw [← length_tag] at h
  simp only [teach, tag] at *
  split
  next htype =>
    rw [if_pos htype] at h
    obtain ⟨rest, hpush⟩ := @pushSizedData_of_fits packet c.host.publicKey
      (by simpa [add_assoc] using h)
    exact ⟨rest, by rw [hpush, List.append_assoc]⟩
  next htype =>
    rw [if_neg htype] at h
    split
    next htype' =>
      rw [if_pos htype'] at h
      exact ⟨_, by rw [pushValue, pushData_of_fits h]⟩
    · exact ⟨packet.rest, by simp⟩

/-- The peer takes the key off again. -/
theorem learn_tag (hpeer : C.d2iPublicKey peer.host.publicKey = true)
    (hlength : peer.host.publicKey.length < 2 ^ 16) (c : ConnectionCrypto) (packet : Packet)
    {data : Bytes} (hdata : packet.data = data ++ peer.tag packet.header.type) :
    ∃ rest, c.learn C packet =
      some ({ packet with data := data, rest := rest }, c.meet peer packet.header.type) := by
  rw [learn, meet]
  rw [tag] at hdata
  split
  next htype =>
    rw [if_pos htype, ← List.append_assoc] at hdata
    obtain ⟨rest, hpop⟩ := popSizedData_append packet data _ hdata hlength
    rw [hpop]
    dsimp only
    rw [if_pos hpeer]
    exact ⟨rest, rfl⟩
  next htype =>
    rw [if_neg htype] at hdata
    split
    next htype' =>
      rw [if_pos htype'] at hdata
      have hpop := popData_append packet data _ hdata
      rw [length_leBytes] at hpop
      rw [hpop]
      dsimp only
      rw [ofNat_leNat_leBytes peer.localSessionKey (by norm_num)]
      exact ⟨_, rfl⟩
    next htype' =>
      rw [if_neg htype', List.append_nil] at hdata
      exact ⟨packet.rest, by rw [← hdata]⟩

/-- What was sent as one packet arrives as another: the peer keeps it and reads what was sent,
whatever it has learned in the meantime and whatever the rest of the packet. -/
def Understood (C : Cipher) (c peer : ConnectionCrypto) (packet sealed : Packet) : Prop :=
  ∀ peer', SameKeys peer peer' → ∀ arrived : Packet,
    arrived.header.type = sealed.header.type → arrived.header.id = sealed.header.id →
    arrived.data = sealed.data →
    ∃ rest, peer'.onReceive C arrived =
      (.keep,
        { arrived with
          header := { arrived.header with type := packet.header.type, id := packet.header.id }
          data := packet.data
          rest := rest },
        peer'.meet c packet.header.type)

theorem onReceive_of_decrypt (hmine : C.Pairs c.host.publicKey c.host.privateKey)
    {arrived packet : Packet} {rest : Bytes}
    (h : peer.decrypt C arrived = some { arrived with
      header := { arrived.header with type := packet.header.type, id := packet.header.id }
      data := packet.data ++ c.tag packet.header.type
      rest := rest }) :
    ∃ rest, peer.onReceive C arrived =
      (.keep,
        { arrived with
          header := { arrived.header with type := packet.header.type, id := packet.header.id }
          data := packet.data
          rest := rest },
        peer.meet c packet.header.type) := by
  have hlength : c.host.publicKey.length < 2 ^ 16 :=
    lt_of_le_of_lt hmine.length_publicKey (by norm_num [rsaKeySize])
  rw [onReceive, h]
  dsimp only
  obtain ⟨rest, hlearn⟩ := learn_tag hmine.valid hlength peer
    { arrived with
      header := { arrived.header with type := packet.header.type, id := packet.header.id }
      data := packet.data ++ c.tag packet.header.type
      rest := rest } rfl
  rw [hlearn]
  exact ⟨rest, rfl⟩

/-- **A packet is understood**, if what the sender knows of the keys is right and the packet
leaves room for the trailers. -/
theorem exists_onSend (hC : C.Lawful) (hmine : C.Pairs c.host.publicKey c.host.privateKey)
    (hpeer : C.Pairs peer.host.publicKey peer.host.privateKey) (hknows : c.Knows peer)
    {packet : Packet}
    (hfits : c.sealedSize packet.header.type packet.data.length ≤ maxPacketSize)
    (hplain : c.remoteSessionKey = none → c.remotePublicKey = none →
      packet.header.type ≠ TypeID.encryptedViaAES ∧
        packet.header.type ≠ TypeID.encryptedViaPublicKey) :
    ∃ sealed, c.onSend C packet = .ok (.keep, sealed) ∧
      sealed.header.connection = packet.header.connection ∧
      sealed.data.length ≤ c.sealedSize packet.header.type packet.data.length ∧
      Understood C c peer packet sealed := by
  have hroom : packet.data.length + c.tagSize packet.header.type ≤ maxPacketSize := by
    have hle := le_sealedSize c packet.header.type packet.data.length
    omega
  obtain ⟨rest, hteach⟩ := teach_eq hroom
  have hlength : (packet.data ++ c.tag packet.header.type).length =
      packet.data.length + c.tagSize packet.header.type := by
    rw [List.length_append, length_tag]
  rw [onSend, hteach]
  dsimp only
  cases hsession : c.remoteSessionKey with
  | some key =>
      rw [sealedSize, hsession] at hfits
      obtain ⟨rest', hencrypt⟩ := AESKey.encrypt_eq hC key
        { packet with data := packet.data ++ c.tag packet.header.type, rest := rest }
        maxPacketPostCryptoSize (by rwa [hlength])
        (by
          rw [hlength]
          simp only [aesSize, maxPacketSize, maxPacketPostCryptoSize, maxRouteSize] at *
          omega)
        le_rfl (c.host.random c.drawn)
      simp only [encrypt, hsession, hencrypt]
      refine ⟨_, rfl, rfl, ?_, ?_⟩
      · rw [sealedSize, hsession, ← hlength]
        exact AESKey.length_sealed hC _ _ _ _
      · intro peer' hsame arrived htype _ hdata
        have hkey : peer'.localSessionKey = key := by
          rw [hsame.localSessionKey, hknows.sessionKey key hsession]
        rw [← hkey] at hdata
        obtain ⟨rest'', hdecrypt⟩ := AESKey.decrypt_sealed hC hdata
        apply onReceive_of_decrypt hmine
        have hne : arrived.header.type ≠ TypeID.encryptedViaPublicKey := by
          rw [htype]
          exact (by decide : TypeID.encryptedViaAES ≠ TypeID.encryptedViaPublicKey)
        rw [decrypt, if_neg hne, if_pos htype]
        exact hdecrypt
  | none =>
      cases hpublic : c.remotePublicKey with
      | some key =>
          rw [sealedSize, hsession, hpublic] at hfits
          rw [← hknows.publicKey key hpublic] at hpeer
          obtain ⟨encryptedAESKey, rest', hsize, hrsa, hencrypt⟩ := RSAKey.encrypt_eq hC hpeer
            { packet with data := packet.data ++ c.tag packet.header.type, rest := rest }
            (by rwa [hlength]) (c.host.random c.drawn)
          simp only [encrypt, hsession, hpublic, hencrypt]
          refine ⟨_, rfl, rfl, ?_, ?_⟩
          · rw [sealedSize, hsession, hpublic, ← hlength, rsaSize, ← hsize]
            exact RSAKey.length_sealed hC _ _ _ _ _
          · intro peer' hsame arrived htype _ hdata
            rw [← hsame.host] at hrsa
            obtain ⟨rest'', hdecrypt⟩ := RSAKey.decrypt_sealed hC hsize hrsa hdata
            apply onReceive_of_decrypt hmine
            rw [decrypt, if_pos htype]
            exact hdecrypt
      | none =>
          obtain ⟨haes, hrsa⟩ := hplain hsession hpublic
          simp only [encrypt, hsession, hpublic]
          refine ⟨_, rfl, rfl, ?_, ?_⟩
          · rw [hlength, sealedSize, hsession, hpublic]
          · intro peer' _ arrived htype hid hdata
            have hsame : arrived = { arrived with
                header := { arrived.header with
                  type := packet.header.type
                  id := packet.header.id }
                data := packet.data ++ c.tag packet.header.type
                rest := arrived.rest } := by
              dsimp only at htype hid hdata
              rw [← hdata, ← htype, ← hid]
            apply onReceive_of_decrypt hmine
            rw [decrypt, if_neg (by rw [htype]; exact hrsa), if_neg (by rw [htype]; exact haes)]
            exact congrArg some hsame

/-- The keys of a side before the handshake, for runs: every key is the number. -/
def numbered (n : ℕ) : ConnectionCrypto where
  host := { random := fun k => ⟨k, k, k, 0⟩, privateKey := leBytes 1 n, publicKey := leBytes 1 n }
  localSessionKey := n
  signer := n

end ConnectionCrypto
end MrUDP
