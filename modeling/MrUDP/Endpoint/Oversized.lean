import MrUDP.Endpoint.Endpoint
import MrUDP.PacketStack

/-!
# Packets that are too long to be encrypted

`encrypt_` with an AES key appends the identifier and the type of a packet, lets the cipher pad the
packet to full blocks, and appends the initialization vector.  It does not look at the room that is
left: the `pushData` of a value reports success whatever happens, and the cipher writes as much as
it has.  Up to 1452 bytes a packet is decrypted to what it was.  Longer ones are sent without the
vector, or written past the end of the data area, and with 1495 bytes the room for the padding is
zero, which a random number is divided by.

The packets of the send queue are shorter.  But `NetworkPath::sendChallengeResponse` sends back
whatever a challenge holds, and a challenge need not be encrypted.

## Main definitions

* `Cipher.Invertible`: the block cipher as an invertible map, with its padding.
* `AESKey.Preserves`: a packet is encrypted, fits, and is decrypted to what it was.
* `NetworkPath.response`: what a challenge is answered with.
-/

namespace MrUDP
open Wire
open Connection (Reactions)

/-! ## The block cipher -/

/-- The block cipher is an invertible map.  It adds one to sixteen bytes, up to a full block, and
what it decrypts is what it encrypted. -/
structure Cipher.Invertible (C : Cipher) : Prop where
  length_aesEncrypt : ∀ key iv data,
    (C.aesEncrypt key iv data).length = data.length / 16 * 16 + 16
  aesDecrypt_eq_some : ∀ key iv encrypted data,
    C.aesDecrypt key iv encrypted = some data ↔ C.aesEncrypt key iv data = encrypted

variable {C : Cipher}

theorem Cipher.Invertible.lawful (hC : C.Invertible) : C.Lawful where
  length_aesEncrypt key iv data := (hC.length_aesEncrypt key iv data).le
  aesDecrypt_aesEncrypt key iv data := (hC.aesDecrypt_eq_some key iv _ data).mpr rfl

namespace Cipher

/-- The padding of PKCS #7: every byte of it is its length. -/
def pad (data : Bytes) : Bytes :=
  data ++ List.replicate (16 - data.length % 16) (UInt8.ofNat (16 - data.length % 16))

/-- A cipher that only pads. -/
def padding : Cipher :=
  { marking with
    aesEncrypt := fun _ _ data => pad data
    aesDecrypt := fun _ _ encrypted =>
      let data := encrypted.take (encrypted.length - (encrypted.getLastD 0).toNat)
      if pad data = encrypted then some data else none }

/-- The last byte of the padding says where the data ends. -/
theorem take_pad (data : Bytes) :
    (pad data).take ((pad data).length - ((pad data).getLastD 0).toNat) = data := by
  obtain ⟨k, hk⟩ : ∃ k, 16 - data.length % 16 = k + 1 := ⟨15 - data.length % 16, by omega⟩
  have hlast : (pad data).getLastD 0 = UInt8.ofNat (k + 1) := by
    rw [pad, hk, List.replicate_succ', ← List.append_assoc, List.getLastD_concat]
  have htoNat : (UInt8.ofNat (k + 1)).toNat = k + 1 := by
    rw [UInt8.toNat_ofNat']
    omega
  rw [hlast, htoNat, pad, hk, List.length_append, List.length_replicate, Nat.add_sub_cancel,
    List.take_left]

theorem invertible_padding : padding.Invertible where
  length_aesEncrypt key iv data := by
    simp only [padding, pad, List.length_append, List.length_replicate]
    omega
  aesDecrypt_eq_some key iv encrypted data := by
    simp only [padding]
    constructor
    · intro h
      split at h
      next hpad =>
        cases h
        exact hpad
      next => cases h
    · rintro rfl
      rw [take_pad, if_pos rfl]

end Cipher

/-! ## Decryption -/

theorem length_popData {packet packet' : Packet} {size : ℕ} {data : Bytes}
    (h : popData packet size = some (data, packet')) :
    packet.data.length = packet'.data.length + size := by
  obtain ⟨hdata, hsize⟩ := data_popData h
  rw [hdata, List.length_append, hsize]

namespace AESKey

variable {packet : Packet}

/-- What is decrypted had room for all the trailers. -/
theorem length_of_decrypt (hC : C.Invertible) {key : AESKey} {opened : Packet}
    (h : AESKey.decrypt C key packet = some opened) :
    packet.data.length = aesSize opened.data.length := by
  simp only [AESKey.decrypt, Option.bind_eq_bind, Option.bind_eq_some_iff] at h
  obtain ⟨⟨iv, packet₁⟩, hiv, data, hdata, ⟨type, packet₂⟩, htype, ⟨id, packet₃⟩, hid, h⟩ := h
  cases h
  have hencrypted := hC.length_aesEncrypt key (BitVec.ofNat 256 (leNat iv)) data
  rw [(hC.aesDecrypt_eq_some _ _ _ _).mp hdata] at hencrypted
  have hlength := length_popData hiv
  have hlength₁ : data.length = packet₂.data.length + 1 := length_popData htype
  have hlength₂ := length_popData hid
  simp only [aesSize] at *
  omega

/-- Encryption with a key preserves a packet: it has a defined behaviour, what it makes of the
packet fits, and decryption gives the identifier, the type and the data back.  `encrypt_` returns
false only if the library fails. -/
def Preserves (C : Cipher) (key : AESKey) (packet : Packet) (draw : Draw) : Prop :=
  ∃ sealed, AESKey.encrypt C key packet maxPacketPostCryptoSize draw = .ok sealed ∧
    sealed.data.length ≤ maxPacketSize ∧
    ∃ opened, AESKey.decrypt C key sealed = some opened ∧
      opened.header.id = packet.header.id ∧ opened.header.type = packet.header.type ∧
      opened.data = packet.data

/-- The bytes that encryption leaves room for. -/
def maxPlainSize : ℕ := 1452

theorem aesSize_le_iff {n : ℕ} : aesSize n ≤ maxPacketSize ↔ n ≤ maxPlainSize := by
  simp only [aesSize, maxPacketSize, maxPlainSize]
  omega

theorem preserves_of_le (hC : C.Lawful) (key : AESKey) (h : packet.data.length ≤ maxPlainSize)
    (draw : Draw) : Preserves C key packet draw := by
  have hfits := aesSize_le_iff.mpr h
  have hroom : (packet.data.length : ℤ) + 5 < maxPacketPostCryptoSize := by
    simp only [maxPlainSize] at h
    simp only [maxPacketPostCryptoSize, maxPacketSize, maxRouteSize]
    omega
  obtain ⟨rest, hencrypt⟩ := AESKey.encrypt_eq hC key packet maxPacketPostCryptoSize hfits hroom
    le_rfl draw
  refine ⟨_, hencrypt, (AESKey.length_sealed hC key draw.iv packet.header packet.data).trans hfits,
    ?_⟩
  obtain ⟨rest', hdecrypt⟩ := @AESKey.decrypt_sealed C hC key
    { packet with
      header := { packet.header with id := 0, type := TypeID.encryptedViaAES }
      data := AESKey.sealed C key draw.iv packet.header packet.data
      rest := rest } draw.iv packet.header packet.data rfl
  exact ⟨_, hdecrypt, rfl, rfl, rfl⟩

/-- A packet that survives fitted, with its trailers, into the data area. -/
theorem le_of_preserves (hC : C.Invertible) {key : AESKey} {draw : Draw}
    (h : Preserves C key packet draw) : packet.data.length ≤ maxPlainSize := by
  obtain ⟨sealed, -, hfits, opened, hdecrypt, -, -, hdata⟩ := h
  rw [length_of_decrypt hC hdecrypt, hdata] at hfits
  exact aesSize_le_iff.mp hfits

/-! ## What happens to longer packets -/

/-- The packet `encrypt_` gives to the cipher. -/
def plain (packet : Packet) : Packet :=
  let (_, packet) := pushValue packet (leBytes 2 packet.header.id.toNat)
  let (_, packet) := pushValue packet [packet.header.type]
  { packet with header := { packet.header with id := 0, type := TypeID.encryptedViaAES } }

theorem encrypt_plain (key : AESKey) (packet : Packet) (maxPadTo : ℤ) (draw : Draw) :
    AESKey.encrypt C key packet maxPadTo draw =
      match calculatePadding (plain packet) maxPadTo draw.padding with
      | .error fault => .error fault
      | .ok _ =>
          if maxPacketSize < (C.aesEncrypt key draw.iv (plain packet).data).length then
            .error .overrun
          else .ok (pushValue ((plain packet).write
            (C.aesEncrypt key draw.iv (plain packet).data)) (leBytes 32 draw.iv.toNat)).2 := rfl

/-- A value is appended whole or not at all. -/
theorem length_pushValue {t : Bytes} (hsize : t.length ≤ maxPacketSize) :
    (pushValue packet t).2.data.length =
      if packet.data.length + t.length ≤ maxPacketSize then packet.data.length + t.length
      else packet.data.length := by
  split
  next hfits => rw [pushValue_of_fits hfits, List.length_append]
  next hfull => rw [pushValue, PacketStack.pushData_of_not_fits hsize (not_le.mp hfull)]

/-- The trailers that fit fill the packet. -/
theorem length_plain (h : packet.data.length ≤ maxPacketSize) :
    (plain packet).data.length = min (packet.data.length + 3) maxPacketSize := by
  have hid := @length_pushValue packet (leBytes 2 packet.header.id.toNat)
    (by rw [length_leBytes]; decide)
  have htype := @length_pushValue (pushValue packet (leBytes 2 packet.header.id.toNat)).2
    [(pushValue packet (leBytes 2 packet.header.id.toNat)).2.header.type]
    (by rw [List.length_singleton]; decide)
  rw [length_leBytes] at hid
  rw [List.length_singleton, hid] at htype
  exact htype.trans (by split_ifs <;> omega)

/-- Encryption divides by the room that is left for a padding, which can be zero. -/
theorem room_eq_zero_iff {n : ℕ} (h : n ≤ maxPacketSize) :
    (((maxPacketPostCryptoSize : ℤ) - 2 - n) % 2 ^ 64).toNat = 0 ↔ n = 1498 := by
  have hsize : (maxPacketPostCryptoSize : ℤ) = 1500 := rfl
  simp only [maxPacketSize] at h
  rw [hsize]
  omega

/-- **What happens to a packet that is longer.**  The cipher writes past the data area, unless the
random number is divided by zero before. -/
theorem encrypt_of_long (hC : C.Invertible) (key : AESKey)
    (hsize : packet.data.length ≤ maxPacketSize) (hlong : 1485 ≤ packet.data.length) (draw : Draw) :
    AESKey.encrypt C key packet maxPacketPostCryptoSize draw =
      .error (if packet.data.length = 1495 then .divisionByZero else .overrun) := by
  have hlength := length_plain hsize
  have hroom := room_eq_zero_iff (hlength.le.trans (min_le_right _ _))
  have hencrypted := hC.length_aesEncrypt key draw.iv (plain packet).data
  simp only [maxPacketSize] at hsize hlength
  rw [encrypt_plain, calculatePadding]
  by_cases hzero : packet.data.length = 1495
  · rw [if_pos hzero, if_pos (hroom.mpr (by omega))]
  · rw [if_neg hzero, if_neg (mt hroom.mp (by omega))]
    dsimp only
    rw [if_pos (by simp only [maxPacketSize]; omega)]

/-- Between the two bounds the vector does not fit, and is left out. -/
theorem encrypt_of_between (hC : C.Invertible) (key : AESKey)
    (hlong : maxPlainSize < packet.data.length) (hshort : packet.data.length < 1485) (draw : Draw) :
    AESKey.encrypt C key packet maxPacketPostCryptoSize draw =
      .ok ((plain packet).write (C.aesEncrypt key draw.iv (plain packet).data)) := by
  have hlength := @length_plain packet (by simp only [maxPacketSize]; omega)
  have hroom := room_eq_zero_iff (hlength.le.trans (min_le_right _ _))
  have hencrypted := hC.length_aesEncrypt key draw.iv (plain packet).data
  simp only [maxPacketSize] at hlength
  simp only [maxPlainSize] at hlong
  have hfull : maxPacketSize < (C.aesEncrypt key draw.iv (plain packet).data).length +
      (leBytes 32 draw.iv.toNat).length := by
    rw [length_leBytes, maxPacketSize]
    omega
  rw [encrypt_plain, calculatePadding, if_neg (mt hroom.mp (by omega))]
  dsimp only
  rw [if_neg (by simp only [maxPacketSize]; omega), pushValue,
    PacketStack.pushData_of_not_fits (by rw [length_leBytes]; decide) hfull]

end AESKey

/-! ## Responses -/

/-- The packet `NetworkPath::sendChallengeResponse` answers a challenge with. -/
def NetworkPath.response (challenge : Packet) : Packet :=
  { header := { type := TypeID.authenticateResponse, id := challenge.header.id }
    data := challenge.data }

/-- With a session key of the peer, a packet that carries no key is encrypted with that one. -/
theorem ConnectionCrypto.onSend_of_sessionKey {c : ConnectionCrypto} {key : AESKey}
    (hkey : c.remoteSessionKey = some key) {packet : Packet}
    (hteach : c.teach packet = (true, packet)) :
    c.onSend C packet =
      match AESKey.encrypt C key packet maxPacketPostCryptoSize (c.host.random c.drawn) with
      | .error fault => .error fault
      | .ok sealed => .ok (.keep, sealed) := by
  rw [ConnectionCrypto.onSend, hteach]
  dsimp only
  rw [ConnectionCrypto.encrypt, hkey]
  dsimp only
  cases AESKey.encrypt C key packet maxPacketPostCryptoSize (c.host.random c.drawn) with
  | error fault => rfl
  | ok sealed => rfl

namespace Endpoint

variable {z : Zlib} {e : Endpoint} {crypto : ConnectionCrypto} {key : AESKey}

/-- What is noted when a packet is encrypted with a session key. -/
def encryption (C : Cipher) (key : AESKey) (packet : Packet) (draw : Draw) : Notification :=
  match AESKey.encrypt C key packet maxPacketPostCryptoSize draw with
  | .error fault => .faulted fault
  | .ok sealed => .encrypted packet sealed

variable {challenge : Packet}

/-- The response to a long challenge. -/
theorem encryption_response_of_long (hC : C.Invertible) (key : AESKey)
    (hsize : challenge.data.length ≤ maxPacketSize) (hlong : 1485 ≤ challenge.data.length)
    (draw : Draw) :
    encryption C key (NetworkPath.response challenge) draw =
      .faulted (if challenge.data.length = 1495 then .divisionByZero else .overrun) := by
  have hfault := @AESKey.encrypt_of_long C (NetworkPath.response challenge) hC key hsize hlong draw
  rw [encryption, hfault]
  rfl

/-- A response is encrypted with the session key of the peer. -/
theorem log_send_response (hcrypto : e.crypto = some crypto)
    (hkey : crypto.remoteSessionKey = some key) (now : Timepoint) (challenge : Packet) :
    (e.send C now (NetworkPath.response challenge)).2.log =
      e.log ++ [encryption C key (NetworkPath.response challenge)
        (crypto.host.random crypto.drawn)] := by
  have honSend : HandshakeOptions.onSend e.options (NetworkPath.response challenge) =
      (.keep, NetworkPath.response challenge) :=
    if_neg (by decide : TypeID.authenticateResponse ≠ TypeID.h3)
  have hteach : crypto.teach (NetworkPath.response challenge) =
      (true, NetworkPath.response challenge) := rfl
  rw [send, honSend]
  dsimp only
  rw [encrypt, hcrypto]
  dsimp only
  rw [ConnectionCrypto.onSend_of_sessionKey hkey hteach, encryption]
  cases AESKey.encrypt C key (NetworkPath.response challenge) maxPacketPostCryptoSize
    (crypto.host.random crypto.drawn) with
  | error fault => rfl
  | ok sealed => rfl

/-- A challenge has no other effect on the layers above the network path. -/
theorem log_accept_challenge (now : Timepoint) (reactions : Reactions) (e : Endpoint)
    (htype : challenge.header.type = TypeID.authenticateChallenge) :
    (e.accept z C now reactions challenge).log = e.log := by
  have hacks : requiresAck challenge.header.type = false := by
    rw [htype]
    decide
  have hcalls : ∀ r : Receiver, r.onReceive z challenge = ([], r) := by
    intro r
    rw [Receiver.onReceive]
    split
    · rfl
    · rw [hacks, if_neg (by rw [htype]; decide), if_neg (by rw [htype]; decide)]
      rfl
  have hreceiver : ∀ (scripts : List (List UserCall)) (e : Endpoint),
      (e.receiverOnReceive z C now scripts challenge).log = e.log := by
    intro scripts e
    rw [receiverOnReceive, hcalls]
    dsimp only
    rw [carryOutAll]
  rw [accept, hreceiver, senderOnReceive, htype, if_neg (by decide), if_neg (by decide),
    handshakeOnReceive, htype, if_neg (by decide)]

/-- **A challenge of any size is sent back.**  It need not be encrypted. -/
theorem log_receive_challenge (hcrypto : e.crypto = some crypto)
    (hkey : crypto.remoteSessionKey = some key)
    (htype : challenge.header.type = TypeID.authenticateChallenge) (now : Timepoint)
    (reactions : Reactions) (path : Address) :
    (e.receive z C now reactions challenge path).log =
      e.log ++ [encryption C key (NetworkPath.response challenge)
        (crypto.host.random crypto.drawn)] := by
  have hdecrypt : e.decrypt C challenge = (.keep, challenge, e) := by
    have honReceive : crypto.onReceive C challenge = (.keep, challenge, crypto) := by
      rw [ConnectionCrypto.onReceive, ConnectionCrypto.decrypt, htype, if_neg (by decide),
        if_neg (by decide)]
      dsimp only
      rw [ConnectionCrypto.learn, htype, if_neg (by decide), if_neg (by decide)]
    rw [decrypt, hcrypto]
    dsimp only
    rw [honReceive, ← hcrypto]
  rw [receive, hdecrypt]
  dsimp only
  rw [HandshakeOptions.onReceive, htype, if_neg (by decide)]
  dsimp only
  rw [networkPathOnReceive, if_pos htype]
  dsimp only
  rw [log_accept_challenge now reactions _ htype]
  exact log_send_response hcrypto hkey now challenge

/-- **Encryption preserves the packets that leave room for the trailers, and no others**; and
packets of every size are encrypted, because a challenge is sent back as it is. -/
theorem encryption_preserves_iff (hC : C.Invertible) :
    (∀ key packet draw, packet.data.length ≤ maxPacketSize →
      (AESKey.Preserves C key packet draw ↔ packet.data.length ≤ AESKey.maxPlainSize)) ∧
    ∀ z now reactions (e : Endpoint) crypto key challenge path, e.crypto = some crypto →
      crypto.remoteSessionKey = some key →
      challenge.header.type = TypeID.authenticateChallenge →
      (e.receive z C now reactions challenge path).log =
        e.log ++ [encryption C key (NetworkPath.response challenge)
          (crypto.host.random crypto.drawn)] := by
  constructor
  · intro key packet draw _
    exact ⟨AESKey.le_of_preserves hC, fun h => AESKey.preserves_of_le hC.lawful key h draw⟩
  · intro z now reactions e crypto key challenge path hcrypto hkey htype
    exact log_receive_challenge hcrypto hkey htype now reactions path

/-- A packet of zeros. -/
def zeros (type : TypeID) (n : ℕ) : Packet :=
  { header := { type := type }, data := List.replicate n 0 }

@[simp] theorem length_zeros (type : TypeID) (n : ℕ) : (zeros type n).data.length = n :=
  List.length_replicate

/-- 1452 bytes are encrypted and decrypted, with a cipher that pads. -/
theorem encryption_preserves_zeros :
    AESKey.Preserves Cipher.padding 0 (zeros TypeID.authenticateResponse 1452) ⟨0, 0, 0, 0⟩ :=
  ((encryption_preserves_iff Cipher.invertible_padding).1 0 _ _
    (by rw [length_zeros]; decide)).mpr (by rw [length_zeros]; decide)

/-- **What encryption makes of longer packets.**  1453 bytes are decrypted to something else or not
at all, 1500 bytes overrun the data area, and 1495 bytes make it divide by zero, also if they are
those of a challenge that a connection with a session key receives. -/
theorem encryption_of_oversized :
    Cipher.padding.Invertible ∧
    (∃ sealed, AESKey.encrypt Cipher.padding 0 (zeros TypeID.authenticateResponse 1453)
        maxPacketPostCryptoSize ⟨0, 0, 0, 0⟩ = .ok sealed ∧
      ∀ opened, AESKey.decrypt Cipher.padding 0 sealed = some opened →
        opened.data ≠ (zeros TypeID.authenticateResponse 1453).data) ∧
    AESKey.encrypt Cipher.padding 0 (zeros TypeID.authenticateResponse 1500)
      maxPacketPostCryptoSize ⟨0, 0, 0, 0⟩ = .error .overrun ∧
    AESKey.encrypt Cipher.padding 0 (zeros TypeID.authenticateResponse 1495)
      maxPacketPostCryptoSize ⟨0, 0, 0, 0⟩ = .error .divisionByZero ∧
    ∀ (z : Zlib) (c : Connection),
      (receive z Cipher.padding 0 {}
        { toConnection := c
          crypto := some
            { host := { random := fun _ => ⟨0, 0, 0, 0⟩, privateKey := [], publicKey := [] }
              localSessionKey := 0, signer := 0, remoteSessionKey := some 0 } }
        (zeros TypeID.authenticateChallenge 1495) 0).log = [.faulted .divisionByZero] := by
  have hC := Cipher.invertible_padding
  refine ⟨hC, ?_, ?_, ?_, fun z c => ?_⟩
  · refine ⟨_, AESKey.encrypt_of_between hC 0 (by rw [length_zeros]; decide)
      (by rw [length_zeros]; decide) _, fun opened hopened hdata => ?_⟩
    -- The lengths differ: there are no 32 bytes of a vector to take off.
    have hlength := AESKey.length_of_decrypt hC hopened
    have hencrypted := hC.length_aesEncrypt 0 (0 : AESIV)
      (AESKey.plain (zeros TypeID.authenticateResponse 1453)).data
    rw [AESKey.length_plain (by rw [length_zeros]; decide), length_zeros] at hencrypted
    rw [hdata, length_zeros] at hlength
    exact absurd (hencrypted.symm.trans hlength) (by decide)
  · rw [AESKey.encrypt_of_long hC 0 (by rw [length_zeros]; decide) (by rw [length_zeros]; decide),
      length_zeros]
    rfl
  · rw [AESKey.encrypt_of_long hC 0 (by rw [length_zeros]; decide) (by rw [length_zeros]; decide),
      length_zeros]
    rfl
  · rw [log_receive_challenge rfl rfl rfl, encryption_response_of_long hC 0
      (by rw [length_zeros]; decide) (by rw [length_zeros]; decide), length_zeros]
    rfl

end Endpoint
end MrUDP
