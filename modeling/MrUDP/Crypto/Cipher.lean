import MrUDP.Packet

/-!
# Encrypting packets

`mrudp/imp/CryptoOpenSSL.cpp`, for the key sizes `mrudp/imp/Crypto.h` chooses: AES and SHA
keys of 256 bits, RSA keys of 1024 bits.

What the OpenSSL library computes is a parameter, a `Cipher`; what is expected of it is
`Cipher.Lawful` and, for a pair of RSA keys, `Cipher.Pairs`; and where strangers matter, that it
is `Cipher.Ideal`.  The random numbers that are drawn
while a packet is encrypted are a `Draw`.  Neither the library nor the random source fails for
want of resources.

Encryption works in place on the data area.  Where it divides by zero or writes past the area,
the program has no defined behaviour: the model returns a `Fault`.

## Main definitions

* `Cipher`, `Draw`, `Fault`.
* `AESKey.encrypt`, `AESKey.decrypt`, `RSAKey.encrypt`, `RSAKey.decrypt`: a packet is encrypted.
* `SHAKey.sign`, `SHAKey.verify`: signatures.
* `AESKey.decrypt_sealed`, `RSAKey.decrypt_sealed`: decryption undoes encryption.
* `AESKey.sealed_of_decrypt`, `RSAKey.sealed_of_decrypt`: an ideal cipher decrypts nothing else.
-/

namespace MrUDP
open Wire

/-! ## The library -/

/-- `AESKeyDefault`. -/
abbrev AESKey := BitVec 256

/-- `AESIVDefault`. -/
abbrev AESIV := BitVec 256

/-- `SHAKeyDefault`. -/
abbrev SHAKey := BitVec 256

/-- The functions of the OpenSSL library: AES in CBC mode, RSA with OAEP padding on an AES
key, the parser of public keys, and the digest.  The number given to `rsaEncrypt` is what the
padding draws. -/
structure Cipher where
  aesEncrypt : AESKey → AESIV → Bytes → Bytes
  aesDecrypt : AESKey → AESIV → Bytes → Option Bytes
  rsaEncrypt : Bytes → ℕ → AESKey → Option Bytes
  rsaDecrypt : Bytes → Bytes → Option AESKey
  d2iPublicKey : Bytes → Bool
  sha256 : Bytes → BitVec 256

/-- The block cipher decrypts what it encrypted, and pads with at most one block to full
blocks. -/
structure Cipher.Lawful (C : Cipher) : Prop where
  length_aesEncrypt : ∀ key iv data,
    (C.aesEncrypt key iv data).length ≤ data.length / 16 * 16 + 16
  aesDecrypt_aesEncrypt : ∀ key iv data,
    C.aesDecrypt key iv (C.aesEncrypt key iv data) = some data

/-- The number of bytes of an RSA key of 1024 bits. -/
def rsaKeySize : ℕ := 128

/-- The keys are a pair: what the public key encrypts is as long as the key, and the private
key decrypts it. -/
structure Cipher.Pairs (C : Cipher) (publicKey privateKey : Bytes) : Prop where
  valid : C.d2iPublicKey publicKey = true
  length_publicKey : publicKey.length ≤ 2 * rsaKeySize
  inverse : ∀ seed key, ∃ encrypted, C.rsaEncrypt publicKey seed key = some encrypted ∧
    encrypted.length = rsaKeySize ∧ C.rsaDecrypt privateKey encrypted = some key

/-- Encryption is ideal: nothing decrypts with a key but what was encrypted with it, or with the
public key it belongs to. -/
structure Cipher.Ideal (C : Cipher) (publicKey privateKey : Bytes) : Prop where
  aes : ∀ {key iv encrypted data}, C.aesDecrypt key iv encrypted = some data →
    encrypted = C.aesEncrypt key iv data
  rsa : ∀ {encrypted key}, C.rsaDecrypt privateKey encrypted = some key →
    ∃ seed, C.rsaEncrypt publicKey seed key = some encrypted

/-- The random numbers that are drawn while a packet is encrypted. -/
structure Draw where
  key : AESKey
  seed : ℕ
  iv : AESIV
  padding : BitVec 16
  deriving DecidableEq, Repr

/-- What has no defined behaviour. -/
inductive Fault
  | divisionByZero
  | overrun
  deriving DecidableEq, Repr

/-! ## AES -/

/-- `calculatePadding`.  The room is computed in `size_t`, and is what the random number is
divided by. -/
def calculatePadding (packet : Packet) (maxPadTo : ℤ) (padding : BitVec 16) :
    Except Fault (BitVec 16) :=
  let room := ((maxPadTo - 2 - packet.data.length) % 2 ^ 64).toNat
  if room = 0 then .error .divisionByZero else .ok (BitVec.ofNat 16 (padding.toNat % room))

/-- Write bytes to the start of the data area, and make them the live ones. -/
def Packet.write (packet : Packet) (bytes : Bytes) : Packet :=
  { packet with data := bytes, rest := (packet.data ++ packet.rest).drop bytes.length }

namespace AESKey

/-- `encrypt_` with an AES key.  `pushPadding` returns at once, so the padding that was
calculated is not used. -/
def encrypt (C : Cipher) (key : AESKey) (packet : Packet) (maxPadTo : ℤ) (draw : Draw) :
    Except Fault Packet :=
  let (_, packet) := pushValue packet (leBytes 2 packet.header.id.toNat)
  let (_, packet) := pushValue packet [packet.header.type]
  let packet :=
    { packet with header := { packet.header with id := 0, type := TypeID.encryptedViaAES } }
  match calculatePadding packet maxPadTo draw.padding with
  | .error fault => .error fault
  | .ok _ =>
      let encrypted := C.aesEncrypt key draw.iv packet.data
      if maxPacketSize < encrypted.length then .error .overrun
      else .ok (pushValue (packet.write encrypted) (leBytes 32 draw.iv.toNat)).2

/-- `decrypt_` with an AES key.  A packet that fails is not used again, so nothing is returned
of it. -/
def decrypt (C : Cipher) (key : AESKey) (packet : Packet) : Option Packet := do
  let (iv, packet) ← popData packet 32
  let decrypted ← C.aesDecrypt key (BitVec.ofNat 256 (leNat iv)) packet.data
  let (type, packet) ← popData (packet.write decrypted) 1
  let (id, packet) ← popData packet 2
  some { packet with
    header := { packet.header with
      type := type.headD TypeID.none
      id := BitVec.ofNat 16 (leNat id) } }

end AESKey

/-! ## RSA -/

namespace RSAKey

/-- `encrypt_` with an RSA key: the packet is encrypted with an AES key that is drawn, and
carries that key encrypted.  When there is no room for it, the packet is left encrypted. -/
def encrypt (C : Cipher) (publicKey : Bytes) (packet : Packet) (maxPadTo : ℤ) (draw : Draw) :
    Except Fault (Bool × Packet) :=
  match C.rsaEncrypt publicKey draw.seed draw.key with
  | none => .ok (false, packet)
  | some encryptedAESKey =>
      match AESKey.encrypt C draw.key packet (maxPadTo - (encryptedAESKey.length + 2)) draw with
      | .error fault => .error fault
      | .ok packet =>
          match pushSizedData packet encryptedAESKey with
          | (false, packet) => .ok (false, packet)
          | (true, packet) =>
              .ok (true, { packet with
                header := { packet.header with type := TypeID.encryptedViaPublicKey } })

/-- `decrypt_` with an RSA key. -/
def decrypt (C : Cipher) (privateKey : Bytes) (packet : Packet) : Option Packet :=
  match popSizedData packet with
  | (none, _) => none
  | (some encryptedAESKey, packet) => do
      let aesKey ← C.rsaDecrypt privateKey encryptedAESKey
      AESKey.decrypt C aesKey
        { packet with header := { packet.header with type := TypeID.encryptedViaAES } }

end RSAKey

/-! ## Signatures -/

namespace SHAKey

/-- `sign_`.  The key is not read. -/
def sign (C : Cipher) (_ : SHAKey) (data : Bytes) : Bytes := leBytes 32 (C.sha256 data).toNat

/-- `verify_`.  The key is not read. -/
def verify (C : Cipher) (_ : SHAKey) (data compare : Bytes) : Bool :=
  compare = leBytes 32 (C.sha256 data).toNat

end SHAKey

/-! ## Decryption undoes encryption -/

variable {C : Cipher}

/-- A bound on the length of what AES makes of a packet: the identifier and the type are encrypted with
the data, and the initialization vector follows. -/
def aesSize (n : ℕ) : ℕ := (n + 3) / 16 * 16 + 16 + 32

/-- The data AES makes of a packet. -/
def AESKey.sealed (C : Cipher) (key : AESKey) (iv : AESIV) (header : Header) (data : Bytes) :
    Bytes :=
  C.aesEncrypt key iv (data ++ leBytes 2 header.id.toNat ++ [header.type]) ++
    leBytes 32 iv.toNat

theorem AESKey.length_sealed (hC : C.Lawful) (key : AESKey) (iv : AESIV) (header : Header)
    (data : Bytes) : (AESKey.sealed C key iv header data).length ≤ aesSize data.length := by
  have hlength := hC.length_aesEncrypt key iv (data ++ leBytes 2 header.id.toNat ++ [header.type])
  simpa [AESKey.sealed, aesSize, add_assoc] using hlength

theorem calculatePadding_of_lt (packet : Packet) {maxPadTo : ℤ}
    (hlt : packet.data.length + 2 < maxPadTo) (hle : maxPadTo ≤ maxPacketSize)
    (padding : BitVec 16) : ∃ n, calculatePadding packet maxPadTo padding = .ok n := by
  have hroom : ((maxPadTo - 2 - packet.data.length) % 2 ^ 64).toNat ≠ 0 := by
    simp only [maxPacketSize] at hle
    rw [Int.emod_eq_of_lt (by omega) (by omega)]
    omega
  exact ⟨_, by rw [calculatePadding, if_neg hroom]⟩

/-- **A packet that leaves room for the trailers is encrypted.** -/
theorem AESKey.encrypt_eq (hC : C.Lawful) (key : AESKey) (packet : Packet) (maxPadTo : ℤ)
    (hfits : aesSize packet.data.length ≤ maxPacketSize)
    (hlt : packet.data.length + 5 < maxPadTo) (hle : maxPadTo ≤ maxPacketSize) (draw : Draw) :
    ∃ rest, AESKey.encrypt C key packet maxPadTo draw =
      .ok { packet with
        header := { packet.header with id := 0, type := TypeID.encryptedViaAES }
        data := AESKey.sealed C key draw.iv packet.header packet.data
        rest := rest } := by
  have hroom : packet.data.length + 3 ≤ maxPacketSize := by
    simp only [aesSize, maxPacketSize] at *
    omega
  rw [AESKey.encrypt]
  dsimp only
  have hid : packet.data.length + (leBytes 2 packet.header.id.toNat).length ≤ maxPacketSize := by
    rw [length_leBytes]
    omega
  rw [header_pushValue, pushValue_of_fits hid, pushValue_of_fits (by simp; omega)]
  obtain ⟨padding, hpadding⟩ := calculatePadding_of_lt
    { packet with
      header := { packet.header with id := 0, type := TypeID.encryptedViaAES }
      data := packet.data ++ leBytes 2 packet.header.id.toNat ++ [packet.header.type]
      rest := (packet.rest.drop 2).drop 1 } (by simp; omega) hle draw.padding
  have hlength : (C.aesEncrypt key draw.iv (packet.data ++ leBytes 2 packet.header.id.toNat ++
      [packet.header.type])).length + 32 ≤ aesSize packet.data.length := by
    simpa [AESKey.sealed, add_assoc] using
      AESKey.length_sealed hC key draw.iv packet.header packet.data
  simp only [length_leBytes, List.length_singleton]
  rw [hpadding]
  dsimp only
  rw [if_neg (by omega), pushValue_of_fits (by simp only [Packet.write, length_leBytes]; omega)]
  exact ⟨_, rfl⟩

/-- **AES decrypts what it encrypted**, whatever the rest of the packet. -/
theorem AESKey.decrypt_sealed (hC : C.Lawful) {key : AESKey} {packet : Packet} {iv : AESIV}
    {header : Header} {data : Bytes}
    (hdata : packet.data = AESKey.sealed C key iv header data) :
    ∃ rest, AESKey.decrypt C key packet =
      some { packet with
        header := { packet.header with type := header.type, id := header.id }
        data := data
        rest := rest } := by
  have hiv := popData_append packet _ (leBytes 32 iv.toNat) hdata
  rw [length_leBytes] at hiv
  have htype := fun p : Packet => popData_append p (data ++ leBytes 2 header.id.toNat)
    [header.type]
  have hid := fun p : Packet => popData_append p data (leBytes 2 header.id.toNat)
  simp only [length_leBytes, List.length_singleton] at htype hid
  rw [AESKey.decrypt, hiv]
  simp only [Option.bind_eq_bind, Option.bind_some]
  rw [ofNat_leNat_leBytes iv (by norm_num), hC.aesDecrypt_aesEncrypt]
  simp only [Option.bind_some]
  rw [htype _ rfl]
  simp only [Option.bind_some]
  rw [hid _ rfl]
  simp only [Option.bind_some]
  rw [ofNat_leNat_leBytes header.id (by norm_num)]
  exact ⟨_, rfl⟩

/-- A bound on the length of what RSA makes of a packet: the key it was encrypted with follows, with its
length. -/
def rsaSize (n : ℕ) : ℕ := aesSize n + (rsaKeySize + 2)

/-- The data RSA makes of a packet. -/
def RSAKey.sealed (C : Cipher) (encryptedAESKey : Bytes) (key : AESKey) (iv : AESIV)
    (header : Header) (data : Bytes) : Bytes :=
  AESKey.sealed C key iv header data ++ encryptedAESKey ++ leBytes 2 encryptedAESKey.length

theorem RSAKey.length_sealed (hC : C.Lawful) (encryptedAESKey : Bytes) (key : AESKey)
    (iv : AESIV) (header : Header) (data : Bytes) :
    (RSAKey.sealed C encryptedAESKey key iv header data).length ≤
      aesSize data.length + (encryptedAESKey.length + 2) := by
  simpa [RSAKey.sealed, add_assoc] using AESKey.length_sealed hC key iv header data

/-- **A packet that leaves room for the trailers is encrypted** under a public key. -/
theorem RSAKey.encrypt_eq (hC : C.Lawful) {publicKey privateKey : Bytes}
    (hpair : C.Pairs publicKey privateKey) (packet : Packet)
    (hfits : rsaSize packet.data.length ≤ maxPacketSize) (draw : Draw) :
    ∃ encryptedAESKey rest, encryptedAESKey.length = rsaKeySize ∧
      C.rsaDecrypt privateKey encryptedAESKey = some draw.key ∧
      RSAKey.encrypt C publicKey packet maxPacketPostCryptoSize draw =
        .ok (true, { packet with
          header := { packet.header with id := 0, type := TypeID.encryptedViaPublicKey }
          data := RSAKey.sealed C encryptedAESKey draw.key draw.iv packet.header packet.data
          rest := rest }) := by
  obtain ⟨encryptedAESKey, hencrypt, hlength, hdecrypt⟩ := hpair.inverse draw.seed draw.key
  have hsize : aesSize packet.data.length + 130 ≤ 1500 := hfits
  have hpad : (maxPacketPostCryptoSize : ℤ) - (encryptedAESKey.length + 2) = 1370 := by
    rw [hlength]
    rfl
  obtain ⟨rest, haes⟩ := AESKey.encrypt_eq hC draw.key packet 1370
    (by simp only [maxPacketSize]; omega) (by simp only [aesSize] at hsize; omega)
    (by norm_num [maxPacketSize]) draw
  rw [RSAKey.encrypt, hencrypt]
  dsimp only
  rw [hpad, haes]
  dsimp only
  obtain ⟨rest', hpush⟩ := @pushSizedData_of_fits
    { packet with
      header := { packet.header with id := 0, type := TypeID.encryptedViaAES }
      data := AESKey.sealed C draw.key draw.iv packet.header packet.data
      rest := rest } encryptedAESKey
    (by
      have hsealed := AESKey.length_sealed hC draw.key draw.iv packet.header packet.data
      rw [hlength]
      simp only [rsaKeySize, maxPacketSize]
      omega)
  rw [hpush]
  exact ⟨encryptedAESKey, rest', hlength, hdecrypt, rfl⟩

/-- **RSA decrypts what it encrypted**, whatever the rest of the packet. -/
theorem RSAKey.decrypt_sealed (hC : C.Lawful) {privateKey encryptedAESKey : Bytes} {key : AESKey}
    (hlength : encryptedAESKey.length = rsaKeySize)
    (hdecrypt : C.rsaDecrypt privateKey encryptedAESKey = some key) {packet : Packet}
    {iv : AESIV} {header : Header} {data : Bytes}
    (hdata : packet.data = RSAKey.sealed C encryptedAESKey key iv header data) :
    ∃ rest, RSAKey.decrypt C privateKey packet =
      some { packet with
        header := { packet.header with type := header.type, id := header.id }
        data := data
        rest := rest } := by
  obtain ⟨rest, hpop⟩ := popSizedData_append packet _ encryptedAESKey hdata
    (by rw [hlength]; norm_num [rsaKeySize])
  rw [RSAKey.decrypt, hpop]
  dsimp only
  rw [hdecrypt]
  exact AESKey.decrypt_sealed hC rfl

/-! ## An ideal cipher decrypts nothing else -/

/-- What is taken off a packet was its end. -/
theorem data_popData {packet packet' : Packet} {size : ℕ} {data : Bytes}
    (h : popData packet size = some (data, packet')) :
    packet.data = packet'.data ++ data ∧ data.length = size := by
  rw [popData] at h
  split at h
  · cases h
  next hle =>
    cases h
    refine ⟨(List.take_append_drop _ _).symm, ?_⟩
    rw [List.length_drop]
    omega

theorem data_popSizedData {packet packet' : Packet} {data : Bytes}
    (h : popSizedData packet = (some data, packet')) :
    packet.data = packet'.data ++ data ++ leBytes 2 data.length := by
  rw [popSizedData] at h
  split at h
  · cases h
  next size packet₁ hsize =>
    split at h
    · cases h
    next hdata =>
      cases h
      obtain ⟨hfront, htwo⟩ := data_popData hsize
      obtain ⟨hback, hlength⟩ := data_popData hdata
      rw [hfront, hback, hlength, ← htwo, leBytes_leNat]

section
variable {publicKey privateKey : Bytes} (hC : C.Ideal publicKey privateKey)
include hC

theorem AESKey.sealed_of_decrypt {key : AESKey} {packet opened : Packet}
    (h : AESKey.decrypt C key packet = some opened) :
    ∃ iv header data, packet.data = AESKey.sealed C key iv header data := by
  simp only [AESKey.decrypt, Option.bind_eq_bind, Option.bind_eq_some_iff] at h
  obtain ⟨⟨iv, packet₁⟩, hiv, data, hdata, ⟨type, packet₂⟩, htype, ⟨id, packet₃⟩, hid, -⟩ := h
  obtain ⟨hfront, hlength⟩ := data_popData hiv
  obtain ⟨htype, htypeLength⟩ : data = packet₂.data ++ type ∧ type.length = 1 :=
    data_popData htype
  obtain ⟨hid, hidLength⟩ := data_popData hid
  obtain ⟨t, rfl⟩ := List.length_eq_one_iff.mp htypeLength
  refine ⟨BitVec.ofNat 256 (leNat iv), { type := t, id := BitVec.ofNat 16 (leNat id) },
    packet₃.data, ?_⟩
  rw [AESKey.sealed, leBytes_ofNat_leNat hidLength (by norm_num),
    leBytes_ofNat_leNat hlength (by norm_num), ← hid, ← htype, ← hC.aes hdata, hfront]

theorem RSAKey.sealed_of_decrypt {packet opened : Packet}
    (h : RSAKey.decrypt C privateKey packet = some opened) :
    ∃ seed key encryptedAESKey iv header data,
      C.rsaEncrypt publicKey seed key = some encryptedAESKey ∧
        packet.data = RSAKey.sealed C encryptedAESKey key iv header data := by
  rw [RSAKey.decrypt] at h
  split at h
  · cases h
  next encryptedAESKey packet₁ hpop =>
    simp only [Option.bind_eq_bind, Option.bind_eq_some_iff] at h
    obtain ⟨key, hkey, hopened⟩ := h
    obtain ⟨seed, hseed⟩ := hC.rsa hkey
    obtain ⟨iv, header, data, hsealed⟩ := AESKey.sealed_of_decrypt hC hopened
    refine ⟨seed, key, encryptedAESKey, iv, header, data, hseed, ?_⟩
    rw [data_popSizedData hpop, RSAKey.sealed, ← hsealed]

end

/-! ## A cipher to compute with -/

namespace Cipher

/-- A cipher that marks the data with a byte of the key. -/
def marking : Cipher where
  aesEncrypt key _ data := data ++ [UInt8.ofNat key.toNat]
  aesDecrypt key _ data :=
    if data.getLast? = some (UInt8.ofNat key.toNat) then some data.dropLast else none
  rsaEncrypt _ _ key := some (leBytes rsaKeySize key.toNat)
  rsaDecrypt _ data :=
    let key := BitVec.ofNat 256 (leNat data)
    if data = leBytes rsaKeySize key.toNat then some key else none
  d2iPublicKey _ := true
  sha256 data := BitVec.ofNat 256 (leNat data)

theorem lawful_marking : marking.Lawful where
  length_aesEncrypt key iv data := by
    simp only [marking, List.length_append, List.length_singleton]
    omega
  aesDecrypt_aesEncrypt key iv data := by simp [marking]

theorem pairs_marking {publicKey : Bytes} (h : publicKey.length ≤ 2 * rsaKeySize)
    (privateKey : Bytes) : marking.Pairs publicKey privateKey where
  valid := rfl
  length_publicKey := h
  inverse seed key := by
    refine ⟨_, rfl, length_leBytes _ _, ?_⟩
    simp only [marking]
    rw [ofNat_leNat_leBytes key (by norm_num [rsaKeySize]), if_pos rfl]

theorem ideal_marking (publicKey privateKey : Bytes) : marking.Ideal publicKey privateKey where
  aes {key iv encrypted data} h := by
    simp only [marking] at h ⊢
    split at h
    next hlast =>
      cases h
      exact (List.dropLast_append_getLast? _ hlast).symm
    next => cases h
  rsa {encrypted key} h := by
    simp only [marking] at h
    split at h
    next hkey =>
      cases h
      exact ⟨0, congrArg some hkey.symm⟩
    next => cases h

end Cipher

end MrUDP
