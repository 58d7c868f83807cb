import MrUDP.Endpoint.KeyExchange

/-!
# Packets of a stranger

Someone who knows no key sends packets to a connection whose two sides have exchanged their keys.
If encryption is ideal, a packet that claims to be encrypted does not decrypt, is discarded, and
leaves no trace.  But a packet that does not claim to be encrypted is not asked to be: it is passed
on as it is.

## Main definitions

* `ConnectionCrypto.SealedFor`: a packet was encrypted for a side, with one of its keys.
* `Endpoint.Forged`: a packet claims to be, and was not.
* `Endpoint.injection`: forged packets leave no trace in a run.
* `Endpoint.delivers_plaintext`: what does not claim to be encrypted is delivered.
-/

namespace MrUDP
open Wire Machine
open Connection (Input Reactions)

namespace ConnectionCrypto

variable {C : Cipher} {c c' : ConnectionCrypto} {packet : Packet}

/-- The packet claims to be encrypted. -/
def Claims (packet : Packet) : Prop :=
  packet.header.type = TypeID.encryptedViaPublicKey ∨
    packet.header.type = TypeID.encryptedViaAES

/-- The packet is what encryption makes of some packet, under the session key of the side, or
under a key that was encrypted under its public key. -/
def SealedFor (C : Cipher) (c : ConnectionCrypto) (packet : Packet) : Prop :=
  (packet.header.type = TypeID.encryptedViaPublicKey ∧
    ∃ seed key encryptedAESKey iv header data,
      C.rsaEncrypt c.host.publicKey seed key = some encryptedAESKey ∧
        packet.data = RSAKey.sealed C encryptedAESKey key iv header data) ∨
  (packet.header.type = TypeID.encryptedViaAES ∧
    ∃ iv header data, packet.data = AESKey.sealed C c.localSessionKey iv header data)

theorem SealedFor.congr (hsame : SameKeys c c') (h : SealedFor C c' packet) :
    SealedFor C c packet := by
  rw [SealedFor, hsame.host, hsame.localSessionKey] at h
  exact h

/-- **With ideal encryption nothing decrypts but what was encrypted.** -/
theorem decrypt_eq_none (hC : C.Ideal c.host.publicKey c.host.privateKey) (hclaims : Claims packet)
    (hsealed : ¬ SealedFor C c packet) : c.decrypt C packet = none := by
  rw [Option.eq_none_iff_forall_ne_some]
  intro opened hopened
  rw [decrypt] at hopened
  split at hopened
  next htype => exact hsealed (.inl ⟨htype, RSAKey.sealed_of_decrypt hC hopened⟩)
  next htype =>
    rw [if_pos (hclaims.resolve_left htype)] at hopened
    exact hsealed (.inr ⟨hclaims.resolve_left htype, AESKey.sealed_of_decrypt hC hopened⟩)

end ConnectionCrypto

namespace Endpoint

open ConnectionCrypto (Claims SealedFor SameKeys)

variable {z : Zlib} {C : Cipher} {e : Endpoint} {c : ConnectionCrypto}

/-- A packet arrives that claims to be encrypted, and was not encrypted for the side. -/
def Forged (C : Cipher) (c : ConnectionCrypto) : Timepoint × Input → Prop
  | (_, .receive packet _ _) => Claims packet ∧ ¬ SealedFor C c packet
  | _ => False

/-- **A forged packet leaves no trace.** -/
theorem step_of_forged (hC : C.Ideal c.host.publicKey c.host.privateKey) {c' : ConnectionCrypto}
    (hcrypto : e.crypto = some c') (hsame : SameKeys c c') {input : Timepoint × Input}
    (h : Forged C c input) : e.step z C input = e := by
  obtain ⟨now, input⟩ := input
  cases input with
  | receive packet path reactions =>
      obtain ⟨hclaims, hsealed⟩ := h
      have hdecrypt : c'.decrypt C packet = none :=
        ConnectionCrypto.decrypt_eq_none (by rwa [hsame.host]) hclaims
          fun h => hsealed (h.congr hsame)
      have hunchanged : { e with crypto := some c' } = e := by rw [← hcrypto]
      rw [step, receive, decrypt, hcrypto]
      dsimp only
      rw [ConnectionCrypto.onReceive, hdecrypt]
      dsimp only
      rw [hunchanged]
  | user | processSchedule | retryTimeout | probeTimeout | close => exact h.elim

/-- One input, and whether it was injected. -/
def stepMarked (z : Zlib) (C : Cipher) (e : Endpoint) (input : Bool × (Timepoint × Input)) :
    Endpoint := e.step z C input.2

theorem run_stepMarked (e : Endpoint) (inputs : List (Bool × (Timepoint × Input))) :
    run (stepMarked z C) e inputs = run (step z C) e (inputs.map Prod.snd) := by
  rw [run, run, List.foldl_map]
  rfl

/-- A forged packet leaves no trace whenever it comes: the keys of a side stay the same. -/
theorem along_of_forged (hC : C.Ideal c.host.publicKey c.host.privateKey)
    {inputs : List (Bool × (Timepoint × Input))}
    (hforged : ∀ input ∈ inputs, input.1 = true → Forged C c input.2)
    (hkeys : ∃ c', e.crypto = some c' ∧ SameKeys c c') :
    Along (stepMarked z C) (fun e input => (!input.1) = false → stepMarked z C e input = e) e
      inputs := by
  induction inputs generalizing e with
  | nil => trivial
  | cons input inputs ih =>
      obtain ⟨c', hc', hsame⟩ := hkeys
      obtain ⟨c'', hc'', hrecalls⟩ := remembers_step z C e input.2 c' hc'
      refine ⟨fun hinjected => ?_, ih (fun input' hmem => hforged input' (.tail _ hmem))
        ⟨c'', hc'', hsame.trans hrecalls.same⟩⟩
      exact step_of_forged hC hc' hsame (hforged input (.head _) (by simpa using hinjected))

/-- **Injected packets leave no trace**, if they claim to be encrypted and were not encrypted with a
key of the side: with ideal encryption the endpoint is the same as in the run without them. -/
theorem injection (z : Zlib) (hC : C.Ideal c.host.publicKey c.host.privateKey) (e : Endpoint)
    (hcrypto : e.crypto = some c) (inputs : List (Bool × (Timepoint × Input)))
    (hforged : ∀ input ∈ inputs, input.1 = true → Forged C c input.2) :
    run (step z C) e (inputs.map Prod.snd) =
      run (step z C) e ((inputs.filter fun input => !input.1).map Prod.snd) := by
  rw [← run_stepMarked, ← run_stepMarked]
  exact (run_filter _ (along_of_forged hC hforged ⟨c, hcrypto, .refl c⟩)).symm

/-- A packet that claims to be encrypted, by someone who has another key. -/
def junk : Packet :=
  { header := { type := TypeID.encryptedViaAES, connection := 3 }
    data := AESKey.sealed .marking 7 0 { type := TypeID.dataUnreliable }
      (Frame.bytes ⟨0, FrameTypeID.data, [9]⟩) }

/-- A packet that claims to be encrypted with the public key, and ends in no encrypted key. -/
def keyless : Packet :=
  { header := { type := TypeID.encryptedViaPublicKey, connection := 3 }, data := [0, 0, 0, 0] }

/-- The same stranger's packet that does not claim to be encrypted. -/
def plaintext : Packet :=
  { header := { type := TypeID.dataUnreliable, connection := 3 }
    data := Frame.bytes ⟨0, FrameTypeID.data, [9]⟩ }

/-- The initiator of a finished handshake hears the stranger, and then sends a byte of its own. -/
def disturbed : List (Bool × (Timepoint × Input)) :=
  [(true, (9, .receive junk 6 {})), (true, (9, .receive keyless 1 {})),
    (false, (9, .user (.send [5] .unreliable)))]

theorem not_sealedFor_junk (hkey : c.localSessionKey = 1) : ¬ SealedFor .marking c junk := by
  rintro (⟨htype, -⟩ | ⟨-, iv, header, data, hdata⟩)
  · exact absurd htype (by decide)
  · -- What is encrypted with the session key can be decrypted with it.
    obtain ⟨rest, hdecrypt⟩ := AESKey.decrypt_sealed Cipher.lawful_marking hdata
    have hnone : AESKey.decrypt .marking 1 junk = none := by decide +kernel
    rw [hkey, hnone] at hdecrypt
    cases hdecrypt

theorem not_sealedFor_keyless (c : ConnectionCrypto) : ¬ SealedFor .marking c keyless := by
  rintro (⟨-, seed, key, encryptedAESKey, iv, header, data, hkey, hdata⟩ | ⟨htype, -⟩)
  · have hlength := congrArg List.length hdata
    cases hkey
    simp [RSAKey.sealed, keyless, rsaKeySize] at hlength
  · exact absurd htype (by decide)

theorem injection_disturbed :
    run (step Connection.storing .marking) Session.established.initiator
        (disturbed.map Prod.snd) =
      run (step Connection.storing .marking) Session.established.initiator
        [(9, .user (.send [5] .unreliable))] := by
  have hkeys : Session.established.initiator.crypto.map (·.localSessionKey) = some 1 := by
    decide +kernel
  obtain ⟨c, hcrypto, hkey⟩ := Option.map_eq_some_iff.mp hkeys
  refine injection _ (Cipher.ideal_marking _ _) _ hcrypto disturbed ?_
  simp only [disturbed, List.forall_mem_cons, List.not_mem_nil, false_implies, implies_true,
    and_true, Forged]
  exact ⟨fun _ => ⟨.inr rfl, not_sealedFor_junk hkey⟩,
    fun _ => ⟨.inl rfl, not_sealedFor_keyless c⟩, fun h => absurd h (by decide)⟩

/-- After the handshake the initiator has delivered nothing; after the stranger's packet that does
not claim to be encrypted, sent under the peer's address, it has delivered the stranger's data. -/
theorem delivers_plaintext :
    Session.established.initiator.delivered = [] ∧
      (Session.established.initiator.crypto.bind (·.remoteSessionKey)) = some 2 ∧
      ((Session.established.responder.bind (·.crypto)).bind (·.remoteSessionKey)) = some 1 ∧
      (Session.established.initiator.step Connection.storing .marking
        (9, .receive plaintext 1 {})).delivered = [([9], .unreliable)] := by
  decide +kernel

end Endpoint
end MrUDP
