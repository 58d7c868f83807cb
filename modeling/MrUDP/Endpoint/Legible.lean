import MrUDP.Endpoint.Sending
import MrUDP.Sender.Emission
import MrUDP.Socket.Agreement

/-!
# What is transmitted can be read

A packet is encrypted once, when it is first sent, and with the keys that are known then; when it
is sent again, the bytes are the same.  Whatever the peer has learned in the meantime, it can
read them, since its own keys never change.

A connection sends only short packets past its queues, and data from the queues only once it
knows the peer's session key, so that there is room for the trailers.

## Main definitions

* `Endpoint.Sendable`: what a connection sends.
* `Endpoint.Legible`: a packet that was encrypted and that the peer can read.
* `Endpoint.Speaks`: everything that was transmitted, or waits in the window, is legible.
* `Endpoint.walk_speaks`: it stays so, as long as everything that is received is legible.
-/

namespace MrUDP
open Wire
open ConnectionCrypto (SameKeys Knows Understood)

/-! ## Sizes -/

namespace ConnectionCrypto

variable {c : ConnectionCrypto}

theorem tagSize_le (h : c.host.publicKey.length ≤ 2 * rsaKeySize) (type : TypeID) :
    c.tagSize type ≤ 258 := by
  simp only [rsaKeySize] at h
  rw [tagSize]
  split
  · omega
  · split <;> omega

theorem sealedSize_le_of_short (h : c.host.publicKey.length ≤ 2 * rsaKeySize) (type : TypeID)
    {n : ℕ} (hn : n ≤ 78) : c.sealedSize type n + 16 ≤ maxPacketSize := by
  have htag := tagSize_le h type
  simp only [sealedSize, maxPacketSize]
  split
  · simp only [aesSize]
    omega
  · simp only [rsaSize, aesSize, rsaKeySize]
    omega
  · omega

theorem sealedSize_le_of_data (hcan : c.canSend = true) {type : TypeID}
    (htype : type = TypeID.dataReliable ∨ type = TypeID.dataUnreliable) {n : ℕ}
    (hn : n ≤ maxPacketPostFrameSize) : c.sealedSize type n + 16 ≤ maxPacketSize := by
  have htag : c.tagSize type = 0 := by rcases htype with rfl | rfl <;> rfl
  obtain ⟨key, hkey⟩ := Option.isSome_iff_exists.mp hcan
  have hmax : maxPacketPostFrameSize = 1436 := by decide
  rw [hmax] at hn
  simp only [sealedSize, hkey, htag, aesSize, maxPacketSize]
  omega

/-! ## Keys that stay the same -/

theorem SameKeys.refl (c : ConnectionCrypto) : SameKeys c c := ⟨rfl, rfl, rfl⟩

theorem SameKeys.trans {c₁ c₂ c₃ : ConnectionCrypto} (h : SameKeys c₁ c₂) (h' : SameKeys c₂ c₃) :
    SameKeys c₁ c₃ :=
  ⟨h'.host.trans h.host, h'.localSessionKey.trans h.localSessionKey, h'.signer.trans h.signer⟩

theorem sameKeys_meet (c peer : ConnectionCrypto) (type : TypeID) :
    SameKeys c (c.meet peer type) := by
  rw [meet]
  split
  · exact ⟨rfl, rfl, rfl⟩
  · split <;> exact ⟨rfl, rfl, rfl⟩

theorem meet_congr {peer peer' : ConnectionCrypto} (h : SameKeys peer peer')
    (c : ConnectionCrypto) (type : TypeID) : c.meet peer' type = c.meet peer type := by
  rw [meet, meet, h.host, h.localSessionKey]

theorem knows_meet {peer : ConnectionCrypto} (h : c.Knows peer) (type : TypeID) :
    (c.meet peer type).Knows peer := by
  have hor : ∀ {α : Type} {known : Option α} {a b : α}, (∀ k, known = some k → k = a) →
      known.or (some a) = some b → b = a := by
    intro α known a b hknown hb
    cases known with
    | none => exact (Option.some.inj hb).symm
    | some k => exact hknown b hb
  rw [meet]
  split
  · exact ⟨fun key hkey => hor h.publicKey hkey, h.sessionKey⟩
  · split
    · exact ⟨h.publicKey, fun key hkey => hor h.sessionKey hkey⟩
    · exact h

theorem Understood.of_sameKeys {C : Cipher} {mine peer : ConnectionCrypto} {packet sealed : Packet}
    (hsame : SameKeys mine c) (h : Understood C c peer packet sealed) :
    Understood C mine peer packet sealed := by
  intro peer' hpeer arrived htype hid hdata
  rw [← meet_congr hsame]
  exact h peer' hpeer arrived htype hid hdata

end ConnectionCrypto

namespace Endpoint

/-! ## Sending a packet -/

/-- A packet that a connection sends: a short one, or data once the session key is known. -/
structure Sendable (canSend : Bool) (packet : Packet) : Prop where
  type : packet.header.type ≠ TypeID.encryptedViaAES ∧
    packet.header.type ≠ TypeID.encryptedViaPublicKey
  fits : packet.data.length ≤ 72 ∨ canSend = true ∧
    (packet.header.type = TypeID.dataReliable ∨ packet.header.type = TypeID.dataUnreliable) ∧
    packet.data.length ≤ maxPacketPostFrameSize

theorem sendable_of_own {packet : Packet} (h : IsOwn packet) (canSend : Bool) :
    Sendable canSend packet := ⟨h.2, .inl h.1⟩

/-- The packet was encrypted, and the peer can read it.  A challenge is short. -/
def Legible (C : Cipher) (mine peer : ConnectionCrypto) (log : List Notification)
    (sealed : Packet) : Prop :=
  ∃ plain, .encrypted plain sealed ∈ log ∧ Understood C mine peer plain sealed ∧
    sealed.data.length + 16 ≤ maxPacketSize ∧
    (plain.header.type = TypeID.authenticateChallenge → plain.data.length ≤ 72)

theorem Legible.mono {C : Cipher} {mine peer : ConnectionCrypto} {log log' : List Notification}
    {sealed : Packet} (h : Legible C mine peer log sealed) (hlog : ∀ n ∈ log, n ∈ log') :
    Legible C mine peer log' sealed := by
  obtain ⟨plain, hmem, hrest⟩ := h
  exact ⟨plain, hlog _ hmem, hrest⟩

/-- With the options pushed on it, a short packet is still short. -/
theorem onSend_sendable (options : ConnectionOptions) {canSend : Bool} {packet : Packet}
    (h : Sendable canSend packet) :
    ∃ packet', HandshakeOptions.onSend options packet = (.keep, packet') ∧
      packet'.header = packet.header ∧
      (packet.header.type ≠ TypeID.h3 → packet' = packet) ∧
      (packet'.data.length ≤ 78 ∨ canSend = true ∧
        (packet.header.type = TypeID.dataReliable ∨ packet.header.type = TypeID.dataUnreliable) ∧
        packet'.data.length ≤ maxPacketPostFrameSize) := by
  by_cases htype : packet.header.type = TypeID.h3
  · have hshort : packet.data.length ≤ 72 := by
      rcases h.fits with hshort | ⟨_, hdata, _⟩
      · exact hshort
      · rw [htype] at hdata
        exact absurd hdata (by decide)
    have hroom : packet.data.length + (HandshakeOptions.bytes options).length ≤ maxPacketSize := by
      rw [HandshakeOptions.length_bytes]
      simp only [maxPacketSize]
      omega
    rw [HandshakeOptions.onSend, if_pos htype, pushValue, pushData_of_fits hroom]
    refine ⟨_, rfl, rfl, fun hne => absurd htype hne, .inl ?_⟩
    simp only [List.length_append, HandshakeOptions.length_bytes]
    omega
  · refine ⟨packet, Connection.onSend_of_ne_h3 options htype, rfl, fun _ => rfl, ?_⟩
    rcases h.fits with hshort | hdata
    · exact .inl (by omega)
    · exact .inr hdata

section
variable {z : Zlib} {C : Cipher} {mine peer : ConnectionCrypto} {e : Endpoint}

/-- The cipher and the hosts' keys are as expected. -/
structure Sound (C : Cipher) (mine peer : ConnectionCrypto) : Prop where
  lawful : C.Lawful
  mine : C.Pairs mine.host.publicKey mine.host.privateKey
  peer : C.Pairs peer.host.publicKey peer.host.privateKey

/-- **A packet that is sent is legible.** -/
theorem exists_send (h : Sound C mine peer) {c : ConnectionCrypto} (hcrypto : e.crypto = some c)
    (hsame : SameKeys mine c) (hknows : c.Knows peer) {packet : Packet}
    (hpacket : Sendable c.canSend packet) (now : Timepoint) (address : Option Address) :
    ∃ plain sealed,
      e.send C now packet address =
        (sealed, send_ now
          { e with
            crypto := some { c with drawn := c.drawn + 1 }
            log := e.log ++ [.encrypted plain sealed] } sealed address) ∧
      Legible C mine peer [.encrypted plain sealed] sealed := by
  obtain ⟨plain, honSend, hheader, hplain, hfits⟩ := onSend_sendable e.options hpacket
  have hmine : C.Pairs c.host.publicKey c.host.privateKey := by
    rw [hsame.host]
    exact h.mine
  have hsize : c.sealedSize plain.header.type plain.data.length + 16 ≤ maxPacketSize := by
    rcases hfits with hshort | ⟨hcan, hdata, hlength⟩
    · exact ConnectionCrypto.sealedSize_le_of_short hmine.length_publicKey _ hshort
    · rw [hheader]
      exact ConnectionCrypto.sealedSize_le_of_data hcan hdata hlength
  have hroom : c.sealedSize plain.header.type plain.data.length ≤ maxPacketSize := by omega
  have htype := hpacket.type
  rw [← hheader] at htype
  obtain ⟨sealed, hsealed, _, hlength, hunderstood⟩ := ConnectionCrypto.exists_onSend h.lawful
    hmine h.peer hknows hroom (fun _ _ => htype)
  refine ⟨plain, sealed, ?_, plain, by simp, hunderstood.of_sameKeys hsame, by omega, ?_⟩
  · rw [send, honSend]
    simp only [encrypt, hcrypto, hsealed]
    rfl
  · intro hchallenge
    rw [hheader] at hchallenge
    rw [hplain (by rw [hchallenge]; decide)]
    rcases hpacket.fits with hshort | ⟨_, hdata, _⟩
    · exact hshort
    · rw [hchallenge] at hdata
      exact absurd hdata (by decide)

end
end Endpoint

/-! ## What waits is encrypted in place -/

theorem MultiPacketPath.toList_replace (paths : MultiPacketPath) (old : PacketPath)
    (packet : Packet) :
    (paths.replace old packet).toList = paths.toList.map (·.replace old packet) := by
  obtain ⟨front, _ | back⟩ := paths <;> rfl

theorem Retrier.outstanding_overwrite (r : Retrier) (since : ℕ) (old : PacketPath)
    (packet : Packet) (k : PacketID) :
    (r.overwrite since old packet).outstanding k =
      if k = old.packet.header.id then
        (r.outstanding k).map fun entry =>
          if entry.2 < since then entry else (entry.1.replace old packet, entry.2)
      else r.outstanding k := by
  rw [Retrier.overwrite]
  by_cases hk : k = old.packet.header.id
  · rw [if_pos hk]
    subst hk
    split
    next hnone => simp [Retrier.outstanding, hnone]
    next retry hsome =>
      split
      next hold => simp [Retrier.outstanding, hsome, hold]
      next hnew =>
        simp only [Retrier.outstanding, Std.ExtTreeMap.getElem?_insert_self, hsome, Option.map_some,
          if_neg hnew]
  · rw [if_neg hk]
    split
    · rfl
    · split
      · rfl
      · simp only [Retrier.outstanding, Std.ExtTreeMap.getElem?_insert,
          Std.LawfulEqCmp.compare_eq_iff_eq]
        rw [if_neg (Ne.symm hk)]

namespace Endpoint

section
variable {z : Zlib} {C : Cipher} {mine peer : ConnectionCrypto} {e : Endpoint} {since : ℕ}

/-- While packets are handed to the socket: what waits is legible, or is still to be sent.  The
peer can read everything that was transmitted. -/
structure Flushing (C : Cipher) (mine peer : ConnectionCrypto) (since : ℕ)
    (pending : List Transmission) (e : Endpoint) : Prop where
  crypto : ∃ c, e.crypto = some c ∧ SameKeys mine c ∧ c.Knows peer
  queues : e.sender.Queues
  outbox : e.sender.outbox = []
  window : ∀ k paths n, e.sender.retrier.outstanding k = some (paths, n) → ∀ p ∈ paths.toList,
    Legible C mine peer e.log p.packet ∨
      since ≤ n ∧ p.packet.header.id = k ∧ ⟨p.packet, p.address, false⟩ ∈ pending
  pending : ∀ t ∈ pending, t.again = true ∧ Legible C mine peer e.log t.packet ∨
    t.again = false ∧ Sendable e.canSend t.packet
  transmitted : ∀ o ∈ e.transmitted, ∃ sealed, Legible C mine peer e.log sealed ∧
    ∃ (c : Connection) (address : Option Address), o = c.wire sealed address
  faultless : ∀ fault, .faulted fault ∉ e.log

/-- **Everything that waits or was transmitted is legible.** -/
def Speaks (C : Cipher) (mine peer : ConnectionCrypto) (e : Endpoint) : Prop :=
  Flushing C mine peer 0 [] e

theorem Speaks.legible (h : Speaks C mine peer e) {k : PacketID} {paths : MultiPacketPath} {n : ℕ}
    (hk : e.sender.retrier.outstanding k = some (paths, n)) {p : PacketPath}
    (hp : p ∈ paths.toList) : Legible C mine peer e.log p.packet := by
  rcases h.window k paths n hk p hp with hlegible | ⟨_, _, hmem⟩
  · exact hlegible
  · cases hmem

theorem Flushing.speaks (h : Flushing C mine peer since [] e) : Speaks C mine peer e := by
  refine { h with window := fun k paths n hk p hp => ?_ }
  rcases h.window k paths n hk p hp with hlegible | ⟨_, _, hmem⟩
  · exact .inl hlegible
  · cases hmem

/-- A packet is sent, and recorded as it was encrypted. -/
theorem Flushing.send (h : Sound C mine peer) {pending : List Transmission}
    (he : Flushing C mine peer since pending e) {packet : Packet}
    (hpacket : Sendable e.canSend packet) (now : Timepoint) (address : Option Address) :
    Flushing C mine peer since pending (e.send C now packet address).2 ∧
      Legible C mine peer (e.send C now packet address).2.log (e.send C now packet address).1 ∧
      (e.send C now packet address).2.sender = e.sender := by
  obtain ⟨c, hcrypto, hsame, hknows⟩ := he.crypto
  have hcan : e.canSend = c.canSend := by rw [canSend, hcrypto]
  obtain ⟨plain, sealed, hsend, hlegible⟩ :=
    exists_send h hcrypto hsame hknows (hcan ▸ hpacket) now address
  rw [hsend]
  have hold : ∀ n ∈ e.log, n ∈ e.log ++ [.encrypted plain sealed] :=
    fun n hn => List.mem_append_left _ hn
  have hnew : Legible C mine peer (e.log ++ [.encrypted plain sealed]) sealed :=
    hlegible.mono fun n hn => List.mem_append_right _ hn
  refine ⟨⟨⟨_, rfl, { hsame with },
    ⟨hknows.publicKey, hknows.sessionKey⟩⟩, he.queues, he.outbox, ?_, ?_, ?_, ?_⟩, hnew, rfl⟩
  · intro k paths n hk p hp
    exact (he.window k paths n hk p hp).imp_left fun hp => hp.mono hold
  · intro t ht
    rcases he.pending t ht with ⟨hagain, ht⟩ | ⟨hagain, ht⟩
    · exact .inl ⟨hagain, ht.mono hold⟩
    · rw [hcan] at ht
      exact .inr ⟨hagain, ht⟩
  · intro o ho
    rcases List.mem_append.mp ho with ho | ho
    · obtain ⟨sealed', hsealed', hwire⟩ := he.transmitted o ho
      exact ⟨sealed', hsealed'.mono hold, hwire⟩
    · exact ⟨sealed, hnew, _, address, List.mem_singleton.mp ho⟩
  · intro fault hfault
    rcases List.mem_append.mp hfault with hfault | hfault
    · exact he.faultless fault hfault
    · cases List.mem_singleton.mp hfault

/-- A packet is sent again, as it is. -/
theorem Flushing.send_ {pending : List Transmission} (he : Flushing C mine peer since pending e)
    {sealed : Packet} (hsealed : Legible C mine peer e.log sealed) (now : Timepoint)
    (address : Option Address) :
    Flushing C mine peer since pending (e.send_ now sealed address) := by
  refine { he with transmitted := fun o ho => ?_ }
  rcases List.mem_append.mp ho with ho | ho
  · exact he.transmitted o ho
  · exact ⟨sealed, hsealed, _, address, List.mem_singleton.mp ho⟩

/-- One packet of the outbox is handed to the socket. -/
theorem Flushing.transmit (h : Sound C mine peer) {t : Transmission} {ts : List Transmission}
    (he : Flushing C mine peer since (t :: ts) e) (now : Timepoint) :
    Flushing C mine peer since ts (transmit C now since e t) := by
  rw [Endpoint.transmit]
  rcases he.pending t List.mem_cons_self with ⟨hagain, hlegible⟩ | ⟨hagain, hsendable⟩
  · -- What is sent again does not wait to be sent for the first time.
    rw [if_pos hagain]
    have hsent := he.send_ hlegible now t.address
    refine { hsent with
      pending := fun t' ht' => hsent.pending t' (List.mem_cons_of_mem _ ht')
      window := fun k paths n hk p hp => ?_ }
    refine (hsent.window k paths n hk p hp).imp_right ?_
    rintro ⟨hn, hid, hmem⟩
    refine ⟨hn, hid, ?_⟩
    rcases List.mem_cons.mp hmem with heq | hmem
    · rw [← heq] at hagain
      cases hagain
    · exact hmem
  · rw [if_neg (by simp [hagain])]
    obtain ⟨hsent, hlegible, hsender⟩ := he.send h hsendable now t.address
    generalize e.send C now t.packet t.address = r at *
    dsimp only
    split
    next hnone =>
      obtain ⟨c, hcrypto, _⟩ := hsent.crypto
      rw [hnone] at hcrypto
      cases hcrypto
    refine { hsent with
      pending := fun t' ht' => hsent.pending t' (List.mem_cons_of_mem _ ht')
      queues := ⟨hsent.queues.reliable, hsent.queues.unreliable⟩
      window := fun k paths n hk p hp => ?_ }
    dsimp only at hk
    rw [Retrier.outstanding_overwrite] at hk
    -- The entry that the packet waits in is rewritten; no other one waits for this packet.
    split at hk
    next hid =>
      obtain ⟨⟨paths', n'⟩, hentry, hpaths⟩ := Option.map_eq_some_iff.mp hk
      have hwindow := hsent.window k paths' n' hentry
      split at hpaths
      next hlt =>
        cases hpaths
        rcases hwindow p hp with hp | ⟨hn, _⟩
        · exact .inl hp
        · exact absurd hlt (not_lt.mpr hn)
      · cases hpaths
        rw [MultiPacketPath.toList_replace] at hp
        obtain ⟨q, hq, rfl⟩ := List.mem_map.mp hp
        rw [PacketPath.replace]
        split
        · exact .inl hlegible
        next hne =>
          refine (hwindow q hq).imp_right ?_
          rintro ⟨hn, hid, hmem⟩
          refine ⟨hn, hid, ?_⟩
          rcases List.mem_cons.mp hmem with heq | hmem
          · rw [← heq] at hne
            exact absurd rfl hne
          · exact hmem
    next hne =>
      refine (hsent.window k paths n hk p hp).imp_right ?_
      rintro ⟨hn, hid, hmem⟩
      refine ⟨hn, hid, ?_⟩
      rcases List.mem_cons.mp hmem with heq | hmem
      · rw [← heq] at hne
        exact absurd hid.symm hne
      · exact hmem

theorem Flushing.foldl (h : Sound C mine peer) (now : Timepoint) {ts : List Transmission}
    (he : Flushing C mine peer since ts e) :
    Speaks C mine peer (ts.foldl (Endpoint.transmit C now since) e) := by
  induction ts generalizing e with
  | nil => exact he.speaks
  | cons t ts ih => exact ih (he.transmit h now)

/-- **A call on the sender** sends what the peer can read. -/
theorem Speaks.call (h : Sound C mine peer) (he : Speaks C mine peer e) (now : Timepoint)
    {call : SenderCall} (hcall : call.Sends IsOwn) : Speaks C mine peer (e.call z C now call) := by
  have hpostable : Sender.Postable (e.env z now) (Sendable e.canSend) :=
    ⟨fun p id hp => ⟨hp.type, hp.fits⟩, fun hcan p htype hfits => ⟨by
      rcases htype with htype | htype <;> rw [htype] <;> decide, .inr ⟨hcan, htype, hfits⟩⟩⟩
  have hsends : call.Sends (Sendable e.canSend) := by
    cases call with
    | sendReliably paths priority => exact fun path hpath => sendable_of_own (hcall path hpath) _
    | «open» | send | close | fail | ack | onAck | processSchedule | retryTimeout => trivial
  have hposted : ∃ posts, (e.sender.call (e.env z now) call).outbox = posts ∧
      Flushing C mine peer e.sender.packetIDGenerator.issued posts
        { e with sender := { e.sender.call (e.env z now) call with outbox := [] } } := by
    by_cases hretry : call = .retryTimeout
    · -- What is sent again has waited, so it is legible.
      subst hretry
      obtain ⟨hqueues, houtstanding, posts, houtbox, hposts⟩ :=
        Sender.resends_retryTimeout (e := e.env z now) e.sender
      rw [he.outbox, List.nil_append] at houtbox
      refine ⟨posts, houtbox, { he with
        queues := ⟨(hqueues he.queues).reliable, (hqueues he.queues).unreliable⟩
        outbox := rfl
        window := fun k paths n hk p hp => .inl ?_
        pending := fun t ht => .inl ?_ }⟩
      · exact he.legible ((houtstanding k).symm.trans hk) hp
      · obtain ⟨hagain, k, paths, n, hk, p, hp, hpacket⟩ := hposts t ht
        rw [hpacket]
        exact ⟨hagain, he.legible hk hp⟩
    · obtain ⟨hqueues, posts, hemits⟩ :=
        Sender.emission_call hpostable hsends hretry e.sender he.queues
      have houtbox := hemits.outbox
      rw [he.outbox, List.nil_append] at houtbox
      refine ⟨posts, houtbox, { he with
        queues := ⟨hqueues.reliable, hqueues.unreliable⟩
        outbox := rfl
        window := fun k paths n hk p hp => ?_
        pending := fun t ht => .inr (hemits.first t ht) }⟩
      rcases hemits.outstanding k paths n hk with hk | ⟨hn, hnew⟩
      · exact .inl (he.legible hk hp)
      · exact .inr ⟨hn, hnew p hp⟩
  obtain ⟨posts, houtbox, hflushing⟩ := hposted
  rw [Endpoint.call, flush, houtbox]
  exact hflushing.foldl h now

/-- Nothing is sent, and nothing goes wrong. -/
theorem Speaks.of_eq (he : Speaks C mine peer e) {e' : Endpoint} (hsender : e'.sender = e.sender)
    (hcrypto : e'.crypto = e.crypto) (htransmitted : e'.transmitted = e.transmitted)
    (notes : List Notification) (hlog : e'.log = e.log ++ notes)
    (hnotes : ∀ fault, .faulted fault ∉ notes) : Speaks C mine peer e' := by
  have hold : ∀ n ∈ e.log, n ∈ e'.log := by
    rw [hlog]
    exact fun n hn => List.mem_append_left _ hn
  refine ⟨hcrypto ▸ he.crypto, hsender ▸ he.queues, hsender ▸ he.outbox, ?_, by simp, ?_, ?_⟩
  · intro k paths n hk p hp
    rw [hsender] at hk
    exact .inl ((he.legible hk hp).mono hold)
  · intro o ho
    rw [htransmitted] at ho
    obtain ⟨sealed, hsealed, hwire⟩ := he.transmitted o ho
    exact ⟨sealed, hsealed.mono hold, hwire⟩
  · intro fault hfault
    rw [hlog] at hfault
    rcases List.mem_append.mp hfault with hfault | hfault
    · exact he.faultless fault hfault
    · exact hnotes fault hfault

theorem Speaks.of_inert (he : Speaks C mine peer e) {e' : Endpoint} (h : Inert e e') :
    Speaks C mine peer e' := by
  obtain ⟨notes, hlog, hnotes⟩ := h.log
  refine he.of_eq h.sender h.crypto h.transmitted notes hlog fun fault hfault => ?_
  cases hnotes _ hfault

/-! ## Receiving -/

/-- A packet that arrives is one that the peer has encrypted. -/
def Honest (C : Cipher) (mine peer : ConnectionCrypto) (packet : Packet) : Prop :=
  ∃ plain sealed, Understood C peer mine plain sealed ∧
    (plain.header.type = TypeID.authenticateChallenge → plain.data.length ≤ 72) ∧
    packet.header.type = sealed.header.type ∧ packet.header.id = sealed.header.id ∧
    packet.data = sealed.data

/-- What was transmitted arrives as it was encrypted. -/
theorem honest_of_arrives (he : Speaks C mine peer e) {o : Outgoing} (ho : o ∈ e.transmitted)
    {packet : Packet} (h : Connection.Arrives o packet) : Honest C peer mine packet := by
  obtain ⟨sealed, ⟨plain, _, hunderstood, hfits, hchallenge⟩, c, address, rfl⟩ :=
    he.transmitted o ho
  obtain ⟨hheader, hdata⟩ := Connection.arrives_wire h
  exact ⟨plain, sealed, hunderstood, hchallenge, by rw [hheader], by rw [hheader], hdata hfits⟩

/-- An honest packet is kept, and read as it was sent. -/
theorem exists_decrypt {c : ConnectionCrypto} (hcrypto : e.crypto = some c)
    (hsame : SameKeys mine c) {packet : Packet} (hpacket : Honest C mine peer packet) :
    ∃ opened, e.decrypt C packet =
        (.keep, opened, { e with crypto := some (c.meet peer opened.header.type) }) ∧
      (opened.header.type = TypeID.authenticateChallenge → opened.data.length ≤ 72) := by
  obtain ⟨plain, sealed, hunderstood, hchallenge, htype, hid, hdata⟩ := hpacket
  obtain ⟨rest, honReceive⟩ := hunderstood c hsame packet htype hid hdata
  rw [decrypt, hcrypto]
  dsimp only
  rw [honReceive]
  exact ⟨_, rfl, hchallenge⟩

/-- **As long as honest packets arrive, everything that is transmitted is legible.** -/
theorem walk_speaks (h : Sound C mine peer) :
    WalkAll z C (fun data => data.length ≤ 72)
      (fun e packet => (∃ c, e.crypto = some c ∧ SameKeys mine c) ∧ Honest C mine peer packet)
      (fun e e' => Speaks C mine peer e → Speaks C mine peer e') where
  toWalk := walk_of_inert (fun _ he => he) (fun h h' he => h' (h he))
    (fun _ now _ hcall he => he.call h now hcall)
    (fun _ now packet hpacket he => by
      have hsendable : ∀ canSend, Sendable canSend packet := by
        intro canSend
        rcases hpacket with hown | ⟨htype, hecho⟩
        · exact sendable_of_own hown canSend
        · exact ⟨by rw [htype]; decide, .inl hecho⟩
      exact (Flushing.send h he (hsendable _) now none).1)
    (fun hinert he => he.of_inert hinert)
  decrypt := by
    rintro e packet ⟨⟨c, hcrypto, hsame⟩, hpacket⟩ he
    obtain ⟨opened, hdecrypt, _⟩ := exists_decrypt hcrypto hsame hpacket
    obtain ⟨c', hcrypto', _, hknows⟩ := he.crypto
    obtain rfl : c = c' := Option.some.inj (hcrypto.symm.trans hcrypto')
    rw [hdecrypt]
    refine { he with
      crypto := ⟨_, rfl, hsame.trans (ConnectionCrypto.sameKeys_meet _ _ _), ?_⟩
      pending := by simp }
    exact ConnectionCrypto.knows_meet hknows _
  heard := by
    rintro e packet opened e' ⟨⟨c, hcrypto, hsame⟩, hpacket⟩ hrun htype
    obtain ⟨opened', hdecrypt, hchallenge⟩ := exists_decrypt hcrypto hsame hpacket
    rw [hdecrypt] at hrun
    obtain rfl : opened' = opened := congrArg (fun r => r.2.1) hrun
    exact hchallenge htype
  challenged e now path he := he.of_eq rfl rfl rfl [_] rfl (by simp)
  migrate e path he := he.of_eq rfl rfl rfl [] (by simp) (by simp)

end
end Endpoint
end MrUDP
