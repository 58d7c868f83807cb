import MrUDP.Connection.Outstanding
import MrUDP.Endpoint.Sending

/-!
# When the peer's address changes

A packet from another address makes the connection challenge that address, and a response to a
challenge makes the address the peer's.  The response returns the basis of the challenge with
its signature, so the connection need not remember its challenges.

The signature is a digest of the basis alone: `SHAKey::sign` and `SHAKey::verify` do not read
the key, and whoever knows the time can sign.  Everything else about the exchange is right: if
only a basis that was signed is returned, the address changes only to one that was challenged,
within a minute.

## Main definitions

* `Endpoint.Signed`: the bases that were signed.
* `Endpoint.Unforged`: no signature is made by anyone else.
* `Endpoint.migration`: the address changes only after a challenge.
* `Endpoint.forged_migrates`: a response that nobody asked for.
-/

namespace MrUDP
open Wire Machine
open Connection (Input Reactions)

def Notification.isChallenged : Notification → Bool
  | .challenged _ _ => true
  | _ => false

namespace Endpoint
open Notification

/-! ## What leaves the address alone -/

/-- Neither does the address change, nor is a challenge sent. -/
structure Stays (e e' : Endpoint) : Prop where
  remoteAddress : e'.remoteAddress = e.remoteAddress
  challenges : e'.log.filter isChallenged = e.log.filter isChallenged

theorem Stays.refl (e : Endpoint) : Stays e e := ⟨rfl, rfl⟩

theorem Stays.trans {e₁ e₂ e₃ : Endpoint} (h : Stays e₁ e₂) (h' : Stays e₂ e₃) : Stays e₁ e₃ :=
  ⟨h'.remoteAddress.trans h.remoteAddress, h'.challenges.trans h.challenges⟩

theorem stays_of_inert {e e' : Endpoint} (h : Inert e e') : Stays e e' := by
  obtain ⟨notes, hlog, hnotes⟩ := h.log
  have hnone : notes.filter isChallenged = [] := by
    rw [List.filter_eq_nil_iff]
    intro n hn hchallenged
    have husers := hnotes n hn
    cases n with
    | challenged => cases husers
    | registered | delivered | closing | closed | scheduled | returned | encrypted | faulted =>
        cases hchallenged
  exact ⟨h.remoteAddress, by rw [hlog, List.filter_append, hnone, List.append_nil]⟩

theorem stays_of_sent {e e' : Endpoint} (h : Sent e e') : Stays e e' := by
  obtain ⟨_, _, _, _, notes, hnotes, rfl⟩ := h
  have hnone : notes.filter isChallenged = [] := by
    rw [List.filter_eq_nil_iff]
    intro n hn hchallenged
    have hcipher := hnotes n hn
    cases n with
    | challenged => cases hcipher
    | registered | delivered | closing | closed | scheduled | returned | encrypted | faulted =>
        cases hchallenged
  exact ⟨rfl, by simp [hnone]⟩

/-- Behind the network path the address stays. -/
theorem walk_stays (z : Zlib) (C : Cipher) : Walk z C (fun _ => True) Stays :=
  walk_of_inert .refl .trans (fun e now _ _ => stays_of_sent (sent_call z C now e _))
    (fun e now _ _ => stays_of_sent (sent_send C now e _ _)) stays_of_inert

theorem stays_decrypt (C : Cipher) (e : Endpoint) (packet : Packet) :
    Stays e (e.decrypt C packet).2.2 := by
  rw [decrypt]
  split
  · exact .refl e
  · exact ⟨rfl, rfl⟩

/-! ## What a reception does to the address -/

variable {z : Zlib} {C : Cipher}

/-- A packet from another address that is not a response is answered with a challenge. -/
def Challenged (now : Timepoint) (path : Address) (e e' : Endpoint) : Prop :=
  path ≠ e.remoteAddress ∧ e'.remoteAddress = e.remoteAddress ∧
    e'.log.filter isChallenged = e.log.filter isChallenged ++ [.challenged now path]

/-- A response from another address is accepted. -/
def Migrated (C : Cipher) (now : Timepoint) (packet : Packet) (path : Address)
    (e e' : Endpoint) : Prop :=
  path ≠ e.remoteAddress ∧ e'.remoteAddress = path ∧
    e'.log.filter isChallenged = e.log.filter isChallenged ∧
    ∃ opened opener, e.decrypt C packet = (.keep, opened, opener) ∧
      opened.header.type = TypeID.authenticateResponse ∧
      (opener.verifyChallengeResponse C now opened path).1 = true

theorem challenged_sendChallenge (now : Timepoint) (path : Address) (e : Endpoint) :
    (e.sendChallenge z C now path).remoteAddress = e.remoteAddress ∧
      (e.sendChallenge z C now path).log.filter isChallenged =
        e.log.filter isChallenged ++ [.challenged now path] := by
  have hsent := fun call : SenderCall =>
    stays_of_sent (sent_call z C now (e.note (.challenged now path)) call)
  rw [sendChallenge]
  refine ⟨(hsent _).remoteAddress, (hsent _).challenges.trans ?_⟩
  simp [note, isChallenged]

/-- **A reception leaves the address, challenges it, or accepts a response from it.** -/
theorem receive_cases (now : Timepoint) (reactions : Reactions) (e : Endpoint) (packet : Packet)
    (path : Address) :
    Stays e (e.receive z C now reactions packet path) ∨
      Challenged now path e (e.receive z C now reactions packet path) ∨
      Migrated C now packet path e (e.receive z C now reactions packet path) := by
  have hdecrypt := stays_decrypt C e packet
  have haccept := fun e' packet' =>
    (walk_stays z C).accept (e := e') now reactions packet'
  rw [receive]
  split
  next hopen =>
    rw [hopen] at hdecrypt
    exact .inl hdecrypt
  next opened opener hopen =>
    rw [hopen] at hdecrypt
    dsimp only at hdecrypt
    split
    · exact .inl hdecrypt
    next packet' options hoptions =>
      obtain ⟨hheader, hsame⟩ := onReceive_options hoptions
      have hopener : Stays e { opener with options := options } :=
        ⟨hdecrypt.remoteAddress, hdecrypt.challenges⟩
      rw [networkPathOnReceive]
      by_cases hchallenge : packet'.header.type = TypeID.authenticateChallenge
      · rw [if_pos hchallenge]
        exact .inl (hopener.trans ((stays_of_sent (sent_send C now _ _ _)).trans (haccept _ _)))
      rw [if_neg hchallenge]
      by_cases hpath : path = opener.remoteAddress
      · rw [if_neg (by simpa using hpath)]
        exact .inl (hopener.trans (haccept _ _))
      have hforeign : path ≠ e.remoteAddress := by rwa [← hdecrypt.remoteAddress]
      rw [if_pos (by simpa using hpath)]
      by_cases hresponse : packet'.header.type = TypeID.authenticateResponse
      · rw [if_pos hresponse]
        have htype : opened.header.type = TypeID.authenticateResponse := by rw [← hheader, hresponse]
        obtain rfl := hsame (by rw [htype]; decide)
        have hverify : verifyChallengeResponse C now { opener with options := options } packet' path =
          verifyChallengeResponse C now opener packet' path := rfl
        rw [hverify]
        rcases hresult : verifyChallengeResponse C now opener packet' path with ⟨verified, rest⟩
        cases verified with
        | false => exact .inl hopener
        | true =>
            have htail := haccept { opener with options := options, remoteAddress := path } rest
            refine .inr (.inr ⟨hforeign, htail.remoteAddress,
              htail.challenges.trans hdecrypt.challenges, packet', opener, hopen, htype, ?_⟩)
            rw [hresult]
      · rw [if_neg hresponse]
        obtain ⟨haddress, hlog⟩ := challenged_sendChallenge (z := z) (C := C) now path
          { opener with options := options }
        refine .inr (.inl ⟨hforeign, haddress.trans hdecrypt.remoteAddress, hlog.trans ?_⟩)
        rw [← hdecrypt.challenges]

/-- Every other step leaves the address. -/
theorem step_cases (e : Endpoint) (input : Timepoint × Input) :
    Stays e (e.step z C input) ∨
      ∃ now packet path reactions, input = (now, .receive packet path reactions) ∧
        (Challenged now path e (e.step z C input) ∨
          Migrated C now packet path e (e.step z C input)) := by
  have h := walk_stays z C
  obtain ⟨now, input⟩ := input
  cases input with
  | receive packet path reactions =>
      rcases receive_cases (z := z) (C := C) now reactions e packet path with hstays | hcases
      · exact .inl hstays
      · exact .inr ⟨now, packet, path, reactions, rfl, hcases⟩
  | user call => exact .inl (h.userCall now call e)
  | processSchedule reliability => exact .inl (h.call e now trivial)
  | retryTimeout script => exact .inl (h.retryTimeout now (h.userCalls now script))
  | probeTimeout script => exact .inl (h.probeTimeout now (h.userCalls now script))
  | close event script => exact .inl (h.closeWith now event (h.userCalls now script))

/-! ## What an accepted response returns -/

theorem time_basis (sent : Timepoint) (address : Option Address) :
    BitVec.ofNat 64 (leNat ((NetworkPath.basis sent address).take 8)) = NetworkPath.time sent := by
  rw [NetworkPath.basis, List.take_left' (length_leBytes _ _), ofNat_leNat_leBytes _ (by norm_num)]

theorem address_basis (sent : Timepoint) (address : Option Address) :
    (BitVec.ofNat 224 (leNat ((NetworkPath.basis sent address).drop 8)) : Address) =
      address.getD 0 := by
  rw [NetworkPath.basis, List.drop_left' (length_leBytes _ _), ofNat_leNat_leBytes _ (by norm_num)]

/-- What `NetworkPath::verifyChallengeResponse` asks of the basis: that its address is the one
the response comes from. -/
structure Fits (remoteAddress : Address) (now : Timepoint) (path : Address) (basis : Bytes) :
    Prop where
  length : basis.length = 36
  time : (NetworkPath.time now - BitVec.ofNat 64 (leNat (basis.take 8))).toNat ≤ 60
  address : (BitVec.ofNat 224 (leNat (basis.drop 8)) : Address) = 0 ∧ path = remoteAddress ∨
    (BitVec.ofNat 224 (leNat (basis.drop 8)) : Address) ≠ 0 ∧
      (BitVec.ofNat 224 (leNat (basis.drop 8)) : Address) = path

theorem verifyChallengeResponse_iff {now : Timepoint} {packet : Packet} {path : Address}
    {e : Endpoint} :
    (e.verifyChallengeResponse C now packet path).1 = true ↔
      ∃ basis signature, returned packet = some (basis, signature) ∧
        Fits e.remoteAddress now path basis ∧ e.verifySignature C packet = true := by
  have hfst : (e.verifyChallengeResponse C now packet path).1 =
      ((NetworkPath.verifyChallengeResponse e.remoteAddress now packet path).1 &&
        e.verifySignature C packet) := rfl
  rw [hfst, Bool.and_eq_true, NetworkPath.verifyChallengeResponse, returned]
  rcases popSizedData packet with ⟨_ | signature, packet'⟩
  · simp
  dsimp only
  rcases popSizedData packet' with ⟨_ | basis, packet''⟩
  · simp
  simp only [Option.map_some, Option.some.injEq, Prod.mk.injEq, existsAndEq, and_true,
    exists_eq_left']
  refine and_congr_left fun _ => ?_
  constructor
  · intro h
    split at h
    · cases h
    split at h
    · cases h
    next hlength htime =>
      refine ⟨not_not.mp hlength, not_lt.mp htime, ?_⟩
      split at h
      next hzero => exact .inl ⟨hzero, by simpa using h⟩
      next hzero => exact .inr ⟨hzero, by simpa using h⟩
  · rintro ⟨hlength, htime, haddress⟩
    rw [if_neg (not_not.mpr hlength), if_neg (not_lt.mpr htime)]
    rcases haddress with ⟨hzero, hpath⟩ | ⟨hzero, hpath⟩
    · rw [if_pos hzero]
      simpa using hpath
    · rw [if_neg hzero]
      simpa using hpath

/-- For times of 64 bits the difference is that of the whole seconds. -/
theorem seconds_of_time {now sent : Timepoint} (hnow : now.natAbs < 2 ^ 63)
    (hsent : sent.natAbs < 2 ^ 63)
    (h : (NetworkPath.time now - NetworkPath.time sent).toNat ≤ 60) :
    0 ≤ now.tdiv 1000000000 - sent.tdiv 1000000000 ∧
      now.tdiv 1000000000 - sent.tdiv 1000000000 ≤ 60 := by
  have hsmall : ∀ t : Timepoint, t.natAbs < 2 ^ 63 → (t.tdiv 1000000000).natAbs < 2 ^ 34 := by
    intro t ht
    have hdiv : (t.tdiv 1000000000).natAbs = t.natAbs / 1000000000 := Int.natAbs_tdiv _ _
    omega
  have hnow' := hsmall now hnow
  have hsent' := hsmall sent hsent
  rw [BitVec.toNat_sub, NetworkPath.time, NetworkPath.time, BitVec.toNat_ofInt,
    BitVec.toNat_ofInt] at h
  generalize now.tdiv 1000000000 = a at *
  generalize sent.tdiv 1000000000 = b at *
  omega

/-! ## The address changes only after a challenge -/

/-- The bases that `SHAKey::sign` has been called with: those of the challenges. -/
def Signed (log : List Notification) (basis : Bytes) : Prop :=
  ∃ sent path, .challenged sent path ∈ log ∧
    (basis = NetworkPath.basis sent none ∨ basis = NetworkPath.basis sent (some path))

/-- Nobody else makes a signature: a response whose signature is accepted returns a basis that
was signed. -/
def Unforged (C : Cipher) (e : Endpoint) : Timepoint × Input → Prop
  | (_, .receive packet _ _) =>
      ∀ opened opener basis signature, e.decrypt C packet = (.keep, opened, opener) →
        opened.header.type = TypeID.authenticateResponse →
        returned opened = some (basis, signature) → opener.verifySignature C opened = true →
        Signed e.log basis
  | _ => True

/-- A response that is accepted from another address answers a challenge of that address. -/
theorem challenged_of_signed {now : Timepoint} {path remoteAddress : Address} {basis : Bytes}
    {log : List Notification} (hsigned : Signed log basis) (hpath : path ≠ remoteAddress)
    (hfits : Fits remoteAddress now path basis) :
    ∃ sent, .challenged sent path ∈ log ∧ basis = NetworkPath.basis sent (some path) ∧
      (NetworkPath.time now - NetworkPath.time sent).toNat ≤ 60 := by
  obtain ⟨sent, path', hmem, hbasis⟩ := hsigned
  obtain ⟨hzero, hmatch⟩ := hfits.address.resolve_left fun h => hpath h.2
  have htime := hfits.time
  rcases hbasis with rfl | rfl
  · rw [address_basis] at hzero
    exact absurd rfl hzero
  · rw [address_basis] at hmatch
    obtain rfl : path' = path := hmatch
    rw [time_basis] at htime
    exact ⟨sent, hmem, rfl, htime⟩

theorem challenges_of_started {e : Endpoint} (h : Started z C e) :
    e.log.filter isChallenged = [] := by
  cases h with
  | connected crypto id localID remoteAddress socketOptions now options receiveHandler
      closeHandler =>
      exact ((walk_stays z C).connect now options receiveHandler closeHandler).challenges
  | created crypto id localID remoteAddress socketOptions now =>
      exact ((walk_stays z C).probe _ _).challenges

/-- A challenge that is recorded was sent when a packet came from its address. -/
theorem received_of_challenged {e₀ : Endpoint} (h : Started z C e₀) {sent : Timepoint}
    {path : Address} {inputs : List (Timepoint × Input)}
    (hsent : .challenged sent path ∈ (run (step z C) e₀ inputs).log) :
    ∃ earlier packet reactions,
      earlier ++ [(sent, .receive packet path reactions)] <+: inputs := by
  have hfilter : ∀ e : Endpoint, .challenged sent path ∈ e.log ↔
      .challenged sent path ∈ e.log.filter isChallenged := by
    simp [isChallenged]
  -- The last input has sent the challenge, or it was there before.
  induction inputs using List.reverseRecOn with
  | nil =>
      rw [hfilter, run_nil, challenges_of_started h] at hsent
      cases hsent
  | append_singleton inputs input ih =>
      have hbefore : .challenged sent path ∈ (run (step z C) e₀ inputs).log →
          ∃ earlier packet reactions,
            earlier ++ [(sent, .receive packet path reactions)] <+: inputs ++ [input] := by
        intro hmem
        obtain ⟨earlier, packet, reactions, hearlier⟩ := ih hmem
        exact ⟨earlier, packet, reactions, hearlier.trans (List.prefix_append _ _)⟩
      rw [run_append, run_cons, run_nil, hfilter] at hsent
      rcases step_cases (z := z) (C := C) (run (step z C) e₀ inputs) input with
        hstays | ⟨now, packet, path', reactions, rfl, ⟨_, _, hlog⟩ | ⟨_, _, hlog, _⟩⟩
      · rw [hstays.challenges, ← hfilter] at hsent
        exact hbefore hsent
      · rw [hlog, List.mem_append, ← hfilter, List.mem_singleton] at hsent
        rcases hsent with hmem | heq
        · exact hbefore hmem
        · cases heq
          exact ⟨inputs, packet, reactions, List.prefix_refl _⟩
      · rw [hlog, ← hfilter] at hsent
        exact hbefore hsent

/-- **The address changes only after a challenge**: in every run in which nobody else makes a
signature, if a step changes the address of the peer, the step receives a response from the new
address, and the connection has challenged that address, when a packet came from it, with the
basis that the response returns, at most 60 seconds before. -/
theorem migration {e₀ : Endpoint} (h : Started z C e₀) {inputs : List (Timepoint × Input)}
    (before : List (Timepoint × Input)) (input : Timepoint × Input)
    (hunforged : Along (step z C) (Unforged C) e₀ inputs)
    (hbefore : before ++ [input] <+: inputs)
    (hchanged : ((run (step z C) e₀ before).step z C input).remoteAddress ≠
      (run (step z C) e₀ before).remoteAddress) :
    let e := run (step z C) e₀ before
    let path := (e.step z C input).remoteAddress
    ∃ now packet reactions opened opener signature sent,
      input = (now, .receive packet path reactions) ∧
      e.decrypt C packet = (.keep, opened, opener) ∧
      opened.header.type = TypeID.authenticateResponse ∧
      returned opened = some (NetworkPath.basis sent (some path), signature) ∧
      .challenged sent path ∈ e.log ∧
      (∃ earlier packet' reactions',
        earlier ++ [(sent, .receive packet' path reactions')] <+: before) ∧
      (NetworkPath.time now - NetworkPath.time sent).toNat ≤ 60 ∧
      (now.natAbs < 2 ^ 63 → sent.natAbs < 2 ^ 63 →
        0 ≤ now.tdiv 1000000000 - sent.tdiv 1000000000 ∧
          now.tdiv 1000000000 - sent.tdiv 1000000000 ≤ 60) := by
  obtain ⟨rest, rfl⟩ := hbefore
  have hinput : Unforged C (run (step z C) e₀ before) input := by
    rw [along_append, along_append, along_cons] at hunforged
    exact hunforged.1.2.1
  intro e path
  rcases step_cases (z := z) (C := C) e input with
    hstays | ⟨now, packet, path', reactions, rfl, ⟨_, hsame, _⟩ | hmigrated⟩
  · exact absurd hstays.remoteAddress hchanged
  · exact absurd hsame hchanged
  · obtain ⟨hforeign, hpath, _, opened, opener, hopen, htype, hverified⟩ := hmigrated
    change path = path' at hpath
    clear_value path
    subst hpath
    obtain ⟨basis, signature, hreturned, hfits, hsignature⟩ :=
      verifyChallengeResponse_iff.mp hverified
    have hopener : opener.remoteAddress = e.remoteAddress := by
      have hdecrypt := stays_decrypt C e packet
      rw [hopen] at hdecrypt
      exact hdecrypt.remoteAddress
    rw [hopener] at hfits
    have hsigned := hinput opened opener basis signature hopen htype hreturned hsignature
    obtain ⟨sent, hsent, rfl, hseconds⟩ := challenged_of_signed hsigned hforeign hfits
    exact ⟨now, packet, reactions, opened, opener, signature, sent, rfl, hopen, htype, hreturned,
      hsent, received_of_challenged h hsent, hseconds,
      fun hnow hsent' => seconds_of_time hnow hsent' hseconds⟩

/-! ## Signatures without the key -/

/-- A response with a basis that is signed with any key. -/
def response (C : Cipher) (key : SHAKey) (connection : ShortConnectionID) (basis : Bytes) :
    Packet where
  header := { type := TypeID.authenticateResponse, connection := connection }
  data := basis ++ leBytes 2 36 ++ SHAKey.sign C key basis ++ leBytes 2 32

theorem returned_response (key : SHAKey) (connection : ShortConnectionID) (now : Timepoint)
    (address : Option Address) :
    returned (response C key connection (NetworkPath.basis now address)) =
      some (NetworkPath.basis now address,
        SHAKey.sign C key (NetworkPath.basis now address)) := by
  have hlength : (SHAKey.sign C key (NetworkPath.basis now address)).length = 32 :=
    length_leBytes _ _
  obtain ⟨rest, hpop⟩ := popSizedData_append
    (response C key connection (NetworkPath.basis now address))
    (NetworkPath.basis now address ++ leBytes 2 36) (SHAKey.sign C key (NetworkPath.basis now address))
    (by rw [hlength]; rfl) (by rw [hlength]; norm_num)
  obtain ⟨rest', hpop'⟩ := popSizedData_append
    { response C key connection (NetworkPath.basis now address) with
      data := NetworkPath.basis now address ++ leBytes 2 36
      rest := rest }
    [] (NetworkPath.basis now address) (by rw [length_basis]; rfl) (by rw [length_basis]; norm_num)
  rw [returned, hpop]
  dsimp only
  rw [hpop']
  rfl

/-- **A signature that is made with another key is accepted**, and the address changes. -/
theorem remoteAddress_response (e : Endpoint) {path : Address} (hpath : path ≠ e.remoteAddress)
    (hzero : path ≠ 0) (now : Timepoint) (reactions : Reactions) (key : SHAKey)
    (connection : ShortConnectionID) :
    (e.receive z C now reactions
      (response C key connection (NetworkPath.basis now (some path))) path).remoteAddress = path := by
  have hreturned := returned_response (C := C) key connection now (some path)
  have hverified : (e.verifyChallengeResponse C now
      (response C key connection (NetworkPath.basis now (some path))) path).1 = true := by
    refine verifyChallengeResponse_iff.mpr ⟨_, _, hreturned, ⟨length_basis _ _, ?_, ?_⟩, ?_⟩
    · rw [time_basis]
      simp
    · rw [address_basis]
      exact .inr ⟨hzero, rfl⟩
    · rw [verifySignature, hreturned]
      split
      · rfl
      · simp [SHAKey.verify, SHAKey.sign]
  generalize hpacket : response C key connection (NetworkPath.basis now (some path)) = packet at *
  have htype : packet.header.type = TypeID.authenticateResponse := by rw [← hpacket]; rfl
  rw [receive, decrypt_plain C e (by rw [htype]; decide)]
  dsimp only
  rw [HandshakeOptions.onReceive, if_neg (by rw [htype]; decide)]
  dsimp only
  rw [networkPathOnReceive, if_neg (by rw [htype]; decide), if_pos hpath, if_pos htype]
  rcases hresult : e.verifyChallengeResponse C now packet path with ⟨verified, rest⟩
  rw [hresult] at hverified
  obtain rfl : verified = true := hverified
  exact ((walk_stays z C).accept now reactions rest).remoteAddress

/-- A connection with encryption that the socket created for the peer at address 1. -/
def accepting : Endpoint := start 0 (fresh (some (.numbered 4)) 5 3 1 Connection.immediate)

theorem started_accepting (C : Cipher) : Started z C accepting :=
  .created (some (.numbered 4)) 5 3 1 Connection.immediate 0

/-- The peer moves to address 2 and answers the challenge. -/
def moving : List (Timepoint × Input) :=
  [(1000000000, .receive { header := { type := TypeID.probe } } 2 {}),
    (2000000000, .receive (response Cipher.marking 4 3
      (NetworkPath.basis 1000000000 (some 2))) 2 {})]

theorem unforged_plain {e : Endpoint} {packet : Packet}
    (htype : packet.header.type ∉ [TypeID.encryptedViaPublicKey, TypeID.encryptedViaAES, TypeID.h0,
      TypeID.h1, TypeID.h2, TypeID.h3])
    (hsigned : packet.header.type = TypeID.authenticateResponse →
      ∀ basis signature, returned packet = some (basis, signature) → Signed e.log basis)
    (now : Timepoint) (path : Address) (reactions : Reactions) :
    Unforged C e (now, .receive packet path reactions) := by
  intro opened opener basis signature hopen hresponse hreturned _
  rw [decrypt_plain C e htype] at hopen
  obtain rfl : packet = opened := congrArg (fun r => r.2.1) hopen
  exact hsigned hresponse basis signature hreturned

theorem unforged_moving : Along (step Connection.storing Cipher.marking)
    (Unforged Cipher.marking) accepting moving := by
  refine ⟨unforged_plain (by decide) (fun h => by cases h) _ _ _,
    unforged_plain (by decide) (fun _ basis signature hreturned => ?_) _ _ _, trivial⟩
  rw [returned_response] at hreturned
  cases hreturned
  exact ⟨1000000000, 2, by decide +kernel, .inr rfl⟩

theorem migration_moving :
    let e := run (step Connection.storing Cipher.marking) accepting (moving.take 1)
    let e' := run (step Connection.storing Cipher.marking) accepting moving
    e.remoteAddress = 1 ∧ e'.remoteAddress = 2 ∧
      ∃ sent, .challenged sent e'.remoteAddress ∈ e.log := by
  obtain ⟨_, _, _, _, _, _, sent, _, _, _, _, hsent, _⟩ := migration
    (started_accepting Cipher.marking) (moving.take 1) (moving.get ⟨1, by decide⟩) unforged_moving
    (List.prefix_refl _) (by decide +kernel)
  exact ⟨by decide +kernel, by decide +kernel, sent, hsent⟩

/-- **Nobody has challenged address 2**, and the key is not read: a response that is signed with
another key makes it the peer's address. -/
theorem forged_migrates :
    (∀ (C : Cipher) (key key' : SHAKey) (data : Bytes),
      SHAKey.verify C key' data (SHAKey.sign C key data) = true) ∧
    ∀ C : Cipher,
      let forged := response C 0 3 (NetworkPath.basis 1000000000 (some 2))
      let e := accepting.step Connection.storing C (1000000000, .receive forged 2 {})
      Started Connection.storing C accepting ∧
        accepting.crypto.map (·.signer) = some 4 ∧ accepting.remoteAddress = 1 ∧
        accepting.log = [] ∧ e.remoteAddress = 2 := by
  refine ⟨fun C key key' data => by simp [SHAKey.verify, SHAKey.sign], fun C => ?_⟩
  have hforeign : (2 : Address) ≠ accepting.remoteAddress := by decide
  have hmigrates := remoteAddress_response (z := Connection.storing) (C := C) accepting hforeign
    (by decide) 1000000000 {} 0 3
  refine ⟨started_accepting C, rfl, rfl, rfl, ?_⟩
  rw [step]
  exact hmigrates

end Endpoint
end MrUDP
